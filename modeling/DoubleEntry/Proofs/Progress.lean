import DoubleEntry.Progress

/-! Runs that do not stop. Such a run has taken every one of its steps, and it can be seen through
any view of its states under which each step is a step of another run. -/

namespace DoubleEntry.Progress

variable {σ τ ε ε' α β : Type} {step : σ → α → Progress σ ε} {state : σ}

theorem eq_of_fault_eq_none {run : Progress σ ε} (done : run.fault = none) :
    run = ⟨run.state, none⟩ := by
  cases run
  cases done
  rfl

theorem toExcept_eq_ok_iff {run : Progress σ ε} {last : σ} :
    run.toExcept = .ok last ↔ run = ⟨last, none⟩ := by
  rcases run with ⟨state, _ | fault⟩ <;> simp [toExcept]

theorem andThen_of_done {run : Progress σ ε} (next : σ → Progress σ ε) (done : run.fault = none) :
    run.andThen next = next run.state := by
  rw [eq_of_fault_eq_none done, andThen_ok]

theorem fault_andThen_eq_none_iff {run : Progress σ ε} {next : σ → Progress σ ε} :
    (run.andThen next).fault = none ↔ run.fault = none ∧ (next run.state).fault = none := by
  rcases run with ⟨state, _ | fault⟩ <;> simp

/-- A run in two parts, seen through a view of its states. -/
theorem lift_andThen {run : Progress σ ε} {next : σ → Progress σ ε} {next' : τ → Progress τ ε}
    {view : σ → τ} (follows : (next run.state).lift view = next' (view run.state)) :
    (run.andThen next).lift view = (run.lift view).andThen next' := by
  rcases run with ⟨state, _ | fault⟩
  · exact follows
  · rfl

@[simp] theorem foldl_nil (step : σ → α → Progress σ ε) (state : σ) :
    foldl step state [] = ⟨state, none⟩ := rfl

theorem foldl_singleton (step : σ → α → Progress σ ε) (state : σ) (item : α) :
    foldl step state [item] = step state item := by
  rw [foldl]
  rcases step state item with ⟨next, _ | fault⟩ <;> rfl

theorem foldl_cons_of_done {item : α} (items : List α) (done : (step state item).fault = none) :
    foldl step state (item :: items) = foldl step (step state item).state items := by
  rw [foldl, andThen_of_done _ done]

theorem fault_foldl_cons_eq_none_iff {item : α} {items : List α} :
    (foldl step state (item :: items)).fault = none ↔
      (step state item).fault = none ∧ (foldl step (step state item).state items).fault = none := by
  rw [foldl, fault_andThen_eq_none_iff]

theorem foldl_map (step : σ → α → Progress σ ε) (item : β → α) (state : σ) (items : List β) :
    foldl step state (items.map item) = foldl (fun state other => step state (item other)) state
      items := by
  induction items generalizing state with
  | nil => rfl
  | cons first items ih =>
    rw [List.map_cons, foldl, foldl]
    congr 1
    funext next
    exact ih next

/-- A run over the lists that some items stand for is one run over all of their members. -/
theorem foldl_flatMap (step : σ → α → Progress σ ε) (inner : β → List α) (state : σ)
    (items : List β) :
    foldl (fun state item => foldl step state (inner item)) state items =
      foldl step state (items.flatMap inner) := by
  induction items generalizing state with
  | nil => rfl
  | cons item items ih =>
    rw [List.flatMap_cons, foldl_append, foldl]
    congr 1
    funext next
    exact ih next

/-- A run is seen through a view as another run if each of its steps is. -/
theorem lift_foldl {view : σ → τ} {seen : τ → α → Progress τ ε}
    (follows : ∀ state item, (step state item).lift view = seen (view state) item)
    (state : σ) (items : List α) :
    (foldl step state items).lift view = foldl seen (view state) items := by
  induction items generalizing state with
  | nil => rfl
  | cons item items ih =>
    rw [foldl, foldl, ← follows]
    exact lift_andThen (ih _)

/-- A run that does not stop is seen through a view as a run that does not stop either. -/
theorem foldl_view {view : σ → τ} {seen : τ → α → Progress τ ε'}
    (follows : ∀ state item, (step state item).fault = none →
      seen (view state) item = ⟨view (step state item).state, none⟩)
    {items : List α} (done : (foldl step state items).fault = none) :
    foldl seen (view state) items = ⟨view (foldl step state items).state, none⟩ := by
  induction items generalizing state with
  | nil => rfl
  | cons item items ih =>
    obtain ⟨first, rest⟩ := fault_foldl_cons_eq_none_iff.mp done
    have same := follows state item first
    rw [foldl_cons_of_done items first, foldl_cons_of_done items (by rw [same]), same]
    exact ih rest

/-- A run that stops has taken all its steps up to the one at which it stops. -/
theorem foldl_stops {items : List α} {fault : ε}
    (stopped : (foldl step state items).fault = some fault) :
    ∃ before item after last, items = before ++ item :: after ∧
      foldl step state before = ⟨last, none⟩ ∧
      step last item = ⟨(foldl step state items).state, some fault⟩ := by
  induction items generalizing state with
  | nil => cases stopped
  | cons item items ih =>
    rcases first : step state item with ⟨next, _ | other⟩
    · rw [foldl, first, andThen_ok] at stopped ⊢
      obtain ⟨before, stopping, after, last, rfl, run, stops⟩ := ih stopped
      refine ⟨item :: before, stopping, after, last, rfl, ?_, stops⟩
      rw [foldl, first, andThen_ok, run]
    · rw [foldl, first, andThen_fault] at stopped ⊢
      cases stopped
      exact ⟨[], item, items, state, rfl, rfl, first⟩

end DoubleEntry.Progress
