/-! Runs that stop at the first fault and keep what they have done until then. -/

namespace DoubleEntry

/-- A state, and the fault at which the run that led to it stopped, if it did. -/
structure Progress (σ ε : Type) where
  state : σ
  fault : Option ε := none

namespace Progress

variable {σ τ ε α : Type}

/-- Continues a run that has not stopped. -/
def andThen (run : Progress σ ε) (next : σ → Progress σ ε) : Progress σ ε :=
  match run.fault with
  | none => next run.state
  | some _ => run

/-- The same run inside a larger state. -/
def lift (run : Progress σ ε) (embed : σ → τ) : Progress τ ε := ⟨embed run.state, run.fault⟩

/-- Takes `step` for each item in turn until one stops. -/
def foldl (step : σ → α → Progress σ ε) : σ → List α → Progress σ ε
  | state, [] => { state }
  | state, item :: items => (step state item).andThen fun state => foldl step state items

/-- The last state of a run that has not stopped. -/
def toExcept (run : Progress σ ε) : Except ε σ :=
  match run.fault with
  | none => .ok run.state
  | some fault => .error fault

@[simp] theorem andThen_ok (state : σ) (next : σ → Progress σ ε) :
    (⟨state, none⟩ : Progress σ ε).andThen next = next state := rfl

@[simp] theorem andThen_fault (state : σ) (fault : ε) (next : σ → Progress σ ε) :
    (⟨state, some fault⟩ : Progress σ ε).andThen next = ⟨state, some fault⟩ := rfl

theorem foldl_append (step : σ → α → Progress σ ε) (state : σ) (first second : List α) :
    foldl step state (first ++ second) =
      (foldl step state first).andThen fun state => foldl step state second := by
  induction first generalizing state with
  | nil => rfl
  | cons item items ih =>
    simp only [List.cons_append, foldl]
    rcases step state item with ⟨state, _ | fault⟩ <;> simp [ih]

end Progress

end DoubleEntry
