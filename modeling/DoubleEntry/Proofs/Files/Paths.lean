import DoubleEntry.Files.FileSystem
import Mathlib.Data.List.Basic
import Mathlib.Data.List.Induction

/-! Paths that go on from the path of a directory. What such a path names is found from the place of
the directory on, whatever the directory is called. -/

namespace DoubleEntry

/-- Lists with a common start are ordered by how they go on. -/
theorem compareLex_append_left {α : Type} {order : α → α → Ordering}
    (same : ∀ item, order item item = .eq) (front first second : List α) :
    List.compareLex order (front ++ first) (front ++ second) =
      List.compareLex order first second := by
  induction front with
  | nil => rfl
  | cons item front ih =>
    rw [List.cons_append, List.cons_append, List.compareLex_cons_cons, same, ih]
    rfl

namespace Path

theorem toList_ofList_comp (parts : List (List Char)) :
    (parts.map String.ofList).map String.toList = parts := by
  simp [Function.comp_def]

theorem parts_slash (front tail : String) :
    parts (front ++ "/" ++ tail) = parts front ++ parts tail := by
  have split : (front ++ "/" ++ tail).toList = front.toList ++ '/' :: tail.toList := by simp
  rw [parts, split, List.splitOn_append_cons_self, List.map_append, parts, parts]

theorem parts_of_not_mem {name : String} (whole : '/' ∉ name.toList) : parts name = [name] := by
  rw [parts, List.splitOn_eq_singleton whole, List.map_singleton, String.ofList_toList]

/-- The parts of what a directory leads to are parts of its path and of what comes behind it. -/
theorem mem_parts_join {dir target part : String} (member : part ∈ parts (join dir target)) :
    part ∈ parts dir ∨ part ∈ parts target := by
  unfold join at member
  split at member
  · exact .inr member
  · split at member
    case isTrue ends =>
      obtain ⟨early, split⟩ := List.getLast?_eq_some_iff.mp (beq_iff_eq.mp ends)
      have text : dir = String.ofList early ++ "/" ++ "" := by
        rw [← String.toList_inj, split]
        simp
      have parted : parts (dir ++ target) = parts (String.ofList early) ++ parts target := by
        rw [← parts_slash, text]
        simp
      rw [parted] at member
      rw [text, parts_slash]
      exact (List.mem_append.mp member).imp_left fun found => List.mem_append_left _ found
    case isFalse =>
      rw [parts_slash] at member
      exact List.mem_append.mp member

theorem ne_empty_of_isAbsolute {path : String} (absolute : isAbsolute path = true) : path ≠ "" := by
  rintro rfl
  cases absolute

theorem exists_parts_of_isAbsolute {path : String} (absolute : isAbsolute path = true) :
    ∃ later, parts path = "" :: later := by
  rw [isAbsolute, beq_iff_eq] at absolute
  obtain ⟨rest, text⟩ := List.head?_eq_some_iff.mp absolute
  exact ⟨(rest.splitOn '/').map String.ofList, by
    simp [parts, text, List.splitOn_cons_eq_if_modifyHead]⟩

theorem orderKey_of_parts {path : String} {later : List String}
    (absolute : isAbsolute path = true) (parted : parts path = "" :: later) :
    orderKey path = (0, "") :: later.filterMap (partKey 1) := by
  have rest : later.mapIdx (fun index => partKey (index + 1)) = later.map (partKey 1) := by
    refine List.ext_getElem (by simp) fun index _ _ => ?_
    simp [partKey]
  have filled : path.isEmpty = false := by simpa using ne_empty_of_isAbsolute absolute
  have root : partKey 0 "" = some (0, "") := rfl
  rw [orderKey, filled, parted, List.mapIdx_cons, rest, root]
  simp only [Bool.false_eq_true, if_false, List.filterMap_cons, id, List.filterMap_map]
  rfl

theorem isAbsolute_append {front : String} (nonempty : front ≠ "") (tail : String) :
    isAbsolute (front ++ tail) = isAbsolute front := by
  obtain ⟨c, rest, text⟩ := List.exists_cons_of_ne_nil (mt String.toList_eq_nil_iff.mp nonempty)
  rw [isAbsolute, isAbsolute, String.toList_append, text, List.cons_append, List.head?_cons,
    List.head?_cons]

end Path

/-- What can be the name of something in a directory. -/
def IsName (name : String) : Prop :=
  Path.isProper name = true ∧ name ≠ ".." ∧ '/' ∉ name.toList

instance (name : String) : Decidable (IsName name) := by
  unfold IsName
  infer_instance

theorem IsName.ne_empty {name : String} (named : IsName name) : name ≠ "" := by
  rintro rfl
  cases named.1

theorem IsName.isAbsolute_eq {name : String} (named : IsName name) :
    Path.isAbsolute name = false := by
  rw [Path.isAbsolute, beq_eq_false_iff_ne]
  intro first
  exact named.2.2 (List.mem_of_mem_head? first)

namespace Place

/-- The path of a place, with nothing for the root. -/
def text (place : Place) : String := String.join (place.map ("/" ++ ·))

/-- The path of what `tail` names seen from a place; without a tail, of the place itself. -/
def along (place : Place) (tail : String) : String :=
  if tail.isEmpty then place.path else place.text ++ "/" ++ tail

theorem text_append (place more : Place) : text (place ++ more) = place.text ++ more.text := by
  rw [← String.toList_inj]
  simp [text]

theorem text_concat (place : Place) (name : String) :
    text (place ++ [name]) = place.text ++ "/" ++ name := by
  rw [← String.toList_inj]
  simp [text]

theorem text_eq_intercalate {place : Place} (some_ : place ≠ []) :
    place.text = "/" ++ "/".intercalate place := by
  induction place with
  | nil => exact absurd rfl some_
  | cons name rest ih =>
    cases rest with
    | nil => simp [text]
    | cons next rest =>
      rw [← List.singleton_append, text_append, ih (by simp), List.singleton_append,
        String.intercalate_cons_cons]
      simp [text, String.append_assoc]

theorem along_empty (place : Place) : place.along "" = place.path := rfl

theorem along_of_ne (place : Place) {tail : String} (nonempty : tail ≠ "") :
    place.along tail = place.text ++ "/" ++ tail := by
  rw [along, if_neg]
  simpa using nonempty

theorem parts_text {place : Place} (names : ∀ name ∈ place, IsName name) :
    Path.parts place.text = "" :: place := by
  induction place using List.reverseRecOn with
  | nil => rfl
  | append_singleton early name ih =>
    have name_ : IsName name := names name (by simp)
    rw [text_concat, Path.parts_slash, ih fun name member => names name (by simp [member]),
      Path.parts_of_not_mem name_.2.2]
    rfl

theorem getLast?_text {place : Place} (names : ∀ name ∈ place, IsName name) :
    place.text.toList.getLast? ≠ some '/' := by
  rcases List.eq_nil_or_concat' place with rfl | ⟨early, name, rfl⟩
  · simp [text]
  · have named : IsName name := names name (by simp)
    have solid := mt String.toList_eq_nil_iff.mp named.ne_empty
    rw [text_concat, String.toList_append, List.getLast?_append_of_ne_nil _ solid]
    exact fun last => named.2.2 (List.mem_of_getLast? last)

theorem isAbsolute_along (place : Place) (tail : String) :
    Path.isAbsolute (place.along tail) = true := by
  unfold along path
  split
  · split
    · rfl
    case isFalse nonempty =>
      obtain ⟨name, rest, rfl⟩ := List.exists_cons_of_ne_nil (mt List.isEmpty_iff.mpr nonempty)
      simp [Path.isAbsolute]
  · rw [text, Path.isAbsolute]
    cases place <;> simp

theorem path_of_ne {place : Place} (nonempty : place ≠ []) : place.path = place.text := by
  rw [path, if_neg (mt List.isEmpty_iff.mp nonempty), text]

theorem join_along {place : Place} (names : ∀ name ∈ place, IsName name) {tail target : String}
    (relative : Path.isAbsolute target = false) (some_ : tail ≠ "" ∨ target ≠ "") :
    Path.join (place.along tail) target = place.along (Path.join tail target) := by
  by_cases start : tail = ""
  · subst start
    have nonempty := some_.resolve_left (fun other => other rfl)
    have bare : Path.join "" target = target := by simp [Path.join]
    rw [bare, along_empty, along_of_ne _ nonempty]
    by_cases root : place = []
    · subst root
      simp [Path.join, relative, path, text]
    · rw [path_of_ne root, Path.join, if_neg, if_neg]
      · simpa using getLast?_text names
      · obtain ⟨name, rest, rfl⟩ := List.exists_cons_of_ne_nil root
        simp [relative, text]
  · have solid := mt String.toList_eq_nil_iff.mp start
    have last : (place.text ++ "/" ++ tail).toList.getLast? = tail.toList.getLast? := by
      rw [String.toList_append, List.getLast?_append_of_ne_nil _ solid]
    have longer : Path.join tail target ≠ "" := by
      unfold Path.join
      simp [relative, start]
      split <;> simp [start]
    have filled : (place.text ++ "/" ++ tail).isEmpty = false := by simp
    have given : tail.isEmpty = false := by simpa using start
    rw [along_of_ne _ start, along_of_ne _ longer, Path.join, Path.join, last, filled, given,
      relative]
    simp only [Bool.or_self, Bool.false_eq_true, if_false]
    split <;> simp [String.append_assoc]

theorem path_concat {place : Place} (names : ∀ name ∈ place, IsName name) {name : String}
    (named : IsName name) : path (place ++ [name]) = Path.join place.path name := by
  rw [← along_empty place, join_along names named.isAbsolute_eq (.inr named.ne_empty)]
  have bare : Path.join "" name = name := by simp [Path.join]
  rw [bare, along_of_ne _ named.ne_empty, path_of_ne (by simp), text_concat]

theorem orderKey_along {place : Place} (names : ∀ name ∈ place, IsName name) (tail : String) :
    Path.orderKey (place.along tail) =
      (0, "") :: place.map (3, ·) ++ (Path.parts tail).filterMap (Path.partKey 1) := by
  have absolute := place.isAbsolute_along tail
  have keys : place.filterMap (Path.partKey 1) = place.map (3, ·) := by
    rw [← List.filterMap_eq_map]
    refine List.filterMap_congr fun name member => ?_
    obtain ⟨proper, noUp, -⟩ := names name member
    rw [Path.isProper, Bool.and_eq_true, bne_iff_ne, bne_iff_ne] at proper
    simp [Path.partKey, proper, noUp]
  by_cases bare : tail = ""
  · subst bare
    have none : (Path.parts "").filterMap (Path.partKey 1) = [] := by decide
    rw [along_empty] at *
    by_cases root : place = []
    · subst root
      decide
    · have parted : Path.parts place.path = "" :: place := by
        rw [path_of_ne root, parts_text names]
      rw [Path.orderKey_of_parts absolute parted, none, keys, List.append_nil]
  · have parted : Path.parts (place.along tail) = "" :: (place ++ Path.parts tail) := by
      rw [along_of_ne _ bare, Path.parts_slash, parts_text names, List.cons_append]
    rw [Path.orderKey_of_parts absolute parted, List.filterMap_append, keys, List.cons_append]

theorem ordered_along {place : Place} (names : ∀ name ∈ place, IsName name)
    (first second : String) :
    Path.ordered (place.along first) (place.along second) =
      Path.ordered (along [] first) (along [] second) := by
  have root : ∀ name ∈ ([] : Place), IsName name := nofun
  have same (key : Nat × String) : @compare _ lexOrd key key = .eq := by
    change compareLex _ _ key key = .eq
    simp [compareLex, compareOn]
  rw [Path.ordered, Path.ordered, orderKey_along names, orderKey_along names, orderKey_along root,
    orderKey_along root]
  change (List.compareLex _ _ _).isLE = (List.compareLex _ _ _).isLE
  rw [compareLex_append_left same, compareLex_append_left same]

end Place

end DoubleEntry
