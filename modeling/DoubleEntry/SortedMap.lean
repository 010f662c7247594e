/-! Finite maps that keep their entries in strictly increasing order of keys. Two maps with the same
look-ups are equal, so a map is determined by what it maps. -/

namespace DoubleEntry

/-- A finite map: entries in strictly increasing order of keys. -/
structure SortedMap (κ α : Type) [Ord κ] where
  entries : List (κ × α)
  sorted : entries.Pairwise fun a b => compare a.1 b.1 = .lt

abbrev SortedSet (κ : Type) [Ord κ] := SortedMap κ Unit

namespace SortedMap

variable {κ α : Type} [Ord κ]

instance [DecidableEq κ] [DecidableEq α] : DecidableEq (SortedMap κ α) := fun a b =>
  if h : a.entries = b.entries then
    isTrue (by cases a; cases b; cases h; rfl)
  else
    isFalse fun same => h (same ▸ rfl)

def empty : SortedMap κ α := ⟨[], .nil⟩

instance : EmptyCollection (SortedMap κ α) := ⟨empty⟩
instance : Inhabited (SortedMap κ α) := ⟨empty⟩

/-- Puts an entry at its place in a sorted list, replacing one of the same key. -/
def insertEntry (key : κ) (value : α) : List (κ × α) → List (κ × α)
  | [] => [(key, value)]
  | entry :: rest =>
    match compare key entry.1 with
    | .lt => (key, value) :: entry :: rest
    | .eq => (key, value) :: rest
    | .gt => entry :: insertEntry key value rest

/-- The value of a key in a sorted list. -/
def valueIn? (key : κ) : List (κ × α) → Option α
  | [] => none
  | entry :: rest => if compare key entry.1 = .eq then some entry.2 else valueIn? key rest

def find? (map : SortedMap κ α) (key : κ) : Option α := valueIn? key map.entries

def keys (map : SortedMap κ α) : List κ := map.entries.map (·.1)

def values (map : SortedMap κ α) : List α := map.entries.map (·.2)

def filter (map : SortedMap κ α) (keep : κ → α → Bool) : SortedMap κ α :=
  ⟨map.entries.filter fun entry => keep entry.1 entry.2, map.sorted.filter _⟩

def mapValues {β : Type} (map : SortedMap κ α) (change : α → β) : SortedMap κ β :=
  ⟨map.entries.map fun entry => (entry.1, change entry.2),
    List.pairwise_map.mpr map.sorted⟩

@[simp] theorem find?_empty (key : κ) : (∅ : SortedMap κ α).find? key = none := rfl

theorem mem_insertEntry {key : κ} {value : α} {entry : κ × α} {entries : List (κ × α)}
    (member : entry ∈ insertEntry key value entries) : entry = (key, value) ∨ entry ∈ entries := by
  induction entries with
  | nil => simpa [insertEntry] using member
  | cons head rest ih =>
    unfold insertEntry at member
    split at member <;> grind

theorem sorted_insertEntry [Std.TransOrd κ] [Std.LawfulEqOrd κ] {entries : List (κ × α)}
    (sorted : entries.Pairwise fun a b => compare a.1 b.1 = .lt) (key : κ) (value : α) :
    (insertEntry key value entries).Pairwise fun a b => compare a.1 b.1 = .lt := by
  induction entries with
  | nil => simp [insertEntry]
  | cons head rest ih =>
    obtain ⟨first, later⟩ := List.pairwise_cons.mp sorted
    unfold insertEntry
    split
    case h_1 before =>
      refine List.pairwise_cons.mpr ⟨fun entry member => ?_, sorted⟩
      rcases List.mem_cons.mp member with rfl | member
      · exact before
      · exact Std.TransCmp.lt_trans before (first entry member)
    case h_2 same =>
      have same := Std.LawfulEqOrd.eq_of_compare same
      exact List.pairwise_cons.mpr ⟨fun entry member => same ▸ first entry member, later⟩
    case h_3 after =>
      refine List.pairwise_cons.mpr ⟨fun entry member => ?_, ih later⟩
      rcases mem_insertEntry member with rfl | member
      · exact Std.OrientedCmp.lt_of_gt after
      · exact first entry member

variable [Std.TransOrd κ] [Std.LawfulEqOrd κ]

def insert (map : SortedMap κ α) (key : κ) (value : α) : SortedMap κ α :=
  ⟨insertEntry key value map.entries, sorted_insertEntry map.sorted key value⟩

/-- The map of a list of entries; of two entries with one key the later one stays. -/
def ofList (entries : List (κ × α)) : SortedMap κ α :=
  entries.foldl (fun map entry => map.insert entry.1 entry.2) ∅

omit [Std.TransOrd κ] in
private theorem mem_of_valueIn? {key : κ} {value : α}
    {entries : List (κ × α)} (found : valueIn? key entries = some value) :
    (key, value) ∈ entries := by
  induction entries with
  | nil => simp [valueIn?] at found
  | cons head rest ih =>
    unfold valueIn? at found
    split at found
    case isTrue same =>
      cases found
      rw [Std.LawfulEqOrd.eq_of_compare same]
      exact List.mem_cons_self ..
    case isFalse => exact List.mem_cons_of_mem _ (ih found)

omit [Std.TransOrd κ] in
theorem mem_keys_of_find? {map : SortedMap κ α} {key : κ} {value : α}
    (found : map.find? key = some value) : key ∈ map.keys :=
  List.mem_map.mpr ⟨_, mem_of_valueIn? found, rfl⟩

omit [Std.TransOrd κ] in
private theorem valueIn?_insertEntry_self (key : κ) (value : α) (entries : List (κ × α)) :
    valueIn? key (insertEntry key value entries) = some value := by
  induction entries with
  | nil => simp [insertEntry, valueIn?, Std.ReflOrd.compare_self]
  | cons head rest ih =>
    unfold insertEntry
    split <;> simp_all [valueIn?, Std.ReflOrd.compare_self]

@[simp] theorem find?_insert_self (map : SortedMap κ α) (key : κ) (value : α) :
    (map.insert key value).find? key = some value :=
  valueIn?_insertEntry_self key value map.entries

omit [Std.TransOrd κ] in
private theorem valueIn?_insertEntry_of_ne {key other : κ} (distinct : other ≠ key) (value : α)
    (entries : List (κ × α)) :
    valueIn? other (insertEntry key value entries) = valueIn? other entries := by
  have apart : compare other key ≠ .eq := fun same => distinct (Std.LawfulEqOrd.eq_of_compare same)
  induction entries with
  | nil => simp [insertEntry, valueIn?, apart]
  | cons head rest ih =>
    unfold insertEntry
    split
    case h_1 => simp [valueIn?, apart]
    case h_2 same =>
      have same := Std.LawfulEqOrd.eq_of_compare same
      simp [valueIn?, ← same, apart]
    case h_3 => simp [valueIn?, ih]

theorem find?_insert_of_ne (map : SortedMap κ α) {key other : κ} (distinct : other ≠ key)
    (value : α) : (map.insert key value).find? other = map.find? other :=
  valueIn?_insertEntry_of_ne distinct value map.entries

omit [Std.TransOrd κ] [Std.LawfulEqOrd κ] in
private theorem valueIn?_eq_none {key : κ} {entries : List (κ × α)}
    (first : ∀ entry ∈ entries, compare key entry.1 = .lt) : valueIn? key entries = none := by
  induction entries with
  | nil => rfl
  | cons head rest ih =>
    have before := first head (List.mem_cons_self ..)
    simp [valueIn?, before, ih fun entry member => first entry (List.mem_cons_of_mem _ member)]

private theorem valueIn?_ext {left right : List (κ × α)}
    (leftSorted : left.Pairwise fun a b => compare a.1 b.1 = .lt)
    (rightSorted : right.Pairwise fun a b => compare a.1 b.1 = .lt)
    (same : ∀ key, valueIn? key left = valueIn? key right) : left = right := by
  induction left generalizing right with
  | nil =>
    cases right with
    | nil => rfl
    | cons head rest => simpa [valueIn?, Std.ReflOrd.compare_self] using same head.1
  | cons head rest ih =>
    obtain ⟨first, later⟩ := List.pairwise_cons.mp leftSorted
    cases right with
    | nil => simpa [valueIn?, Std.ReflOrd.compare_self] using same head.1
    | cons head' rest' =>
      obtain ⟨first', later'⟩ := List.pairwise_cons.mp rightSorted
      have keyEq : head.1 = head'.1 := by
        cases order : compare head.1 head'.1 with
        | eq => exact Std.LawfulEqOrd.eq_of_compare order
        | lt =>
          have absent : valueIn? head.1 (head' :: rest') = none :=
            valueIn?_eq_none fun entry member => by
              rcases List.mem_cons.mp member with rfl | member
              · exact order
              · exact Std.TransCmp.lt_trans order (first' entry member)
          have present := same head.1
          rw [absent] at present
          simp [valueIn?, Std.ReflOrd.compare_self] at present
        | gt =>
          have order := Std.OrientedCmp.lt_of_gt order
          have absent : valueIn? head'.1 (head :: rest) = none :=
            valueIn?_eq_none fun entry member => by
              rcases List.mem_cons.mp member with rfl | member
              · exact order
              · exact Std.TransCmp.lt_trans order (first entry member)
          have present := same head'.1
          rw [absent] at present
          simp [valueIn?, Std.ReflOrd.compare_self] at present
      have valueEq : head.2 = head'.2 := by
        have present := same head.1
        simpa [valueIn?, keyEq, Std.ReflOrd.compare_self] using present
      have headEq : head = head' := Prod.ext keyEq valueEq
      subst headEq
      congr 1
      refine ih later later' fun key => ?_
      by_cases isHead : compare key head.1 = .eq
      · have isHead := Std.LawfulEqOrd.eq_of_compare isHead
        rw [isHead, valueIn?_eq_none first, valueIn?_eq_none first']
      · simpa [valueIn?, isHead] using same key

/-- A map is determined by its look-ups. -/
theorem ext_find? {left right : SortedMap κ α} (same : ∀ key, left.find? key = right.find? key) :
    left = right := by
  have entriesEq := valueIn?_ext left.sorted right.sorted same
  cases left; cases right; cases entriesEq; rfl

end SortedMap

namespace SortedSet

variable {κ : Type} [Ord κ] [Std.TransOrd κ] [Std.LawfulEqOrd κ]

/-- The set with the members of `members` added. -/
def insertAll (set : SortedSet κ) (members : List κ) : SortedSet κ :=
  members.foldl (fun set member => SortedMap.insert set member ()) set

end SortedSet

end DoubleEntry
