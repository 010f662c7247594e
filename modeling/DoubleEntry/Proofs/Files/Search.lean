import DoubleEntry.Proofs.Files.Patterns

/-! A search that stays inside of a directory. It finds what a search in the directory alone finds,
with the path of the directory in front. -/

namespace DoubleEntry

/-- The tail of a path that does not lead up. -/
structure Inside (tail : String) : Prop where
  relative : Path.isAbsolute tail = false
  stays : ".." ∉ Path.parts tail

theorem IsName.inside {name : String} (named : IsName name) : Inside name := by
  refine ⟨named.isAbsolute_eq, ?_⟩
  rw [Path.parts_of_not_mem named.2.2, List.mem_singleton]
  exact Ne.symm named.2.1

theorem inside_empty : Inside "" := ⟨rfl, by decide⟩

theorem isAbsolute_join {dir target : String} (relative : Path.isAbsolute dir = false)
    (further : Path.isAbsolute target = false) :
    Path.isAbsolute (Path.join dir target) = false := by
  unfold Path.join
  split
  · exact further
  case isFalse some_ =>
    have nonempty : dir ≠ "" := by
      rintro rfl
      simp at some_
    split
    · rw [Path.isAbsolute_append nonempty, relative]
    · rw [String.append_assoc, Path.isAbsolute_append nonempty, relative]

theorem Inside.join {tail target : String} (inside : Inside tail) (further : Inside target) :
    Inside (Path.join tail target) := by
  refine ⟨isAbsolute_join inside.relative further.relative, fun member => ?_⟩
  exact (Path.mem_parts_join member).elim inside.stays further.stays

theorem join_ne_empty {tail target : String} (some_ : tail ≠ "" ∨ target ≠ "") :
    Path.join tail target ≠ "" := by
  unfold Path.join
  split
  case isTrue bare =>
    intro empty
    subst empty
    simp [Path.isAbsolute] at bare
    exact some_.elim (· bare) (· rfl)
  case isFalse other =>
    have nonempty : tail ≠ "" := by
      rintro rfl
      simp at other
    split <;> simp [nonempty]

section Names

variable {names : List String} (named : ∀ name ∈ names, IsName name)

include named

theorem parts_intercalate (some_ : names ≠ []) : Path.parts ("/".intercalate names) = names := by
  have whole : ∀ part ∈ names.map String.toList, '/' ∉ part :=
    List.forall_mem_map.mpr fun name member => (named name member).2.2
  rw [Path.parts, String.toList_intercalate]
  change ((['/'].intercalate _).splitOn '/').map _ = _
  rw [List.splitOn_intercalate '/' whole (by simpa using some_)]
  simp

/-- Names with slashes between them lead from a directory to something below it. -/
theorem inside_intercalate : Inside ("/".intercalate names) := by
  by_cases none : names = []
  · subst none
    exact inside_empty
  · have parts := parts_intercalate named none
    constructor
    · by_contra absolute
      obtain ⟨later, split⟩ := Path.exists_parts_of_isAbsolute (Bool.not_eq_false _ ▸ absolute)
      rw [parts] at split
      exact (named "" (by simp [split])).ne_empty rfl
    · rw [parts]
      exact fun member => (named ".." member).2.1 rfl

theorem intercalate_ne_empty (some_ : names ≠ []) : "/".intercalate names ≠ "" := by
  have parts := parts_intercalate named some_
  intro empty
  rw [empty] at parts
  exact (named "" (by simp [← parts, Path.parts])).ne_empty rfl

end Names

namespace FileSystem

/-- Everything has a name that can be one. -/
def WellNamed (fs : FileSystem) : Prop := ∀ place ∈ fs.places, ∀ name ∈ place, IsName name

instance (fs : FileSystem) : Decidable fs.WellNamed := by
  unfold WellNamed
  infer_instance

variable {fs : FileSystem} {place : Place}

/-- What is found below a directory has a name that can be one. -/
theorem WellNamed.of_resolve_under (wellNamed : fs.WellNamed) (there : fs.HasDirectory place)
    {tail : String} (inside : ".." ∉ Path.parts tail) {here : Place}
    (located : (fs.under place).resolve (Place.along [] tail) = .ok here) :
    ∀ name ∈ here, IsName name := by
  have root := (fs.under place).hasDirectory_root
  rw [root.resolve_along] at located
  have found := isSome_of_foldlM_follow inside rfl located
  rw [there.entryAt?_under, Option.isSome_iff_exists] at found
  obtain ⟨entry, found⟩ := found
  exact fun name member =>
    wellNamed _ (mem_places_of_entryAt? found) name (List.mem_append_right _ member)

theorem WellNamed.of_mem_below (wellNamed : fs.WellNamed) {inner : Place}
    (member : inner ∈ fs.below place) : (∀ name ∈ inner, IsName name) ∧ inner ≠ [] := by
  obtain ⟨whole, known, lower⟩ := List.mem_filterMap.mp member
  obtain ⟨rfl, nonempty⟩ := Place.below?_eq_some_iff.mp lower
  refine ⟨fun name inside => ?_, nonempty⟩
  exact wellNamed _ (List.mem_cons_of_mem _ known) name (List.mem_append_right _ inside)

theorem WellNamed.of_mem_children (wellNamed : fs.WellNamed) {name : String}
    (member : name ∈ fs.children place) : IsName name := by
  obtain ⟨inner, below, single⟩ := List.mem_filterMap.mp member
  split at single
  · cases single
    exact (wellNamed.of_mem_below below).1 name (by simp)
  · cases single

end FileSystem

namespace Wildcard

/-- Whether a part of a pattern may stand for the directory above. -/
def leadsUp (part : List Token) : Bool := part.head? == some (.char '.') && stands part "..".toList

/-- The same tails found from two directories on. -/
def SameTails (place place' : Place) (found found' : List String) : Prop :=
  ∃ tails : List String, (∀ tail ∈ tails, Inside tail) ∧ found = tails.map place.along ∧
    found' = tails.map place'.along

namespace SameTails

variable {place place' : Place}

theorem nil : SameTails place place' [] [] := ⟨[], nofun, rfl, rfl⟩

theorem single {tail : String} (inside : Inside tail) :
    SameTails place place' [place.along tail] [place'.along tail] :=
  ⟨[tail], by simpa using inside, rfl, rfl⟩

theorem append {found found' later later' : List String}
    (first : SameTails place place' found found') (second : SameTails place place' later later') :
    SameTails place place' (found ++ later) (found' ++ later') := by
  obtain ⟨tails, inside, rfl, rfl⟩ := first
  obtain ⟨more, inside', rfl, rfl⟩ := second
  exact ⟨tails ++ more, List.forall_mem_append.mpr ⟨inside, inside'⟩, List.map_append.symm,
    List.map_append.symm⟩

theorem flatMap {α : Type} {items : List α} {find find' : α → List String}
    (each : ∀ item ∈ items, SameTails place place' (find item) (find' item)) :
    SameTails place place' (items.flatMap find) (items.flatMap find') := by
  induction items with
  | nil => exact nil
  | cons item items ih =>
    rw [List.forall_mem_cons] at each
    exact append each.1 (ih each.2)

theorem guarded (guard : Bool) {found found' : List String}
    (same : SameTails place place' found found') :
    SameTails place place' (if guard then found else []) (if guard then found' else []) := by
  cases guard with
  | true => exact same
  | false => exact nil

end SameTails

variable {fs : FileSystem} {place : Place}

/-- A part of a pattern that stands for names and not for the directory above. -/
structure Confined (part : List Token) : Prop where
  noSlash : .char '/' ∉ part
  stays : leadsUp part = false

theorem Confined.inside_of_literal {name : List Char} (confined : Confined (name.map .char)) :
    Inside (String.ofList name) := by
  have whole : '/' ∉ (String.ofList name).toList := by
    intro member
    rw [String.toList_ofList] at member
    exact confined.noSlash (List.mem_map.mpr ⟨_, member, rfl⟩)
  refine ⟨?_, ?_⟩
  · rw [Path.isAbsolute, beq_eq_false_iff_ne]
    exact fun first => whole (List.mem_of_mem_head? first)
  · rw [Path.parts_of_not_mem whole, List.mem_singleton]
    intro up
    have stays := confined.stays
    have dots : name = "..".toList := by rw [up, String.toList_ofList]
    rw [dots] at stays
    revert stays
    decide

theorem child_along (names : ∀ name ∈ place, IsName name) {tail target : String}
    (relative : Path.isAbsolute target = false) (some_ : tail ≠ "" ∨ target ≠ "") :
    child (place.along tail) target = place.along (Path.join tail target) := by
  rw [child_of_isAbsolute (place.isAbsolute_along tail), Place.join_along names relative some_]

/-- The rest of a pattern finds the same from any tail on, in the directory alone as well. -/
def SearchesAlike (fs : FileSystem) (place : Place) (onlyDirectories : Bool)
    (parts : List (List Token)) : Prop :=
  ∀ tail, Inside tail → (tail = "" → parts.head? ≠ some []) →
    SameTails place [] (search fs onlyDirectories parts (place.along tail))
      (search (fs.under place) onlyDirectories parts (Place.along [] tail))

section Steps

variable {onlyDirectories : Bool} {part : List Token} {rest : List (List Token)} {tail : String}
  (there : fs.HasDirectory place) (wellNamed : fs.WellNamed) (inside : Inside tail)

include there inside

/-- One step further below the directory. -/
theorem SearchesAlike.below (alike : SearchesAlike fs place onlyDirectories rest) {target : String}
    (further : Inside target) (some_ : tail ≠ "" ∨ target ≠ "") :
    SameTails place [] (search fs onlyDirectories rest (child (place.along tail) target))
      (search (fs.under place) onlyDirectories rest (child (Place.along [] tail) target)) := by
  have root := (fs.under place).hasDirectory_root
  rw [child_along there.names further.relative some_, child_along root.names further.relative some_]
  exact alike _ (inside.join further) fun empty => absurd empty (join_ne_empty some_)

theorem SearchesAlike.literal {name : List Char} (confined : Confined (name.map .char))
    (start : tail = "" → name ≠ []) (alike : SearchesAlike fs place onlyDirectories rest) :
    SameTails place []
      (search fs onlyDirectories (name.map .char :: rest) (place.along tail))
      (search (fs.under place) onlyDirectories (name.map .char :: rest) (Place.along [] tail)) := by
  have root := (fs.under place).hasDirectory_root
  have named := confined.inside_of_literal
  have some_ : tail ≠ "" ∨ String.ofList name ≠ "" := by
    by_contra neither
    rw [not_or, not_not, not_not, String.ofList_eq_empty_iff] at neither
    exact start neither.1 neither.2
  have found := (inside.join named).stays
  rw [search, search, literal?_map_char]
  simp only [there.isDirectory_under inside.stays, child_along there.names named.relative some_,
    child_along root.names named.relative some_, there.entryOf?_under found]
  refine .guarded _ ?_
  exact alike _ (inside.join named) fun empty => absurd empty (join_ne_empty some_)

include wellNamed

/-- A part with wildcards, other than `**`. -/
theorem SearchesAlike.wild (confined : Confined part) (wild : literal? part = none)
    (shallow : (part == [.anyDepth]) = false)
    (alike : SearchesAlike fs place onlyDirectories rest) :
    SameTails place [] (search fs onlyDirectories (part :: rest) (place.along tail))
      (search (fs.under place) onlyDirectories (part :: rest) (Place.along [] tail)) := by
  have noUp := confined.stays
  rw [search, search, wild, there.resolve_under inside.stays]
  cases (fs.under place).resolve (Place.along [] tail) with
  | error fault => exact .nil
  | ok here =>
    simp only [Except.map, ← there.entryAt?_under, ← FileSystem.children_under, shallow,
      Bool.false_eq_true, if_false]
    split
    · exact .nil
    · refine .append (.flatMap fun name member => ?_) (.flatMap fun name member => ?_)
      · have child := (List.mem_filter.mp member).1
        rw [FileSystem.children_under] at child
        have named := wellNamed.of_mem_children child
        exact alike.below there inside named.inside (.inr named.ne_empty)
      · -- The part stands for no name that leads up, so of the two special names one is left.
        obtain rfl : name = "." := by
          obtain ⟨special, stood⟩ := List.mem_filter.mp member
          split at special
          case isTrue dot =>
            rcases List.mem_cons.mp special with rfl | up
            · rfl
            · rw [List.mem_singleton] at up
              subst up
              rw [leadsUp, dot, stood] at noUp
              cases noUp
          case isFalse => cases special
        have here : Inside "." := ⟨rfl, by decide⟩
        have step := alike.below there inside here (.inr (by decide))
        rwa [child_of_isAbsolute (place.isAbsolute_along tail),
          child_of_isAbsolute (Place.isAbsolute_along [] tail)] at step

/-- A part `**`, which stands for directories at any depth. -/
theorem SearchesAlike.deep (alike : SearchesAlike fs place onlyDirectories rest)
    (later : SearchesAlike fs place onlyDirectories rest.tail) :
    SameTails place [] (search fs onlyDirectories ([.anyDepth] :: rest) (place.along tail))
      (search (fs.under place) onlyDirectories ([.anyDepth] :: rest) (Place.along [] tail)) := by
  have root := (fs.under place).hasDirectory_root
  have wild : literal? [.anyDepth] = none := rfl
  rw [search, search, wild, there.resolve_under inside.stays]
  cases (fs.under place).resolve (Place.along [] tail) with
  | error fault => exact .nil
  | ok here =>
    have lower {inner : Place} (member : inner ∈ (fs.under place).below here) :
        Inside ("/".intercalate inner) ∧ "/".intercalate inner ≠ "" := by
      rw [FileSystem.below_under] at member
      obtain ⟨named, some_⟩ := wellNamed.of_mem_below member
      exact ⟨inside_intercalate named, intercalate_ne_empty named some_⟩
    simp only [Except.map, ← there.entryAt?_under, ← FileSystem.below_under, beq_self_eq_true,
      if_true]
    split
    · exact .nil
    · cases rest with
      | nil =>
        simp only [List.filterMap_eq_flatMap_toList]
        refine .flatMap fun inner member => ?_
        obtain ⟨further, some_⟩ := lower member
        have within := inside.join further
        rw [child_along there.names further.relative (.inr some_),
          child_along root.names further.relative (.inr some_),
          there.isDirectory_under within.stays]
        split
        · exact .single within
        · exact .nil
      | cons last rest' =>
        dsimp only
        split
        case isTrue again =>
          obtain rfl := beq_iff_eq.mp again
          exact alike tail inside (by simp)
        case isFalse =>
          refine .flatMap fun inner member => .guarded _ ?_
          obtain ⟨further, some_⟩ := lower member
          exact later.below there inside further (.inr some_)

end Steps

/-- What a search finds from a directory on without leading up, it finds in the directory alone. -/
theorem searchesAlike (there : fs.HasDirectory place) (wellNamed : fs.WellNamed)
    (onlyDirectories : Bool) (parts : List (List Token))
    (confined : ∀ part ∈ parts, Confined part) :
    SearchesAlike fs place onlyDirectories parts := by
  intro tail inside start
  match parts with
  | [] =>
    rw [search, search, there.isDirectory_under inside.stays]
    split
    · exact .nil
    · exact .single inside
  | part :: rest =>
    rw [List.forall_mem_cons] at confined
    have alike := searchesAlike there wellNamed onlyDirectories rest confined.2
    cases plain : literal? part with
    | some name =>
      obtain rfl := literal?_eq_some_iff.mp plain
      exact alike.literal there inside confined.1 (by simpa using start)
    | none =>
      cases depth : part == [.anyDepth] with
      | false => exact alike.wild there wellNamed inside confined.1 plain depth
      | true =>
        obtain rfl := beq_iff_eq.mp depth
        -- A search takes `**` and the part behind it in one step.
        have fewer : rest.tail.length ≤ rest.length := by simp
        have later := searchesAlike there wellNamed onlyDirectories rest.tail
          fun part member => confined.2 part (List.mem_of_mem_tail member)
        exact alike.deep there wellNamed inside later
termination_by parts.length

end Wildcard

end DoubleEntry
