import DoubleEntry.Files.Access
import DoubleEntry.Proofs.Files.Paths
import DoubleEntry.Proofs.SortedMap

/-! A directory as a file system of its own. What a path names that goes on from the directory, and
never up, is what the rest of the path names there. -/

namespace DoubleEntry

namespace Place

/-- What leads from a place to another that is below it. -/
def below? (place inner : Place) : Option Place :=
  if place.isPrefixOf inner && place != inner then some (inner.drop place.length) else none

theorem below?_eq_some_iff {place inner rest : Place} :
    place.below? inner = some rest ↔ inner = place ++ rest ∧ rest ≠ [] := by
  rw [below?]
  constructor
  · intro found
    split at found
    case isTrue lower =>
      rw [Bool.and_eq_true, List.isPrefixOf_iff_prefix, bne_iff_ne] at lower
      obtain ⟨⟨more, rfl⟩, other⟩ := lower
      obtain rfl : more = rest := by simpa using found
      refine ⟨rfl, ?_⟩
      rintro rfl
      exact other (List.append_nil place).symm
    case isFalse => cases found
  · rintro ⟨rfl, nonempty⟩
    simp [List.isPrefixOf_iff_prefix, nonempty]

theorem below?_append (place more inner : Place) :
    below? (place ++ more) inner = (place.below? inner).bind more.below? := by
  ext rest
  rw [below?_eq_some_iff, Option.bind_eq_some_iff]
  constructor
  · rintro ⟨rfl, nonempty⟩
    exact ⟨more ++ rest, below?_eq_some_iff.mpr ⟨List.append_assoc .., by simp [nonempty]⟩,
      below?_eq_some_iff.mpr ⟨rfl, nonempty⟩⟩
  · rintro ⟨between, lower, later⟩
    obtain ⟨rfl, -⟩ := below?_eq_some_iff.mp lower
    obtain ⟨rfl, nonempty⟩ := below?_eq_some_iff.mp later
    exact ⟨(List.append_assoc ..).symm, nonempty⟩

theorem compare_append (place first second : Place) :
    compare (place ++ first) (place ++ second) = compare first second :=
  compareLex_append_left (fun _ => Std.ReflOrd.compare_self) place first second

end Place

namespace FileSystem

variable {fs : FileSystem} {place : Place}

/-- What a directory holds, as a file system of which it is the root. -/
def under (fs : FileSystem) (place : Place) : FileSystem where
  entries :=
    { entries := fs.entries.entries.filterMap fun entry =>
        (place.below? entry.1).map (·, entry.2)
      sorted := by
        refine List.pairwise_filterMap.mpr (fs.entries.sorted.imp ?_)
        intro first second less first' lower second' lower'
        obtain ⟨rest, below, rfl⟩ := Option.map_eq_some_iff.mp lower
        obtain ⟨rest', below', rfl⟩ := Option.map_eq_some_iff.mp lower'
        rw [(Place.below?_eq_some_iff.mp below).1, (Place.below?_eq_some_iff.mp below').1,
          Place.compare_append] at less
        exact less }
  workDir := []

theorem find?_under (fs : FileSystem) (place : Place) {rest : Place} (nonempty : rest ≠ []) :
    (fs.under place).entries.find? rest = fs.entries.find? (place ++ rest) := by
  ext entry
  rw [← SortedMap.mem_entries_iff, ← SortedMap.mem_entries_iff]
  simp only [under, List.mem_filterMap, Option.map_eq_some_iff, Place.below?_eq_some_iff]
  constructor
  · rintro ⟨⟨inner, _⟩, member, rest', ⟨rfl, -⟩, same⟩
    cases same
    exact member
  · intro member
    exact ⟨_, member, rest, ⟨rfl, nonempty⟩, rfl⟩

theorem below_under (fs : FileSystem) (place rest : Place) :
    (fs.under place).below rest = fs.below (place ++ rest) := by
  have keys : (fs.under place).entries.keys = fs.entries.keys.filterMap place.below? := by
    simp [under, SortedMap.keys, List.map_filterMap, List.filterMap_map, Function.comp_def]
  change List.filterMap rest.below? _ = List.filterMap (Place.below? (place ++ rest)) _
  rw [keys, List.filterMap_filterMap]
  exact List.filterMap_congr fun inner _ => (Place.below?_append place rest inner).symm

theorem children_under (fs : FileSystem) (place rest : Place) :
    (fs.under place).children rest = fs.children (place ++ rest) := by
  rw [children, children, below_under]

/-- The place is that of a directory that its path leads to. -/
structure HasDirectory (fs : FileSystem) (place : Place) : Prop where
  names : ∀ name ∈ place, IsName name
  reached : place.foldlM fs.follow [] = .ok place
  directory : fs.entryAt? place = some .directory

theorem hasDirectory_root (fs : FileSystem) : fs.HasDirectory [] :=
  ⟨fun _ member => absurd member List.not_mem_nil, rfl, rfl⟩

theorem follow_name {name : String} (named : IsName name) {next : Place}
    (followed : fs.follow place name = .ok next) :
    next = place ++ [name] ∧ fs.entryAt? place = some .directory := by
  rw [follow] at followed
  split at followed
  · cases followed
  · cases followed
  case h_3 directory =>
    simp only [named.1, Bool.not_true, Bool.false_eq_true, if_false,
      beq_eq_false_iff_ne.mpr named.2.1] at followed
    split at followed
    · exact ⟨(Except.ok.inj followed).symm, directory⟩
    · cases followed

theorem foldlM_follow_names {names : List String} (named : ∀ name ∈ names, IsName name)
    {last : Place} (followed : names.foldlM fs.follow place = .ok last) :
    last = place ++ names := by
  induction names generalizing place with
  | nil => simpa using (Except.ok.inj followed).symm
  | cons name names ih =>
    rw [List.forall_mem_cons] at named
    rw [List.foldlM_cons] at followed
    cases first : fs.follow place name with
    | error fault =>
      rw [first] at followed
      cases followed
    | ok next =>
      rw [first] at followed
      have later := ih named.2 followed
      rw [(follow_name named.1 first).1] at later
      simpa using later

theorem HasDirectory.of_append {names : List String} (there : fs.HasDirectory (place ++ names)) :
    fs.HasDirectory place := by
  obtain ⟨named, reached, directory⟩ := there
  rw [List.forall_mem_append] at named
  rw [List.foldlM_append] at reached
  cases first : place.foldlM fs.follow [] with
  | error fault =>
    rw [first] at reached
    cases reached
  | ok next =>
    rw [first] at reached
    obtain rfl : next = place := foldlM_follow_names named.1 first
    refine ⟨named.1, first, ?_⟩
    cases names with
    | nil => simpa using directory
    | cons name names =>
      change (name :: names).foldlM fs.follow next = _ at reached
      rw [List.foldlM_cons] at reached
      cases second : fs.follow next name with
      | error fault =>
        rw [second] at reached
        cases reached
      | ok => exact (follow_name (named.2 name (by simp)) second).2

theorem HasDirectory.entryAt?_under (there : fs.HasDirectory place) (rest : Place) :
    (fs.under place).entryAt? rest = fs.entryAt? (place ++ rest) := by
  cases rest with
  | nil => rw [List.append_nil, there.directory]; rfl
  | cons name rest =>
    have nonempty : (place ++ name :: rest).isEmpty = false := by simp
    rw [entryAt?, entryAt?, nonempty, find?_under fs place (by simp)]
    rfl

theorem HasDirectory.follow_under (there : fs.HasDirectory place) (rest : Place) {part : String}
    (inside : part ≠ "..") :
    fs.follow (place ++ rest) part = ((fs.under place).follow rest part).map (place ++ ·) := by
  unfold follow
  rw [there.entryAt?_under]
  cases fs.entryAt? (place ++ rest) with
  | none => rfl
  | some entry =>
    cases entry with
    | file => rfl
    | directory =>
      simp only [beq_eq_false_iff_ne.mpr inside, there.entryAt?_under, ← List.append_assoc]
      split
      · rfl
      · simp
        split <;> rfl

theorem HasDirectory.foldlM_under (there : fs.HasDirectory place) {parts : List String}
    (inside : ".." ∉ parts) (rest : Place) :
    parts.foldlM fs.follow (place ++ rest) =
      (parts.foldlM (fs.under place).follow rest).map (place ++ ·) := by
  induction parts generalizing rest with
  | nil => rfl
  | cons part parts ih =>
    rw [List.mem_cons, not_or] at inside
    rw [List.foldlM_cons, List.foldlM_cons, there.follow_under rest (Ne.symm inside.1)]
    cases (fs.under place).follow rest part with
    | error => rfl
    | ok next => exact ih inside.2 next

theorem follow_empty (directory : fs.entryAt? place = some .directory) :
    fs.follow place "" = .ok place := by
  rw [follow, directory]
  rfl

theorem HasDirectory.foldlM_parts_empty (there : fs.HasDirectory place) :
    (Path.parts "").foldlM fs.follow place = .ok place := by
  rw [show Path.parts "" = [""] from rfl, List.foldlM_cons, follow_empty there.directory]
  rfl

/-- What names something in a directory is followed from there. -/
theorem HasDirectory.resolve_along (there : fs.HasDirectory place) (tail : String) :
    fs.resolve (place.along tail) = (Path.parts tail).foldlM fs.follow place := by
  have absolute := place.isAbsolute_along tail
  have nonempty : (place.along tail).isEmpty = false := by
    simpa using Path.ne_empty_of_isAbsolute absolute
  have start : ("" :: place).foldlM fs.follow [] = .ok place := by
    rw [List.foldlM_cons, follow_empty rfl]
    exact there.reached
  rw [resolve, nonempty, absolute]
  simp only [Bool.false_eq_true, if_false, if_true]
  by_cases bare : tail = ""
  · subst bare
    rw [there.foldlM_parts_empty, Place.along_empty]
    by_cases root : place = []
    · subst root
      rfl
    · rw [Place.path_of_ne root, Place.parts_text there.names, start]
  · rw [Place.along_of_ne _ bare, Path.parts_slash, Place.parts_text there.names,
      List.foldlM_append, start]
    rfl

/-- What is followed without going up is there. -/
theorem isSome_of_foldlM_follow {parts : List String} (inside : ".." ∉ parts) {last : Place}
    (start : (fs.entryAt? place).isSome = true)
    (followed : parts.foldlM fs.follow place = .ok last) : (fs.entryAt? last).isSome = true := by
  induction parts generalizing place with
  | nil => exact Except.ok.inj followed ▸ start
  | cons part parts ih =>
    rw [List.mem_cons, not_or] at inside
    rw [List.foldlM_cons] at followed
    cases first : fs.follow place part with
    | error fault =>
      rw [first] at followed
      cases followed
    | ok next =>
      rw [first] at followed
      refine ih inside.2 ?_ followed
      rw [follow] at first
      split at first
      · cases first
      · cases first
      · simp only [beq_eq_false_iff_ne.mpr (Ne.symm inside.1), Bool.false_eq_true,
          if_false] at first
        split at first
        · cases first
          exact start
        · split at first
          case isTrue there =>
            cases first
            exact there
          case isFalse => cases first

theorem HasDirectory.entryOf?_path (there : fs.HasDirectory place) :
    fs.entryOf? place.path = some .directory := by
  rw [entryOf?, ← Place.along_empty, there.resolve_along, there.foldlM_parts_empty]
  exact there.directory

/-- A path that does not lead up names the same thing in the directory alone. -/
theorem HasDirectory.resolve_under (there : fs.HasDirectory place) {tail : String}
    (inside : ".." ∉ Path.parts tail) :
    fs.resolve (place.along tail) =
      ((fs.under place).resolve (Place.along [] tail)).map (place ++ ·) := by
  have within := there.foldlM_under inside []
  rw [List.append_nil] at within
  rw [there.resolve_along, (fs.under place).hasDirectory_root.resolve_along, within]

theorem HasDirectory.entryOf?_under (there : fs.HasDirectory place) {tail : String}
    (inside : ".." ∉ Path.parts tail) :
    fs.entryOf? (place.along tail) = (fs.under place).entryOf? (Place.along [] tail) := by
  rw [entryOf?, entryOf?, there.resolve_under inside]
  cases (fs.under place).resolve (Place.along [] tail) with
  | error => rfl
  | ok rest => exact (there.entryAt?_under rest).symm

theorem HasDirectory.isDirectory_under (there : fs.HasDirectory place) {tail : String}
    (inside : ".." ∉ Path.parts tail) :
    fs.isDirectory (place.along tail) = (fs.under place).isDirectory (Place.along [] tail) := by
  rw [isDirectory, isDirectory, there.entryOf?_under inside]

theorem HasDirectory.isFile_under (there : fs.HasDirectory place) {tail : String}
    (inside : ".." ∉ Path.parts tail) :
    fs.isFile (place.along tail) = (fs.under place).isFile (Place.along [] tail) := by
  rw [isFile, isFile, there.entryOf?_under inside]

theorem HasDirectory.linesAt_under (there : fs.HasDirectory place) (rest : Place) :
    (fs.under place).linesAt rest = fs.linesAt (place ++ rest) := by
  rw [linesAt, linesAt, there.entryAt?_under]

end FileSystem

end DoubleEntry
