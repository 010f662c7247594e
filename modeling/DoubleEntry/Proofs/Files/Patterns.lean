import DoubleEntry.Proofs.Files.Subtree

/-! Patterns that go on from the path of a directory. If no character of that path is special in a
pattern, they stand for what is found from the directory on, and without leading up, for what is
found in the directory alone. -/

namespace DoubleEntry

namespace Wildcard

/-- Whether a character has a meaning of its own in a pattern. -/
def isSpecial (c : Char) : Bool := c == '*' || c == '?' || c == '['

/-- A text that stands for itself. -/
def Literal (text : List Char) : Prop := ∀ c ∈ text, isSpecial c = false

instance (text : List Char) : Decidable (Literal text) := List.decidableBAll _ text

theorem tokens?_cons_of_literal {c : Char} (plain : isSpecial c = false) (previous : Option Char)
    (rest : List Char) :
    tokens? previous (c :: rest) = (tokens? (some c) rest).map (.char c :: ·) := by
  simp only [isSpecial, Bool.or_eq_false_iff, beq_eq_false_iff_ne] at plain
  obtain ⟨⟨star, question⟩, bracket⟩ := plain
  rw [tokens?]
  all_goals simp [star, question, bracket]

theorem tokens?_append_of_literal {text : List Char} (plain : Literal text)
    (previous : Option Char) (c : Char) (slash : isSpecial c = false) (rest : List Char) :
    tokens? previous (text ++ c :: rest) =
      (tokens? (some c) rest).map ((text ++ [c]).map .char ++ ·) := by
  induction text generalizing previous with
  | nil => exact tokens?_cons_of_literal slash previous rest
  | cons d text ih =>
    obtain ⟨first, later⟩ := List.forall_mem_cons.mp plain
    rw [List.cons_append, tokens?_cons_of_literal first, ih later, Option.map_map]
    rfl

theorem tokens?_of_literal {text : List Char} (plain : Literal text) (previous : Option Char) :
    tokens? previous text = some (text.map .char) := by
  induction text generalizing previous with
  | nil => rw [tokens?]; rfl
  | cons c text ih =>
    obtain ⟨first, later⟩ := List.forall_mem_cons.mp plain
    rw [tokens?_cons_of_literal first, ih later]
    rfl

/-- A pattern may start behind a slash as it may start by itself. -/
theorem tokens?_slash (text : List Char) : tokens? (some '/') text = tokens? none text := by
  rw [tokens?.eq_def, tokens?.eq_def none]
  rfl

theorem literal?_map_char (name : List Char) : literal? (name.map .char) = some name := by
  induction name with
  | nil => rfl
  | cons c name ih => rw [List.map_cons, literal?, ih]; rfl

theorem literal?_eq_some_iff {part : List Token} {name : List Char} :
    literal? part = some name ↔ part = name.map .char := by
  constructor
  · intro found
    fun_induction literal? part generalizing name with
    | case1 => simp_all
    | case2 c rest ih =>
      obtain ⟨name', later, rfl⟩ := Option.map_eq_some_iff.mp found
      rw [ih later]
      rfl
    | case3 => cases found
  · rintro rfl
    exact literal?_map_char name

theorem mem_of_cutAt {isCut : Char → Bool} {text before after : List Char}
    (cut : Text.cutAt isCut text = some (before, after)) {c : Char} (member : c ∈ after) :
    c ∈ text := by
  unfold Text.cutAt at cut
  split at cut
  · cases cut
  case h_2 found =>
    cases cut
    exact (List.dropWhile_suffix _).subset (found ▸ List.mem_cons_of_mem _ member)

/-- A token for a character is that of a character of the pattern. -/
theorem mem_of_char_mem_tokens? {previous : Option Char} {text : List Char} {tokens : List Token}
    (read : tokens? previous text = some tokens) {c : Char} (member : .char c ∈ tokens) :
    c ∈ text := by
  have behind {token : Token} {rest : List Char} {previous : Option Char} {tokens : List Token}
      (read : (tokens? previous rest).map (token :: ·) = some tokens) (other : token ≠ .char c)
      (member : .char c ∈ tokens)
      (ih : ∀ {tokens}, tokens? previous rest = some tokens → .char c ∈ tokens → c ∈ rest) :
      c ∈ rest := by
    obtain ⟨later, found, rfl⟩ := Option.map_eq_some_iff.mp read
    exact ih found ((List.mem_cons.mp member).resolve_left (Ne.symm other))
  fun_induction tokens? previous text generalizing tokens
  case case1 =>
    cases read
    cases member
  case case3 | case4 | case7 | case9 | case11 | case12 | case14 => cases read
  case case5 =>
    cases read
    simp at member
  case case2 | case6 | case8 =>
    rename_i ih
    have later := behind read nofun member ih
    simp [later]
  case case10 cut _ ih | case13 cut _ ih =>
    have later := mem_of_cutAt cut (behind read nofun member ih)
    simp [later]
  case case15 ih =>
    obtain ⟨later, found, rfl⟩ := Option.map_eq_some_iff.mp read
    rcases List.mem_cons.mp member with same | inside
    · exact List.mem_cons.mpr (.inl (Token.char.inj same))
    · exact List.mem_cons_of_mem _ (ih found inside)

def parts? (pattern : String) : Option (List (List Token)) := do
  let _ ← tokens? none pattern.toList
  (partsOf pattern.toList).mapM (tokens? none)

variable {fs : FileSystem} {place : Place}

theorem partsOf_along (names : ∀ name ∈ place, IsName name) {tail : String} (nonempty : tail ≠ "") :
    partsOf ((place.along tail).toList.drop 1) =
      place.map String.toList ++ partsOf tail.toList := by
  have text : (place.along tail).toList = '/' :: (place.along tail).toList.drop 1 := by
    have absolute := place.isAbsolute_along tail
    rw [Path.isAbsolute, beq_iff_eq] at absolute
    cases along : (place.along tail).toList with
    | nil => simp [along] at absolute
    | cons c rest => simpa [along] using absolute
  have split : ((place.along tail).toList.drop 1).splitOn '/' =
      place.map String.toList ++ tail.toList.splitOn '/' := by
    have parts : Path.parts (place.along tail) = "" :: place ++ Path.parts tail := by
      rw [Place.along_of_ne _ nonempty, Path.parts_slash, Place.parts_text names]
    have lists := congrArg (List.map String.toList) parts
    rw [Path.parts, Path.toList_ofList_comp, text, List.map_append, Path.parts,
      Path.toList_ofList_comp, List.splitOn_cons_eq_if_modifyHead] at lists
    simpa using lists
  have some_ := List.splitOn_ne_nil '/' tail.toList
  rw [partsOf, split, partsOf, List.getLast?_append_of_ne_nil _ some_,
    List.dropLast_append_of_ne_nil some_]
  split <;> rfl

theorem mapM_tokens?_of_literal {names : List (List Char)} (plain : ∀ name ∈ names, Literal name) :
    names.mapM (tokens? none) = some (names.map (List.map .char)) := by
  induction names with
  | nil => rfl
  | cons name names ih =>
    rw [List.forall_mem_cons] at plain
    rw [List.mapM_cons, tokens?_of_literal plain.1, ih plain.2]
    rfl

theorem child_of_isAbsolute {path : String} (absolute : Path.isAbsolute path = true)
    (name : String) : child path name = Path.join path name := by
  have other : Path.orderKey path ≠ Path.orderKey "." := by
    obtain ⟨later, parted⟩ := Path.exists_parts_of_isAbsolute absolute
    have here : Path.orderKey "." = [(1, "")] := by decide
    rw [Path.orderKey_of_parts absolute parted, here]
    simp
  rw [child, if_neg (mt beq_iff_eq.mp other)]

/-- A search that follows the names of a directory goes on from the directory. -/
theorem search_names (onlyDirectories : Bool) {names : List String}
    (there : fs.HasDirectory (place ++ names)) (parts : List (List Token)) :
    search fs onlyDirectories (names.map (fun name => name.toList.map .char) ++ parts) place.path =
      search fs onlyDirectories parts (Place.path (place ++ names)) := by
  induction names generalizing place with
  | nil => rw [List.append_nil, List.map_nil, List.nil_append]
  | cons name names ih =>
    have split : place ++ name :: names = place ++ [name] ++ names := by simp
    rw [split] at there ⊢
    have outer : fs.HasDirectory (place ++ [name]) := there.of_append
    have named : IsName name := outer.names name (by simp)
    have absolute : Path.isAbsolute place.path = true := place.isAbsolute_along ""
    have next : child place.path name = Place.path (place ++ [name]) := by
      rw [Place.path_concat outer.of_append.names named, child_of_isAbsolute absolute]
    have found : (fs.entryOf? (Place.path (place ++ [name]))).isSome = true := by
      rw [outer.entryOf?_path]
      rfl
    have proper : (name == "." || name == "..") = false := by
      have notDot : name ≠ "." := by
        rintro rfl
        cases named.1
      simp [notDot, named.2.1]
    rw [← ih there, List.map_cons, List.cons_append, search, literal?_map_char]
    simp only [String.ofList_toList, next, found, proper, Bool.false_eq_true, if_false, if_true]

/-- A pattern behind a path that is none stands for what is found from the directory on. -/
theorem expand?_along (there : fs.HasDirectory place) (plain : Literal place.text.toList)
    {tail : String} (nonempty : tail ≠ "") :
    expand? fs (place.along tail) = (parts? tail).map fun parts =>
      search fs (tail.toList.getLast? == some '/') parts place.path := by
  have text : (place.along tail).toList = place.text.toList ++ '/' :: tail.toList := by
    rw [Place.along_of_ne _ nonempty]
    simp
  have isPattern : (tokens? none (place.along tail).toList).isSome =
      (tokens? none tail.toList).isSome := by
    rw [text, tokens?_append_of_literal plain none '/' rfl, tokens?_slash, Option.isSome_map]
  have last : (place.along tail).toList.getLast? = tail.toList.getLast? := by
    have some_ := mt String.toList_eq_nil_iff.mp nonempty
    obtain ⟨c, rest, chars⟩ := List.exists_cons_of_ne_nil some_
    rw [text, chars, List.getLast?_append_of_ne_nil _ (List.cons_ne_nil _ _)]
    rfl
  have names : ∀ name ∈ place, Literal name.toList := by
    intro name member c inside
    refine plain c ?_
    simp only [Place.text, String.toList_join, List.mem_flatMap, List.mem_map]
    exact ⟨"/" ++ name, ⟨name, member, rfl⟩, by simp [inside]⟩
  have read : ((place.map String.toList) ++ partsOf tail.toList).mapM (tokens? none) =
      ((partsOf tail.toList).mapM (tokens? none)).map
        (place.map (fun name => name.toList.map .char) ++ ·) := by
    rw [List.mapM_append, mapM_tokens?_of_literal (List.forall_mem_map.mpr names), List.map_map]
    cases (partsOf tail.toList).mapM (tokens? none) <;> rfl
  rw [expand?, parts?]
  simp only [place.isAbsolute_along tail, if_true, partsOf_along there.names nonempty, last, read]
  cases whole : tokens? none (place.along tail).toList with
  | none =>
    rw [whole, Option.isSome_none, eq_comm, Option.isSome_eq_false_iff,
      Option.isNone_iff_eq_none] at isPattern
    rw [isPattern]
    rfl
  | some =>
    rw [whole, Option.isSome_some, eq_comm, Option.isSome_iff_exists] at isPattern
    obtain ⟨tokens, behind⟩ := isPattern
    rw [behind]
    cases (partsOf tail.toList).mapM (tokens? none) with
    | none => rfl
    | some parts =>
      rw [← List.nil_append place] at there
      exact congrArg some (search_names _ there parts)

end Wildcard

end DoubleEntry
