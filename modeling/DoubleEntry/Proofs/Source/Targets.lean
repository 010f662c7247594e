import DoubleEntry.Proofs.Files.Search
import DoubleEntry.Proofs.Source.TextLines

/-! What a target of an `include` line stands for. Without wildcards it is one path; with wildcards,
the files that are found from the directory of the line on. If no character in the path of the
directory is special in a pattern, the files do not depend on what the directory is called. -/

namespace DoubleEntry

namespace Wildcard

def isPattern (text : String) : Bool := text.toList.any fun c => c == '*' || c == '?'

/-- Whether no part of a target leads up, be it written so or by wildcards behind a dot. -/
def staysInside (target : String) : Bool :=
  (partsOf target.toList).all fun part => !(tokens? none part).any leadsUp

theorem eq_nil_of_tokens? {previous : Option Char} {text : List Char}
    (read : tokens? previous text = some []) : text = [] := by
  fun_induction tokens? previous text <;> simp_all

variable {target : String}

theorem partsOf_starts_splitOn (text : List Char) : partsOf text <+: text.splitOn '/' := by
  unfold partsOf
  dsimp only
  split
  · exact List.dropLast_prefix _
  · exact List.prefix_refl _

/-- A part that leads up by itself is one of those that may. -/
theorem leadsUp_of_eq {part : List Char} (up : part = "..".toList) :
    (tokens? none part).any leadsUp = true := by
  subst up
  decide +kernel

theorem inside_of_staysInside (relative : Path.isAbsolute target = false)
    (stays : staysInside target = true) : Inside target := by
  refine ⟨relative, fun member => ?_⟩
  obtain ⟨part, inside, up⟩ := List.mem_map.mp member
  have text : part = "..".toList := by rw [← up, String.toList_ofList]
  have kept : part ∈ partsOf target.toList := by
    unfold partsOf
    dsimp only
    split
    case isTrue ends =>
      obtain ⟨early, split⟩ := List.getLast?_eq_some_iff.mp (beq_iff_eq.mp ends)
      rw [split, List.mem_append, List.mem_singleton] at inside
      rw [split, List.dropLast_concat]
      exact inside.resolve_right fun empty => by simp [empty] at text
    case isFalse => exact inside
  have noUp := List.all_eq_true.mp stays part kept
  rw [leadsUp_of_eq text] at noUp
  cases noUp

theorem mapM_cons_eq_some {α β : Type} {read : α → Option β} {item : α} {items : List α}
    {found : List β} (all : (item :: items).mapM read = some found) :
    ∃ first rest, read item = some first ∧ items.mapM read = some rest ∧ found = first :: rest := by
  rw [List.mapM_cons] at all
  cases head : read item with
  | none => simp [head] at all
  | some first =>
    cases tail : items.mapM read with
    | none => simp [head, tail] at all
    | some rest => exact ⟨first, rest, rfl, rfl, by simpa [head, tail, eq_comm] using all⟩

theorem exists_mem_of_mem_mapM {α β : Type} {read : α → Option β} {items : List α} {found : List β}
    (all : items.mapM read = some found) {value : β} (member : value ∈ found) :
    ∃ item ∈ items, read item = some value := by
  induction items generalizing found with
  | nil =>
    cases all
    cases member
  | cons item items ih =>
    obtain ⟨first, rest, head, tail, rfl⟩ := mapM_cons_eq_some all
    rcases List.mem_cons.mp member with rfl | later
    · exact ⟨item, List.mem_cons_self, head⟩
    · obtain ⟨item', inside, same⟩ := ih tail later
      exact ⟨item', List.mem_cons_of_mem _ inside, same⟩

theorem mapM_of_parts? {parts : List (List Token)} (read : parts? target = some parts) :
    (partsOf target.toList).mapM (tokens? none) = some parts := by
  obtain ⟨_, _, all⟩ := Option.bind_eq_some_iff.mp read
  exact all

theorem confined_of_staysInside (stays : staysInside target = true) {parts : List (List Token)}
    (read : parts? target = some parts) : ∀ part ∈ parts, Confined part := by
  intro tokens member
  obtain ⟨part, inside, same⟩ := exists_mem_of_mem_mapM (mapM_of_parts? read) member
  have noUp := List.all_eq_true.mp stays part inside
  rw [same] at noUp
  refine ⟨fun slash => ?_, by simpa using noUp⟩
  have between := (partsOf_starts_splitOn target.toList).subset inside
  exact not_mem_of_mem_splitOn between (mem_of_char_mem_tokens? same slash)

/-- A relative path does not start with a slash. -/
theorem head?_parts_ne (relative : Path.isAbsolute target = false) (nonempty : target ≠ "")
    {parts : List (List Token)} (read : parts? target = some parts) : parts.head? ≠ some [] := by
  intro empty
  obtain ⟨c, rest, text⟩ := List.exists_cons_of_ne_nil (mt String.toList_eq_nil_iff.mp nonempty)
  have noSlash : (c == '/') = false := by
    rw [Path.isAbsolute, text] at relative
    simpa using relative
  have all := mapM_of_parts? read
  cases split : partsOf target.toList with
  | nil =>
    rw [split] at all
    cases all
    cases empty
  | cons first later =>
    rw [split] at all
    obtain ⟨tokens, _, head, -, rfl⟩ := mapM_cons_eq_some all
    rw [List.head?_cons, Option.some_inj] at empty
    obtain rfl := eq_nil_of_tokens? (empty ▸ head)
    obtain ⟨more, whole⟩ := partsOf_starts_splitOn target.toList
    rw [split, text, List.splitOn_cons_eq_if_modifyHead, noSlash] at whole
    cases parts : rest.splitOn '/' with
    | nil => exact List.splitOn_ne_nil '/' rest parts
    | cons => simp [parts] at whole

end Wildcard

namespace Place

/-- The path of what a path names in a directory, from the root of everything. -/
def outer (place : Place) (path : String) : String :=
  place.along (String.ofList path.toList.tail)

theorem outer_along (place : Place) (tail : String) :
    place.outer (along [] tail) = place.along tail := by
  by_cases bare : tail = ""
  · subst bare
    rfl
  · rw [along_of_ne _ bare, outer]
    simp [text]

end Place

/-- The same fault with the paths from the root of everything. -/
def ParseFault.outer (place : Place) : ParseFault → ParseFault
  | .unreadable path reason => .unreadable (place.outer path) reason
  | .includeCycle path openPaths => .includeCycle (place.outer path) (openPaths.map place.outer)
  | fault => fault

namespace Source

open Wildcard (isPattern parts? search staysInside)

variable {fs : FileSystem} {place : Place} {target : String}

theorem expandTarget_of_not_isPattern (files : FileAccess) {path : String}
    (plain : isPattern path = false) : expandTarget files path = .ok [path] := by
  have none : (!path.toList.any fun c => c == '*' || c == '?') = true := by
    rw [← isPattern, plain]
    rfl
  exact if_pos none

theorem expandTarget_of_isPattern (files : FileAccess) {path : String}
    (pattern : isPattern path = true) :
    expandTarget files path = match files.expand? path with
      | none => .error (.unreadable path .badPattern)
      | some paths => .ok (Path.sort (paths.filter files.isFile)) := by
  have some_ : ¬(!path.toList.any fun c => c == '*' || c == '?') = true := by
    rw [← isPattern, pattern]
    decide
  exact if_neg some_

theorem isPattern_append (first second : String) :
    isPattern (first ++ second) = (isPattern first || isPattern second) := by
  rw [isPattern, String.toList_append, List.any_append, isPattern, isPattern]

theorem isPattern_join {dir : String} (relative : Path.isAbsolute target = false) :
    isPattern (Path.join dir target) = (isPattern dir || isPattern target) := by
  unfold Path.join
  split
  case isTrue bare =>
    have empty : dir = "" := by simpa [relative] using bare
    subst empty
    rfl
  case isFalse =>
    have slash : isPattern "/" = false := rfl
    split <;> simp [isPattern_append, slash]

theorem join_path (there : fs.HasDirectory place) (relative : Path.isAbsolute target = false)
    (nonempty : target ≠ "") : Path.join place.path target = place.along target := by
  have bare : Path.join "" target = target := by simp [Path.join]
  rw [← Place.along_empty, Place.join_along there.names relative (.inr nonempty), bare]

theorem isPattern_of_literal {text : String} (plain : Wildcard.Literal text.toList) :
    isPattern text = false := by
  rw [isPattern, List.any_eq_false]
  intro c member
  have special := plain c member
  rw [Wildcard.isSpecial, Bool.or_eq_false_iff] at special
  simp [special.1]

/-- A pattern names the files that are found from the directory on. -/
theorem expandTarget_along (there : fs.HasDirectory place)
    (plain : Wildcard.Literal place.text.toList) (nonempty : target ≠ "")
    (pattern : isPattern target = true) :
    expandTarget fs (place.along target) = match parts? target with
      | none => .error (.unreadable (place.along target) .badPattern)
      | some parts => .ok (Path.sort ((search fs (target.toList.getLast? == some '/') parts
          place.path).filter fs.isFile)) := by
  have whole : isPattern (place.along target) = true := by
    rw [Place.along_of_ne _ nonempty, isPattern_append, pattern, Bool.or_true]
  rw [expandTarget_of_isPattern _ whole]
  change (match Wildcard.expand? fs _ with | none => _ | some paths => _) = _
  rw [Wildcard.expand?_along there plain nonempty]
  cases parts? target <;> rfl

/-- The same files, named in two ways: from the root of everything, and in the directory alone. -/
inductive SameNames (place : Place) :
    Except ParseFault (List String) → Except ParseFault (List String) → Prop
  | failed (fault : ParseFault) : SameNames place (.error (fault.outer place)) (.error fault)
  | named (tails : List String) (inside : ∀ tail ∈ tails, Inside tail) :
    SameNames place (.ok (tails.map place.along)) (.ok (tails.map (Place.along [])))

theorem sort_along (names : ∀ name ∈ place, IsName name) (tails : List String) :
    Path.sort (tails.map place.along) =
      (tails.mergeSort fun first second =>
        Path.ordered (Place.along [] first) (Place.along [] second)).map place.along :=
  (List.map_mergeSort fun first _ second _ => (Place.ordered_along names first second).symm).symm

/-- A target that stays inside names the same files in the directory alone. -/
theorem sameNames_target (there : fs.HasDirectory place) (wellNamed : fs.WellNamed)
    (plain : Wildcard.Literal place.text.toList) (relative : Path.isAbsolute target = false)
    (nonempty : target ≠ "") (stays : staysInside target = true) :
    SameNames place (expandTarget fs (place.along target))
      (expandTarget (fs.under place) (Place.along [] target)) := by
  have root := (fs.under place).hasDirectory_root
  cases pattern : isPattern target with
  | false =>
    have bare (place : Place) (plain : Wildcard.Literal place.text.toList) :
        isPattern (place.along target) = false := by
      have slash : isPattern "/" = false := rfl
      rw [Place.along_of_ne _ nonempty, isPattern_append, isPattern_append, pattern, slash,
        isPattern_of_literal plain]
      rfl
    rw [expandTarget_of_not_isPattern _ (bare place plain),
      expandTarget_of_not_isPattern _ (bare [] nofun)]
    exact .named [target] (by simpa using Wildcard.inside_of_staysInside relative stays)
  | true =>
    rw [expandTarget_along there plain nonempty pattern,
      expandTarget_along root nofun nonempty pattern]
    cases read : parts? target with
    | none =>
      have failed : SameNames place _ _ :=
        .failed (.unreadable (Place.along [] target) .badPattern)
      rwa [ParseFault.outer, Place.outer_along] at failed
    | some parts =>
      have confined := Wildcard.confined_of_staysInside stays read
      have start := Wildcard.head?_parts_ne relative nonempty read
      obtain ⟨tails, inside, found, found'⟩ := Wildcard.searchesAlike there wellNamed
        (target.toList.getLast? == some '/') parts confined "" inside_empty fun _ => start
      have files : tails.filter (fs.isFile ∘ place.along) =
          tails.filter ((fs.under place).isFile ∘ Place.along []) :=
        List.filter_congr fun tail member => there.isFile_under (inside tail member).stays
      dsimp only
      rw [← Place.along_empty, ← Place.along_empty, found, found', List.filter_map,
        List.filter_map, files]
      simp only [sort_along there.names, sort_along root.names]
      refine .named _ fun tail member => inside tail ?_
      exact (List.mem_filter.mp (List.mem_mergeSort.mp member)).1

end Source

end DoubleEntry
