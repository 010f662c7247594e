import DoubleEntry.SortedMap
import Mathlib.Data.Finset.Card

/-! What the entries and the keys of a sorted map say about its look-ups. Each key has one entry. -/

namespace DoubleEntry.SortedMap

variable {κ α : Type} [Ord κ] [Std.LawfulEqOrd κ]
  {map : SortedMap κ α} {key : κ} {value : α}

theorem compare_ne_eq_of_lt {a b : κ} (less : compare a b = .lt) : a ≠ b := by
  rintro rfl
  rw [Std.ReflOrd.compare_self] at less
  cases less

/-- The entries with one key are the one at which it is found. -/
theorem filterMap_entries [DecidableEq κ] (map : SortedMap κ α) (key : κ) :
    (map.entries.filterMap fun entry => if entry.1 = key then some entry.2 else none) =
      (map.find? key).toList := by
  obtain ⟨entries, sorted⟩ := map
  simp only [find?]
  induction entries with
  | nil => rfl
  | cons head rest ih =>
    obtain ⟨first, later⟩ := List.pairwise_cons.mp sorted
    by_cases same : head.1 = key
    · have absent : (rest.filterMap fun entry => if entry.1 = key then some entry.2 else none) =
          [] := by
        refine List.filterMap_eq_nil_iff.mpr fun entry member => if_neg fun equal => ?_
        exact compare_ne_eq_of_lt (first entry member) (same.trans equal.symm)
      rw [List.filterMap_cons, if_pos same, absent]
      simp [valueIn?, same]
    · have apart : compare key head.1 ≠ .eq :=
        fun equal => same (Std.LawfulEqOrd.eq_of_compare equal).symm
      rw [List.filterMap_cons, if_neg same, ih later]
      simp [valueIn?, apart]

theorem mem_entries_iff : (key, value) ∈ map.entries ↔ map.find? key = some value := by
  classical
  have found := filterMap_entries map key
  constructor
  · intro member
    have : value ∈ (map.find? key).toList :=
      found ▸ List.mem_filterMap.mpr ⟨(key, value), member, if_pos rfl⟩
    simpa using this
  · intro present
    rw [present] at found
    have member : value ∈ map.entries.filterMap fun entry =>
        if entry.1 = key then some entry.2 else none := by rw [found]; simp
    obtain ⟨entry, inside, chosen⟩ := List.mem_filterMap.mp member
    split at chosen
    case isTrue same =>
      cases chosen
      exact same ▸ inside
    case isFalse => cases chosen

theorem mem_keys_iff : key ∈ map.keys ↔ (map.find? key).isSome := by
  rw [Option.isSome_iff_exists, keys, List.mem_map]
  constructor
  · rintro ⟨⟨_, value⟩, member, rfl⟩
    exact ⟨value, mem_entries_iff.mp member⟩
  · rintro ⟨value, found⟩
    exact ⟨(key, value), mem_entries_iff.mpr found, rfl⟩

/-- What is found among the entries that pass is what is found and passes. -/
theorem find?_filter (map : SortedMap κ α) (keep : κ → α → Bool) (key : κ) :
    (map.filter keep).find? key = (map.find? key).filter (keep key) := by
  ext value
  rw [← mem_entries_iff, SortedMap.filter, List.mem_filter, mem_entries_iff,
    Option.filter_eq_some_iff]

theorem nodup_keys (map : SortedMap κ α) : map.keys.Nodup :=
  List.pairwise_map.mpr (map.sorted.imp compare_ne_eq_of_lt)

/-- A map has as many entries as it has distinct keys. -/
theorem length_entries [DecidableEq κ] {members : List κ}
    (same : ∀ key, (map.find? key).isSome ↔ key ∈ members) :
    map.entries.length = members.toFinset.card := by
  have keysEq : map.keys.toFinset = members.toFinset := by
    ext key
    rw [List.mem_toFinset, List.mem_toFinset, mem_keys_iff, same]
  rw [← keysEq, List.toFinset_card_of_nodup (nodup_keys map), keys, List.length_map]

omit [Std.LawfulEqOrd κ] in
theorem find?_mapValues {β : Type} (map : SortedMap κ α) (change : α → β) (key : κ) :
    (map.mapValues change).find? key = (map.find? key).map change := by
  obtain ⟨entries, sorted⟩ := map
  simp only [find?, mapValues]
  clear sorted
  induction entries with
  | nil => rfl
  | cons head rest ih =>
    rw [List.map_cons, valueIn?, valueIn?]
    split
    · rfl
    · exact ih

/-- The entries with smaller keys than one entry are those in front of it. -/
theorem entries_filter_lt [Std.OrientedOrd κ] {before after : List (κ × α)}
    (split : map.entries = before ++ (key, value) :: after) :
    (map.filter fun other _ => compare other key = .lt).entries = before := by
  have sorted := map.sorted
  rw [split, List.pairwise_append, List.pairwise_cons] at sorted
  obtain ⟨_, ⟨behind, _⟩, inFront⟩ := sorted
  have kept : before.filter (fun entry => compare entry.1 key = .lt) = before :=
    List.filter_eq_self.mpr fun entry member =>
      decide_eq_true (inFront entry member (key, value) (List.mem_cons_self ..))
  have dropped : after.filter (fun entry => compare entry.1 key = .lt) = [] :=
    List.filter_eq_nil_iff.mpr fun entry member => by
      simp [Std.OrientedCmp.gt_of_lt (behind entry member)]
  change map.entries.filter (fun entry => compare entry.1 key = .lt) = before
  rw [split, List.filter_append, List.filter_cons_of_neg (by simp), kept, dropped,
    List.append_nil]

/-- Inserting what is there already changes nothing. -/
theorem insert_of_find? [Std.TransOrd κ] (found : map.find? key = some value) :
    map.insert key value = map := by
  refine ext_find? fun other => ?_
  by_cases same : other = key
  · rw [same, find?_insert_self, found]
  · rw [find?_insert_of_ne _ same]

theorem mem_keys_insert [Std.TransOrd κ] {other : κ} :
    other ∈ (map.insert key value).keys ↔ other = key ∨ other ∈ map.keys := by
  rw [mem_keys_iff, mem_keys_iff]
  by_cases same : other = key
  · simp [same]
  · simp [find?_insert_of_ne _ same, same]

theorem mem_keys_insertAll [Std.TransOrd κ] {set : SortedSet κ} {members : List κ} :
    key ∈ (SortedSet.insertAll set members).keys ↔ key ∈ set.keys ∨ key ∈ members := by
  induction members generalizing set with
  | nil => simp [SortedSet.insertAll]
  | cons member members ih =>
    have step : SortedSet.insertAll set (member :: members) =
        SortedSet.insertAll (set.insert member ()) members := rfl
    rw [step, ih, mem_keys_insert, List.mem_cons]
    tauto

end DoubleEntry.SortedMap
