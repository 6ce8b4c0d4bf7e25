import Localization.Proofs.Key.Reordered
import Localization.Proofs.Text.Order

/-!
A merged dictionary is the union of the one that was there and the keys of a set. Main statement:
`merge_ofOccurrences`.
-/

namespace Localization.Dictionary

variable {existing : Option Dictionary} {keys : KeySet} {d : Dictionary}

/-- The entries for the keys of a set that a dictionary lacks, in the order of the set. -/
def missingEntries (d : Dictionary) (keys : KeySet) : List (String × Json) :=
  (keys.unique.filter fun o => o.key ∉ d.keys).map fun o => (o.key, .string (o.default.getD o.key))

theorem newEntries_textsOf (d : Dictionary) (keys : KeySet) :
    d.newEntries (textsOf keys) = d.missingEntries keys := by
  rw [newEntries, textsOf, List.filter_map, List.map_map, missingEntries]
  refine congrArg (List.map _) (List.filter_congr fun o _ => ?_)
  rw [Function.comp_apply, contains_eq_decide, decide_not]

theorem merge_unsorted_eq (h : (keys.unique.map Occurrence.key).Nodup) :
    merge existing keys false =
      (⟨(existing.getD OrderedMap.empty).entries ++
          (existing.getD OrderedMap.empty).missingEntries keys⟩,
        ((existing.getD OrderedMap.empty).missingEntries keys).length) := by
  rw [← keys_textsOf] at h
  rw [merge_unsorted, addAll_eq_addTexts]
  change addTexts _ (textsOf keys) = _
  rw [addTexts_eq _ h, Nat.zero_add, newEntries_textsOf]

/-- Sorting only changes the order of the entries. -/
theorem entries_merge_perm (h : (keys.unique.map Occurrence.key).Nodup) (isSorted : Bool) :
    (merge existing keys isSorted).1.entries.Perm
      ((existing.getD OrderedMap.empty).entries ++
        (existing.getD OrderedMap.empty).missingEntries keys) := by
  cases isSorted with
  | false => rw [merge_unsorted_eq h]
  | true =>
      rw [merge_sorted_eq h, newEntries_textsOf]
      exact perm_sorted _

theorem added_merge (h : (keys.unique.map Occurrence.key).Nodup) (isSorted : Bool) :
    (merge existing keys isSorted).2 =
      ((existing.getD OrderedMap.empty).missingEntries keys).length := by
  cases isSorted with
  | false => rw [merge_unsorted_eq h]
  | true => rw [merge_sorted_eq h, newEntries_textsOf]

theorem mem_missingEntries {e : String × Json} :
    e ∈ d.missingEntries keys ↔
      ∃ o ∈ keys.unique, o.key ∉ d.keys ∧ (o.key, .string (o.default.getD o.key)) = e := by
  simp only [missingEntries, List.mem_map, List.mem_filter, decide_eq_true_eq, and_assoc]

theorem keys_missingEntries (d : Dictionary) (keys : KeySet) :
    (d.missingEntries keys).map Prod.fst =
      (keys.unique.map Occurrence.key).filter fun key => key ∉ d.keys := by
  rw [missingEntries, List.map_map, List.filter_map]
  rfl

/-- The first-seen keys together with a dictionary: its entries keep their values, and the keys that it
lacks show their default texts or themselves. -/
structure IsUnion (d : Dictionary) (keys : KeySet) (merged : Dictionary) : Prop where
  nodup : merged.keys.Nodup
  mem_keys : ∀ key, key ∈ merged.keys ↔ key ∈ d.keys ∨ key ∈ keys.unique.map Occurrence.key
  kept : ∀ key value, d.get? key = some value → merged.get? key = some value
  fresh : ∀ o ∈ keys.unique, o.key ∉ d.keys →
    merged.get? o.key = some (.string (o.default.getD o.key))

theorem isUnion_of_perm {merged : Dictionary} (hd : d.keys.Nodup)
    (hkeys : (keys.unique.map Occurrence.key).Nodup)
    (h : merged.entries.Perm (d.entries ++ d.missingEntries keys)) : IsUnion d keys merged := by
  have hall : merged.keys.Perm
      (d.keys ++ (keys.unique.map Occurrence.key).filter fun key => key ∉ d.keys) := by
    rw [← keys_missingEntries, OrderedMap.keys, OrderedMap.keys, ← List.map_append]
    exact h.map Prod.fst
  have hnodup : merged.keys.Nodup := by
    rw [hall.nodup_iff]
    apply hd.append (hkeys.filter _)
    intro key hold hnew
    exact of_decide_eq_true (List.mem_filter.mp hnew).2 hold
  constructor
  · exact hnodup
  · intro key
    rw [hall.mem_iff, List.mem_append, List.mem_filter, decide_eq_true_eq]
    tauto
  · intro key value hvalue
    apply (OrderedMap.lookup_eq_some_iff_mem hnodup).mpr
    exact h.mem_iff.mpr
      (List.mem_append_left _ ((OrderedMap.lookup_eq_some_iff_mem hd).mp hvalue))
  · intro o ho hlacks
    apply (OrderedMap.lookup_eq_some_iff_mem hnodup).mpr
    exact h.mem_iff.mpr (List.mem_append_right _ (mem_missingEntries.mpr ⟨o, ho, hlacks, rfl⟩))

theorem isUnion_merge (hd : (existing.getD OrderedMap.empty).keys.Nodup)
    (hkeys : (keys.unique.map Occurrence.key).Nodup) (isSorted : Bool) :
    IsUnion (existing.getD OrderedMap.empty) keys (merge existing keys isSorted).1 :=
  isUnion_of_perm hd hkeys (entries_merge_perm hkeys isSorted)

theorem pairwise_keys_merge_sorted (hd : (existing.getD OrderedMap.empty).keys.Nodup)
    (hkeys : (keys.unique.map Occurrence.key).Nodup) :
    (merge existing keys true).1.keys.Pairwise (· < ·) := by
  have hle : (merge existing keys true).1.keys.Pairwise (· ≤ ·) :=
    List.pairwise_map.mpr (Text.pairwise_sortBy Prod.fst _)
  exact (hle.and (isUnion_merge hd hkeys true).nodup).imp fun h => lt_of_le_of_ne h.1 h.2

/-- Two orders of the same keys agree where both are ascending. -/
theorem keys_merge_none (hkeys : (keys.unique.map Occurrence.key).Nodup) (isSorted : Bool) :
    (merge none keys isSorted).1.keys = (keys.ordered isSorted).map Occurrence.key := by
  have hentries : missingEntries OrderedMap.empty keys =
      keys.unique.map fun o => (o.key, .string (o.default.getD o.key)) := by
    simp [missingEntries, OrderedMap.empty, OrderedMap.keys]
  cases isSorted with
  | false =>
      rw [merge_unsorted_eq hkeys, Option.getD_none, hentries]
      simp [OrderedMap.keys, OrderedMap.empty, KeySet.ordered]
  | true =>
      have hperm : (merge none keys true).1.keys.Perm ((keys.ordered true).map Occurrence.key) := by
        refine ((entries_merge_perm hkeys true).map Prod.fst).trans ?_
        rw [Option.getD_none, hentries, OrderedMap.empty, List.nil_append, List.map_map]
        exact ((keys.perm_ordered true).map Occurrence.key).symm
      have hleft : (merge none keys true).1.keys.Pairwise (· ≤ ·) :=
        List.pairwise_map.mpr (Text.pairwise_sortBy Prod.fst _)
      have hright : ((keys.ordered true).map Occurrence.key).Pairwise (· ≤ ·) :=
        List.pairwise_map.mpr (Text.pairwise_sortBy Occurrence.key _)
      exact hperm.eq_of_pairwise (fun _ _ _ _ => le_antisymm) hleft hright

/-- A merged dictionary is the union of the dictionary that was there, if any, and the first occurrences of
the keys. The number tells how many keys were missing. Without sorting the entries that were there stand in
front; sorted keys ascend byte by byte. Merging once more changes nothing. -/
theorem merge_ofOccurrences (occurrences : List Occurrence) (isSorted : Bool)
    (hexisting : ∀ d ∈ existing, d.keys.Nodup) :
    let keys := KeySet.ofOccurrences occurrences
    let start := existing.getD OrderedMap.empty
    let merged := (merge existing keys isSorted).1
    keys.Covers occurrences ∧ IsUnion start keys merged ∧
      (merge existing keys isSorted).2 =
        ((keys.unique.map Occurrence.key).filter fun key => key ∉ start.keys).length ∧
      (isSorted = false → merged.entries = start.entries ++ start.missingEntries keys) ∧
      (isSorted = true → merged.keys.Pairwise fun a b => Text.bytes a < Text.bytes b) ∧
      (existing = none → merged.keys = (keys.ordered isSorted).map Occurrence.key) ∧
      merge (some merged) keys isSorted = (merged, 0) := by
  intro keys start merged
  have hkeys : (keys.unique.map Occurrence.key).Nodup := KeySet.nodup_keys_ofOccurrences occurrences
  have hstart : start.keys.Nodup := by
    cases existing with
    | none => exact List.nodup_nil
    | some d => exact hexisting d rfl
  refine ⟨KeySet.covers_ofOccurrences occurrences, isUnion_merge hstart hkeys isSorted, ?_, ?_, ?_, ?_,
    merge_merge existing keys isSorted⟩
  · rw [added_merge hkeys, ← keys_missingEntries, List.length_map]
  · rintro rfl
    exact congrArg (fun m => m.1.entries) (merge_unsorted_eq hkeys)
  · rintro rfl
    exact (pairwise_keys_merge_sorted hstart hkeys).imp Text.bytes_lt_of_lt
  · rintro rfl
    exact keys_merge_none hkeys isSorted

/-- Some values, of which one is no text. -/
def counted : Dictionary :=
  ⟨[("z", .number (.natural 3)), ("b", .string "둘")]⟩

/-- A key that is there, and two that are not, one of them twice. -/
def greetings : List Occurrence :=
  [⟨"가", some "first", "a.tsx", 1, 1⟩, ⟨"b", some "two", "a.tsx", 2, 1⟩,
    ⟨"가", some "second", "a.tsx", 3, 1⟩, ⟨"B", none, "a.tsx", 4, 1⟩]

theorem merge_ofOccurrences_counted :
    (∀ d ∈ some counted, d.keys.Nodup) ∧
      IsUnion counted (.ofOccurrences greetings)
        (merge (some counted) (.ofOccurrences greetings) true).1 ∧
      (merge (some counted) (.ofOccurrences greetings) true).1.keys = ["B", "b", "z", "가"] ∧
      (merge (some counted) (.ofOccurrences greetings) true).2 = 2 ∧
      merge (some (merge (some counted) (.ofOccurrences greetings) true).1)
        (.ofOccurrences greetings) true = ((merge (some counted) (.ofOccurrences greetings) true).1, 0) := by
  have hexisting : ∀ d ∈ some counted, d.keys.Nodup := by
    rintro d ⟨⟩
    decide
  obtain ⟨-, hunion, hadded, -, -, -, hagain⟩ := merge_ofOccurrences greetings true hexisting
  refine ⟨hexisting, hunion, by decide, hadded.trans ?_, hagain⟩
  decide

end Localization.Dictionary
