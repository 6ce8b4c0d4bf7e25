import Localization.Dictionary
import Localization.Proofs.OrderedMap
import Localization.Proofs.Text.Order

/-!
Adding keys and texts to a dictionary. What was added once is there, so that adding the same keys again changes
nothing. When texts are added under keys that differ from each other, the entries stay where they are, and the
texts whose keys are lacking come behind them in their order. Main statement: `addTexts_eq`.
-/

/-! ## Keys -/

namespace Localization.Dictionary

variable {d : Dictionary} {keys : KeySet}

/-- Adds the keys of some occurrences. -/
def addAll (start : Dictionary × Nat) (occurrences : List Occurrence) : Dictionary × Nat :=
  occurrences.foldl (fun d o => addMissing d o.key o.initialText) start

theorem merge_unsorted (existing : Option Dictionary) (keys : KeySet) :
    merge existing keys false = addAll (existing.getD OrderedMap.empty, 0) keys.unique :=
  rfl

theorem merge_sorted (existing : Option Dictionary) (keys : KeySet) :
    merge existing keys true =
      ((addAll (existing.getD OrderedMap.empty, 0) keys.unique).1.sorted,
        (addAll (existing.getD OrderedMap.empty, 0) keys.unique).2) :=
  rfl

theorem addMissing_of_contains {start : Dictionary × Nat} {key : String}
    (h : start.1.contains key = true) (text : String) : addMissing start key text = start :=
  if_pos h

theorem mem_keys_addMissing (start : Dictionary × Nat) (key text : String) {other : String} :
    other ∈ (addMissing start key text).1.keys ↔ other = key ∨ other ∈ start.1.keys := by
  unfold addMissing
  split
  · next h =>
      have hkey := OrderedMap.contains_iff.mp h
      constructor
      · exact .inr
      · rintro (rfl | hother)
        · exact hkey
        · exact hother
  · next h =>
      have hkey : key ∉ start.1.keys := fun hmem => h (OrderedMap.contains_iff.mpr hmem)
      have hkeys : (start.1.insert key (.string text)).keys = start.1.keys ++ [key] := by
        change (OrderedMap.insertEntry key _ start.1.entries).map Prod.fst = _
        rw [OrderedMap.insertEntry_of_notMem hkey, List.map_append]
        rfl
      change other ∈ (start.1.insert key (.string text)).keys ↔ _
      rw [hkeys, List.mem_append, List.mem_singleton, or_comm]

/-- The keys of all occurrences are there in the end, and those that were there before. -/
theorem mem_keys_addAll (start : Dictionary × Nat) (occurrences : List Occurrence) {key : String} :
    key ∈ (addAll start occurrences).1.keys ↔
      key ∈ occurrences.map Occurrence.key ∨ key ∈ start.1.keys := by
  induction occurrences generalizing start with
  | nil => simp [addAll]
  | cons o rest ih =>
      change key ∈ (addAll (addMissing start o.key o.initialText) rest).1.keys ↔ _
      rw [ih, mem_keys_addMissing, List.map_cons, List.mem_cons]
      tauto

theorem addAll_of_contains {start : Dictionary × Nat} {occurrences : List Occurrence}
    (h : ∀ o ∈ occurrences, o.key ∈ start.1.keys) : addAll start occurrences = start := by
  induction occurrences with
  | nil => rfl
  | cons o rest ih =>
      have hkey : start.1.contains o.key = true :=
        OrderedMap.contains_iff.mpr (h o List.mem_cons_self)
      change addAll (addMissing start o.key o.initialText) rest = start
      rw [addMissing_of_contains hkey]
      exact ih fun p hp => h p (List.mem_cons_of_mem o hp)

theorem perm_sorted (d : Dictionary) : d.sorted.entries.Perm d.entries :=
  Text.perm_sortBy Prod.fst d.entries

theorem mem_keys_sorted {key : String} : key ∈ d.sorted.keys ↔ key ∈ d.keys :=
  ((perm_sorted d).map Prod.fst).mem_iff

theorem sorted_sorted (d : Dictionary) : d.sorted.sorted = d.sorted :=
  congrArg OrderedMap.mk (Text.sortBy_sortBy Prod.fst d.entries)

theorem mem_keys_merge (existing : Option Dictionary) (isSorted : Bool) {o : Occurrence}
    (h : o ∈ keys.unique) : o.key ∈ (merge existing keys isSorted).1.keys := by
  have hall : o.key ∈ (addAll (existing.getD OrderedMap.empty, 0) keys.unique).1.keys :=
    (mem_keys_addAll _ _).mpr (.inl (List.mem_map_of_mem h))
  cases isSorted with
  | false => exact hall
  | true => exact mem_keys_sorted.mpr hall

/-- Merging the same keys into a merged dictionary adds none and keeps the order. -/
theorem merge_merge (existing : Option Dictionary) (keys : KeySet) (isSorted : Bool) :
    merge (some (merge existing keys isSorted).1) keys isSorted =
      ((merge existing keys isSorted).1, 0) := by
  have hthere : ∀ o ∈ keys.unique, o.key ∈ (merge existing keys isSorted).1.keys :=
    fun o ho => mem_keys_merge existing isSorted ho
  have hadd : addAll ((merge existing keys isSorted).1, 0) keys.unique =
      ((merge existing keys isSorted).1, 0) :=
    addAll_of_contains hthere
  cases isSorted with
  | false => exact hadd
  | true =>
      rw [merge_sorted (some _), Option.getD_some, hadd, merge_sorted]
      exact congrArg (·, 0) (sorted_sorted _)

/-- What holds of a dictionary, and stays when a text is added under a new key and when the entries are
put in order, holds of the merged dictionary. -/
theorem merge_induction {P : Dictionary → Prop} {existing : Option Dictionary}
    (hstart : P (existing.getD OrderedMap.empty))
    (hinsert : ∀ d key text, P d → P (d.insert key (.string text)))
    (hsorted : ∀ d, P d → P d.sorted) (keys : KeySet) (isSorted : Bool) :
    P (merge existing keys isSorted).1 := by
  have hall : ∀ (occurrences : List Occurrence) (start : Dictionary × Nat), P start.1 →
      P (addAll start occurrences).1 := by
    intro occurrences
    induction occurrences with
    | nil => exact fun start h => h
    | cons o rest ih =>
        intro start h
        refine ih (addMissing start o.key o.initialText) ?_
        unfold addMissing
        split
        · exact h
        · exact hinsert _ _ _ h
  have hadded := hall keys.unique (existing.getD OrderedMap.empty, 0) hstart
  cases isSorted with
  | false => exact hadded
  | true => exact hsorted _ hadded

end Localization.Dictionary

/-! ## Texts -/

namespace Localization.Dictionary

variable {d : Dictionary} {texts : List (String × String)}

/-- Adds some texts, each under its key. -/
def addTexts (start : Dictionary × Nat) (texts : List (String × String)) : Dictionary × Nat :=
  texts.foldl (fun d e => addMissing d e.1 e.2) start

/-- The entries for those of some texts whose keys a dictionary lacks. -/
def newEntries (d : Dictionary) (texts : List (String × String)) : List (String × Json) :=
  (texts.filter fun e => !d.contains e.1).map fun e => (e.1, .string e.2)

theorem addAll_eq_addTexts (start : Dictionary × Nat) (occurrences : List Occurrence) :
    addAll start occurrences =
      addTexts start (occurrences.map fun o => (o.key, o.initialText)) := by
  rw [addTexts, List.foldl_map, addAll]

theorem contains_eq_decide (d : Dictionary) (key : String) :
    d.contains key = decide (key ∈ d.keys) :=
  Bool.eq_iff_iff.mpr (OrderedMap.contains_iff.trans decide_eq_true_iff.symm)

theorem newEntries_append_of_notMem {key : String} {value : Json}
    (h : key ∉ texts.map Prod.fst) :
    newEntries ⟨d.entries ++ [(key, value)]⟩ texts = newEntries d texts := by
  refine congrArg (List.map _) (List.filter_congr fun e he => ?_)
  have hne : key ≠ e.1 := fun hkey => h (hkey ▸ List.mem_map_of_mem he)
  simp [OrderedMap.contains, hne]

theorem addTexts_eq (start : Dictionary × Nat) (h : (texts.map Prod.fst).Nodup) :
    addTexts start texts =
      (⟨start.1.entries ++ start.1.newEntries texts⟩,
        start.2 + (start.1.newEntries texts).length) := by
  induction texts generalizing start with
  | nil => simp [addTexts, newEntries]
  | cons e rest ih =>
      obtain ⟨hfirst, hrest⟩ := List.nodup_cons.mp h
      change addTexts (addMissing start e.1 e.2) rest = _
      rw [ih _ hrest, addMissing]
      split
      · next hold => simp [newEntries, hold]
      · next hnew =>
          have hkey : e.1 ∉ start.1.keys := fun hmem => hnew (OrderedMap.contains_iff.mpr hmem)
          have hentries : start.1.insert e.1 (.string e.2) =
              ⟨start.1.entries ++ [(e.1, .string e.2)]⟩ :=
            congrArg OrderedMap.mk (OrderedMap.insertEntry_of_notMem hkey)
          have hcons : start.1.newEntries (e :: rest) =
              (e.1, .string e.2) :: start.1.newEntries rest := by
            simp [newEntries, hnew]
          simp only [hentries, newEntries_append_of_notMem hfirst, hcons, List.append_assoc,
            List.singleton_append, List.length_cons, Prod.mk.injEq, true_and]
          omega

theorem keys_newEntries (d : Dictionary) (texts : List (String × String)) :
    (newEntries d texts).map Prod.fst =
      (texts.map Prod.fst).filter fun key => !d.contains key := by
  rw [newEntries, List.map_map, List.filter_map]
  rfl

theorem mem_newEntries {e : String × Json} :
    e ∈ newEntries d texts ↔ ∃ t ∈ texts, t.1 ∉ d.keys ∧ e = (t.1, .string t.2) := by
  simp only [newEntries, List.mem_map, List.mem_filter, contains_eq_decide, Bool.not_eq_true',
    decide_eq_false_iff_not, and_assoc]
  exact exists_congr fun t => and_congr_right fun _ => and_congr_right fun _ => eq_comm

/-- The keys that are added differ from each other and from those that were there. -/
theorem nodup_keys_added (hd : d.keys.Nodup) (h : (texts.map Prod.fst).Nodup) :
    ((d.entries ++ newEntries d texts).map Prod.fst).Nodup := by
  rw [List.map_append, keys_newEntries]
  refine hd.append (h.filter _) fun key hold hnew => ?_
  have hlacks := (List.mem_filter.mp hnew).2
  rw [contains_eq_decide, decide_eq_true hold] at hlacks
  contradiction

end Localization.Dictionary
