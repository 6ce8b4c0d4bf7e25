import Localization.OrderedMap
import Mathlib.Data.List.Induction
import Mathlib.Data.List.Nodup

/-!
Maps whose keys stand once each: what insertion keeps, and which value a key has.
-/

namespace Localization.OrderedMap

variable {α : Type}

theorem contains_iff {m : OrderedMap α} {key : String} : m.contains key = true ↔ key ∈ m.keys := by
  simp [contains, keys]

theorem get?_eq_none_iff {m : OrderedMap α} {key : String} : m.get? key = none ↔ key ∉ m.keys := by
  simp only [get?, keys, List.lookup_eq_none_iff, List.mem_map, not_exists, not_and, bne_iff_ne]
  exact forall₂_congr fun e _ => ne_comm

theorem mem_keys_iff {m : OrderedMap α} {key : String} :
    key ∈ m.keys ↔ ∃ value, m.get? key = some value := by
  rw [← Option.isSome_iff_exists, ← not_iff_not, Option.not_isSome_iff_eq_none, get?_eq_none_iff]

theorem insertEntry_of_notMem {key : String} {value : α} {entries : List (String × α)}
    (h : key ∉ entries.map Prod.fst) : insertEntry key value entries = entries ++ [(key, value)] := by
  induction entries with
  | nil => rfl
  | cons e rest ih =>
      simp only [List.map_cons, List.mem_cons, not_or] at h
      rw [insertEntry, if_neg (Ne.symm h.1), ih h.2, List.cons_append]

theorem keys_insertEntry_of_mem {key : String} {value : α} {entries : List (String × α)}
    (h : key ∈ entries.map Prod.fst) :
    (insertEntry key value entries).map Prod.fst = entries.map Prod.fst := by
  induction entries with
  | nil => contradiction
  | cons e rest ih =>
      rw [insertEntry]
      split
      · next hkey => rw [List.map_cons, List.map_cons, hkey]
      · next hkey =>
          have hrest : key ∈ rest.map Prod.fst :=
            (List.mem_cons.mp h).resolve_left (Ne.symm hkey)
          rw [List.map_cons, List.map_cons, ih hrest]

theorem mem_insertEntry {key : String} {value : α} {entries : List (String × α)} {e : String × α}
    (h : e ∈ insertEntry key value entries) : e = (key, value) ∨ e ∈ entries := by
  induction entries with
  | nil => exact .inl (List.mem_singleton.mp h)
  | cons first rest ih =>
      rw [insertEntry] at h
      split at h
      · exact (List.mem_cons.mp h).imp_right (List.mem_cons_of_mem first)
      · rcases List.mem_cons.mp h with rfl | hrest
        · exact .inr List.mem_cons_self
        · exact (ih hrest).imp_right (List.mem_cons_of_mem first)

theorem nodup_keys_insert {m : OrderedMap α} (h : m.keys.Nodup) (key : String) (value : α) :
    (m.insert key value).keys.Nodup := by
  by_cases hkey : key ∈ m.keys
  · change ((insertEntry key value m.entries).map Prod.fst).Nodup
    rw [keys_insertEntry_of_mem hkey]
    exact h
  · have hkeys : (m.insert key value).keys = m.keys ++ [key] := by
      change (insertEntry key value m.entries).map Prod.fst = _
      rw [insertEntry_of_notMem hkey, List.map_append]
      rfl
    rw [hkeys]
    exact h.append (List.nodup_singleton key) (List.disjoint_singleton.mpr hkey)

/-- Where each key stands once, its entry tells its value. -/
theorem lookup_eq_some_iff_mem {entries : List (String × α)} {key : String} {value : α}
    (h : (entries.map Prod.fst).Nodup) : entries.lookup key = some value ↔ (key, value) ∈ entries := by
  induction entries with
  | nil => simp
  | cons e rest ih =>
      obtain ⟨first, other⟩ := e
      rw [List.map_cons, List.nodup_cons] at h
      rw [OrderedMap.lookup_cons_eq]
      split
      · next hkey =>
          subst hkey
          constructor
          · intro heq
            obtain rfl : other = value := Option.some.inj heq
            exact List.mem_cons_self
          · intro hmem
            rcases List.mem_cons.mp hmem with heq | hrest
            · exact congrArg some (Prod.mk.inj heq).2.symm
            · exact absurd (List.mem_map_of_mem hrest) h.1
      · next hkey =>
          rw [ih h.2, List.mem_cons, Prod.mk.injEq]
          simp [hkey]

theorem nodup_keys_extend {m : OrderedMap α} (h : m.keys.Nodup) (n : OrderedMap α) :
    (m.extend n).keys.Nodup := by
  obtain ⟨entries⟩ := n
  rw [extend]
  induction entries generalizing m with
  | nil => exact h
  | cons e rest ih => exact ih (nodup_keys_insert h e.1 e.2)

/-- In an extended map the second map tells the values of its keys. -/
theorem get?_extend {n : OrderedMap α} (h : n.keys.Nodup) (m : OrderedMap α) (key : String) :
    (m.extend n).get? key = (n.get? key).or (m.get? key) := by
  obtain ⟨entries⟩ := n
  change (entries.map Prod.fst).Nodup at h
  simp only [extend]
  induction entries generalizing m with
  | nil => rfl
  | cons e rest ih =>
      obtain ⟨hfirst, hrest⟩ := List.nodup_cons.mp h
      have hcons : get? ⟨e :: rest⟩ key = if key = e.1 then some e.2 else get? ⟨rest⟩ key :=
        lookup_cons_eq e rest key
      rw [List.foldl_cons, ih _ hrest, get?_insert, hcons]
      by_cases hkey : key = e.1
      · have hnone : get? ⟨rest⟩ key = none := by
          rw [hkey]
          exact get?_eq_none_iff.mpr hfirst
        rw [if_pos hkey, if_pos hkey, hnone]
        rfl
      · rw [if_neg hkey, if_neg hkey]

/-! ## Maps put together -/

theorem insertEntry_self (key : String) (value other : α) (entries : List (String × α)) :
    insertEntry key value (insertEntry key other entries) = insertEntry key value entries := by
  induction entries with
  | nil => exact if_pos rfl
  | cons e rest ih =>
      by_cases hkey : e.1 = key
      · rw [insertEntry, if_pos hkey, insertEntry, if_pos rfl, insertEntry, if_pos hkey]
      · rw [insertEntry, if_neg hkey, insertEntry, if_neg hkey, insertEntry, if_neg hkey, ih]

/-- A key that is there keeps its place, so what another key gets may come before its value or after it. -/
theorem insertEntry_comm {key other : String} {entries : List (String × α)}
    (h : key ∈ entries.map Prod.fst) (hne : other ≠ key) (value first : α) :
    insertEntry key value (insertEntry other first entries) =
      insertEntry other first (insertEntry key value entries) := by
  induction entries with
  | nil => contradiction
  | cons e rest ih =>
      by_cases hkey : e.1 = key
      · have hother : ¬ e.1 = other := fun heq => hne (heq.symm.trans hkey)
        rw [insertEntry, if_neg hother, insertEntry, if_pos hkey, insertEntry, if_pos hkey, insertEntry,
          if_neg hne.symm]
      · have hrest : key ∈ rest.map Prod.fst := (List.mem_cons.mp h).resolve_left (Ne.symm hkey)
        by_cases hother : e.1 = other
        · rw [insertEntry, if_pos hother, insertEntry, if_neg hne, insertEntry, if_neg hkey, insertEntry,
            if_pos hother]
        · rw [insertEntry, if_neg hother, insertEntry, if_neg hkey, insertEntry, if_neg hkey, insertEntry,
            if_neg hother, ih hrest]

theorem insert_self (m : OrderedMap α) (key : String) (value other : α) :
    (m.insert key other).insert key value = m.insert key value :=
  congrArg mk (insertEntry_self key value other m.entries)

theorem insert_comm {m : OrderedMap α} {key other : String} (h : key ∈ m.keys) (hne : other ≠ key)
    (value first : α) :
    (m.insert other first).insert key value = (m.insert key value).insert other first :=
  congrArg mk (insertEntry_comm h hne value first)

theorem mem_keys_insert {m : OrderedMap α} {key other : String} {value : α} :
    other ∈ (m.insert key value).keys ↔ other = key ∨ other ∈ m.keys := by
  rw [mem_keys_iff, get?_insert]
  split
  · next heq => simp [heq]
  · next hne => rw [mem_keys_iff, or_iff_right hne]

theorem extend_empty (m : OrderedMap α) : m.extend empty = m :=
  rfl

theorem extend_concat (m : OrderedMap α) (entries : List (String × α)) (e : String × α) :
    m.extend ⟨entries ++ [e]⟩ = (m.extend ⟨entries⟩).insert e.1 e.2 :=
  List.foldl_append

theorem ofList_concat (entries : List (String × α)) (e : String × α) :
    ofList (entries ++ [e]) = (ofList entries).insert e.1 e.2 :=
  List.foldl_append

/-- A key that is there and not among some entries gets its next value before them or after them. -/
theorem insert_extend {m : OrderedMap α} {key : String} (h : key ∈ m.keys)
    {entries : List (String × α)} (hentries : key ∉ entries.map Prod.fst) (value : α) :
    (m.extend ⟨entries⟩).insert key value = (m.insert key value).extend ⟨entries⟩ := by
  induction entries generalizing m with
  | nil => rfl
  | cons e rest ih =>
      obtain ⟨hfirst, hrest⟩ := not_or.mp (mt List.mem_cons.mpr hentries)
      have hmore := ih (mem_keys_insert.mpr (.inr h) : key ∈ (m.insert e.1 e.2).keys) hrest
      rw [insert_comm h (Ne.symm hfirst)] at hmore
      exact hmore

/-- Inserting into the second map or into both together is the same. -/
theorem extend_insert {n : OrderedMap α} (h : n.keys.Nodup) (m : OrderedMap α) (key : String)
    (value : α) : m.extend (n.insert key value) = (m.extend n).insert key value := by
  obtain ⟨entries⟩ := n
  change (entries.map Prod.fst).Nodup at h
  induction entries generalizing m with
  | nil => rfl
  | cons e rest ih =>
      obtain ⟨hfirst, hrest⟩ := List.nodup_cons.mp h
      by_cases hkey : e.1 = key
      · subst hkey
        calc m.extend ⟨insertEntry e.1 value (e :: rest)⟩
          _ = (m.insert e.1 value).extend ⟨rest⟩ := by rw [insertEntry, if_pos rfl]; rfl
          _ = ((m.insert e.1 e.2).insert e.1 value).extend ⟨rest⟩ := by rw [insert_self]
          _ = (m.extend ⟨e :: rest⟩).insert e.1 value :=
            (insert_extend (mem_keys_insert.mpr (.inl rfl)) hfirst value).symm
      · calc m.extend ⟨insertEntry key value (e :: rest)⟩
          _ = (m.insert e.1 e.2).extend (insert ⟨rest⟩ key value) := by rw [insertEntry, if_neg hkey]; rfl
          _ = (m.extend ⟨e :: rest⟩).insert key value := ih (m.insert e.1 e.2) hrest

theorem extend_assoc {n : OrderedMap α} (h : n.keys.Nodup) (m other : OrderedMap α) :
    (m.extend n).extend other = m.extend (n.extend other) := by
  obtain ⟨entries⟩ := other
  induction entries using List.reverseRecOn with
  | nil => rfl
  | append_singleton entries e ih =>
      rw [extend_concat, extend_concat, extend_insert (nodup_keys_extend h _), ih]

theorem nodup_keys_ofList (entries : List (String × α)) : (ofList entries).keys.Nodup :=
  nodup_keys_extend (m := empty) List.nodup_nil ⟨entries⟩

/-- A map is the one of its entries. -/
theorem ofList_entries {m : OrderedMap α} (h : m.keys.Nodup) : ofList m.entries = m := by
  obtain ⟨entries⟩ := m
  change (entries.map Prod.fst).Nodup at h
  induction entries using List.reverseRecOn with
  | nil => rfl
  | append_singleton entries e ih =>
      rw [List.map_append, List.nodup_append] at h
      have hlast : e.1 ∉ entries.map Prod.fst := fun hmem => h.2.2 _ hmem _ List.mem_cons_self rfl
      rw [ofList_concat, ih h.1]
      exact congrArg mk (insertEntry_of_notMem hlast)

theorem empty_extend {m : OrderedMap α} (h : m.keys.Nodup) : empty.extend m = m :=
  ofList_entries h

/-- A map to which the map of some pairs is added has these pairs inserted one after the other. -/
theorem extend_ofList (m : OrderedMap α) (pairs : List (String × α)) :
    m.extend (ofList pairs) = m.extend ⟨pairs⟩ := by
  induction pairs using List.reverseRecOn with
  | nil => rfl
  | append_singleton pairs e ih =>
      rw [ofList_concat, extend_concat, extend_insert (nodup_keys_ofList pairs), ih]

theorem ofList_append (pairs more : List (String × α)) :
    ofList (pairs ++ more) = (ofList pairs).extend (ofList more) := by
  rw [extend_ofList]
  exact List.foldl_append

end Localization.OrderedMap
