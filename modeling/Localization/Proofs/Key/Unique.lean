import Localization.Key.Set
import Localization.Proofs.Text.Order
import Mathlib.Data.List.Induction

/-!
The keys of a set of occurrences: each key that occurs stands once. The set counts the occurrences that come
first with their keys and only keeps the later ones. Main statement: `covers_ofOccurrences`.
-/

/-! ## Keys -/

namespace Localization.KeySet

theorem contains_iff {s : KeySet} {key : String} :
    s.contains key = true ↔ key ∈ s.unique.map Occurrence.key := by
  simp [contains]

theorem nodup_keys_add {s : KeySet} (h : (s.unique.map Occurrence.key).Nodup) (o : Occurrence) :
    ((s.add o).unique.map Occurrence.key).Nodup := by
  rw [add]
  split
  · exact h
  · next hnew =>
      rw [contains_iff] at hnew
      rw [List.map_append, List.map_singleton]
      apply h.append (List.nodup_singleton _)
      rintro key hkey hlast
      obtain rfl := List.mem_singleton.mp hlast
      exact hnew hkey

theorem mem_keys_add {s : KeySet} {o : Occurrence} {key : String} :
    key ∈ (s.add o).unique.map Occurrence.key ↔ key ∈ s.unique.map Occurrence.key ∨ key = o.key := by
  rw [add]
  split
  · next hold =>
      constructor
      · exact .inl
      · rintro (hkey | rfl)
        · exact hkey
        · exact contains_iff.mp hold
  · rw [List.map_append, List.mem_append, List.map_singleton, List.mem_singleton]

theorem nodup_keys_ofOccurrences (occurrences : List Occurrence) :
    ((ofOccurrences occurrences).unique.map Occurrence.key).Nodup := by
  have hfold : ∀ (s : KeySet), (s.unique.map Occurrence.key).Nodup →
      ((occurrences.foldl add s).unique.map Occurrence.key).Nodup := by
    induction occurrences with
    | nil => exact fun s h => h
    | cons o rest ih => exact fun s h => ih _ (nodup_keys_add h o)
  exact hfold empty List.nodup_nil

theorem mem_keys_ofOccurrences {occurrences : List Occurrence} {key : String} :
    key ∈ (ofOccurrences occurrences).unique.map Occurrence.key ↔
      ∃ o ∈ occurrences, o.key = key := by
  have hfold : ∀ (s : KeySet), key ∈ (occurrences.foldl add s).unique.map Occurrence.key ↔
      key ∈ s.unique.map Occurrence.key ∨ ∃ o ∈ occurrences, o.key = key := by
    induction occurrences with
    | nil => simp
    | cons o rest ih =>
        intro s
        rw [List.foldl_cons, ih, mem_keys_add, or_assoc, List.exists_mem_cons_iff, eq_comm]
  rw [ofOccurrences, hfold]
  simp [empty]

theorem perm_ordered (s : KeySet) (isSorted : Bool) : (s.ordered isSorted).Perm s.unique := by
  rw [ordered]
  split
  · exact Text.perm_sortBy _ _
  · exact List.Perm.refl _

end Localization.KeySet

/-! ## Repeats -/

namespace Localization.KeySet

variable {occurrences : List Occurrence}

/-- Whether a key occurs before a position. -/
def occursBefore (occurrences : List Occurrence) (position : Nat) (key : String) : Bool :=
  (occurrences.take position).any fun o => o.key == key

/-- The occurrences that come first with their keys. -/
def firsts (occurrences : List Occurrence) : List Occurrence :=
  (occurrences.zipIdx.filter fun o => !occursBefore occurrences o.2 o.1.key).map Prod.fst

/-- The occurrences of keys that occur before. -/
def laters (occurrences : List Occurrence) : List Occurrence :=
  (occurrences.zipIdx.filter fun o => occursBefore occurrences o.2 o.1.key).map Prod.fst

/-- A set is made of the first occurrences of different keys, and of all later occurrences. -/
structure Covers (s : KeySet) (occurrences : List Occurrence) : Prop where
  unique : s.unique = firsts occurrences
  repeats : s.repeats = laters occurrences
  nodup : (s.unique.map Occurrence.key).Nodup
  perm : (s.unique ++ s.repeats).Perm occurrences

theorem occursBefore_append {position : Nat} (h : position ≤ occurrences.length) (o : Occurrence)
    (key : String) :
    occursBefore (occurrences ++ [o]) position key = occursBefore occurrences position key := by
  rw [occursBefore, List.take_append_of_le_length h, occursBefore]

/-- What is kept of the positions of a list with one more occurrence. -/
theorem filter_zipIdx_append (keep : Bool → Bool) (o : Occurrence) :
    (((occurrences ++ [o]).zipIdx.filter fun p =>
        keep (occursBefore (occurrences ++ [o]) p.2 p.1.key)).map Prod.fst) =
      ((occurrences.zipIdx.filter fun p => keep (occursBefore occurrences p.2 p.1.key)).map Prod.fst) ++
        (if keep (occursBefore occurrences occurrences.length o.key) then [o] else []) := by
  have hold : ∀ p ∈ occurrences.zipIdx,
      keep (occursBefore (occurrences ++ [o]) p.2 p.1.key) =
        keep (occursBefore occurrences p.2 p.1.key) := by
    intro p hp
    rw [occursBefore_append (le_of_lt (List.snd_lt_of_mem_zipIdx hp))]
  rw [List.zipIdx_append, List.filter_append, List.filter_congr hold, List.map_append,
    List.zipIdx_singleton, List.filter_singleton, zero_add, occursBefore_append le_rfl]
  cases keep (occursBefore occurrences occurrences.length o.key) with
  | false => rfl
  | true => rfl

theorem occursBefore_length_iff {key : String} :
    occursBefore occurrences occurrences.length key = true ↔
      (ofOccurrences occurrences).contains key = true := by
  rw [contains_iff, mem_keys_ofOccurrences, occursBefore, List.take_length, List.any_eq_true]
  simp

theorem ofOccurrences_eq (occurrences : List Occurrence) :
    ofOccurrences occurrences = ⟨firsts occurrences, laters occurrences⟩ := by
  induction occurrences using List.reverseRecOn with
  | nil => rfl
  | append_singleton rest o ih =>
      have hadd : ofOccurrences (rest ++ [o]) = (ofOccurrences rest).add o := by
        rw [ofOccurrences, List.foldl_append]
        rfl
      have hfirsts : firsts (rest ++ [o]) = firsts rest ++ _ := filter_zipIdx_append not o
      have hlaters : laters (rest ++ [o]) = laters rest ++ _ := filter_zipIdx_append id o
      rw [hadd, add, hfirsts, hlaters, ih]
      by_cases h : occursBefore rest rest.length o.key = true
      · rw [if_pos (ih ▸ occursBefore_length_iff.mp h)]
        simp [h]
      · rw [if_neg (ih ▸ fun hcontains => h (occursBefore_length_iff.mpr hcontains))]
        simp [h]

theorem firsts_append_laters_perm (occurrences : List Occurrence) :
    (firsts occurrences ++ laters occurrences).Perm occurrences := by
  have hparts := (List.filter_append_perm
    (fun o => !occursBefore occurrences o.2 o.1.key) occurrences.zipIdx).map Prod.fst
  rw [List.map_append, List.zipIdx_map_fst] at hparts
  simpa only [firsts, laters, Bool.not_not] using hparts

theorem covers_ofOccurrences (occurrences : List Occurrence) :
    Covers (ofOccurrences occurrences) occurrences where
  unique := by rw [ofOccurrences_eq]
  repeats := by rw [ofOccurrences_eq]
  nodup := nodup_keys_ofOccurrences occurrences
  perm := by
    rw [ofOccurrences_eq]
    exact firsts_append_laters_perm occurrences

variable {others : List Occurrence}

/-- Occurrences in another order have the same keys. -/
theorem perm_keys_ofOccurrences (h : occurrences.Perm others) :
    ((ofOccurrences occurrences).unique.map Occurrence.key).Perm
      ((ofOccurrences others).unique.map Occurrence.key) := by
  refine (List.perm_ext_iff_of_nodup (nodup_keys_ofOccurrences _) (nodup_keys_ofOccurrences _)).mpr ?_
  intro key
  rw [mem_keys_ofOccurrences, mem_keys_ofOccurrences]
  exact exists_congr fun o => and_congr_left fun _ => h.mem_iff

/-- Occurrences in another order have as many repeats. -/
theorem length_repeats_ofOccurrences (h : occurrences.Perm others) :
    (ofOccurrences occurrences).repeats.length = (ofOccurrences others).repeats.length := by
  have hsame := (perm_keys_ofOccurrences h).length_eq
  have hfirst := (covers_ofOccurrences occurrences).perm.length_eq
  have hsecond := (covers_ofOccurrences others).perm.length_eq
  rw [List.length_map, List.length_map] at hsame
  rw [List.length_append] at hfirst hsecond
  have hall := h.length_eq
  omega

theorem mem_of_mem_unique {o : Occurrence} (h : o ∈ (ofOccurrences occurrences).unique) :
    o ∈ occurrences :=
  (covers_ofOccurrences occurrences).perm.mem_iff.mp (List.mem_append_left _ h)

end Localization.KeySet
