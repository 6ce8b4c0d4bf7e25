import Localization.Proofs.Component.Wrap
import Localization.Proofs.Key.Generated
import Localization.Proofs.OrderedMap
import Mathlib.Data.List.Dedup

/-!
The keys that wrapping records. A map of keys belongs to the calls that gave them: through the literals of
a component and the components of a module it has each key once, with the text of the last call that gave
it. Main statement: `records_wrapModule`.
-/

namespace Localization

variable {calls later : List (String × String)} {keys more : KeyMap}

namespace KeyGenerator

theorem IsLast.append {call : String × String} (h : IsLast call calls)
    (hlater : ∀ other ∈ later, other.2 ≠ call.2) : IsLast call (calls ++ later) := by
  obtain ⟨before, after, rfl, hafter⟩ := h
  refine ⟨before, after ++ later, by simp, fun other hother => ?_⟩
  rcases List.mem_append.mp hother with hmem | hmem
  · exact hafter other hmem
  · exact hlater other hmem

theorem IsLast.behind {call : String × String} (h : IsLast call later)
    (calls : List (String × String)) : IsLast call (calls ++ later) := by
  obtain ⟨before, after, rfl, hafter⟩ := h
  exact ⟨calls ++ before, after, by simp, hafter⟩

theorem IsLast.mem {call : String × String} (h : IsLast call calls) : call ∈ calls := by
  obtain ⟨before, after, rfl, -⟩ := h
  simp

end KeyGenerator

open KeyGenerator (IsLast)

/-- A map has the keys that some calls gave, each with the text of the last call that gave it. -/
structure KeyMap.Records (keys : KeyMap) (calls : List (String × String)) : Prop where
  nodup : keys.keys.Nodup
  last : ∀ key text, keys.get? key = some text → IsLast (text, key) calls
  complete : ∀ call ∈ calls, call.2 ∈ keys.keys

namespace KeyMap

theorem records_empty : Records OrderedMap.empty [] :=
  ⟨List.nodup_nil, nofun, nofun⟩

/-- A key that the later calls did not give is not in their map. -/
theorem Records.notMem (h : more.Records later) {key : String} (hkey : more.get? key = none) :
    ∀ call ∈ later, call.2 ≠ key := by
  rintro call hcall rfl
  exact OrderedMap.get?_eq_none_iff.mp hkey (h.complete call hcall)

theorem Records.extend (h : keys.Records calls) (hmore : more.Records later) :
    Records (OrderedMap.extend keys more) (calls ++ later) := by
  refine ⟨OrderedMap.nodup_keys_extend h.nodup more, fun key text hget => ?_, fun call hcall => ?_⟩
  · rw [OrderedMap.get?_extend hmore.nodup] at hget
    cases hkey : more.get? key with
    | some found =>
        rw [hkey, Option.some_or, Option.some.injEq] at hget
        subst hget
        exact (hmore.last key found hkey).behind calls
    | none =>
        rw [hkey, Option.none_or] at hget
        exact (h.last key text hget).append (hmore.notMem hkey)
  · rw [OrderedMap.mem_keys_iff, ← Option.isSome_iff_exists, OrderedMap.get?_extend hmore.nodup,
      Option.isSome_or, Bool.or_eq_true, Option.isSome_iff_exists, Option.isSome_iff_exists,
      ← OrderedMap.mem_keys_iff, ← OrderedMap.mem_keys_iff]
    rcases List.mem_append.mp hcall with hmem | hmem
    · exact .inr (h.complete call hmem)
    · exact .inl (hmore.complete call hmem)

theorem records_singleton (text key : String) :
    Records (OrderedMap.empty.insert key text) [(text, key)] := by
  refine ⟨List.nodup_singleton key, fun other found hget => ?_, fun call hcall => ?_⟩
  · rw [OrderedMap.get?_insert] at hget
    split at hget
    · next hkey =>
        obtain rfl := Option.some.inj hget
        exact ⟨[], [], by rw [hkey]; rfl, nofun⟩
    · contradiction
  · rw [List.mem_singleton.mp hcall]
    exact List.mem_singleton_self key

/-- One more call. -/
theorem Records.insert (h : keys.Records calls) (text key : String) :
    Records (OrderedMap.insert keys key text) (calls ++ [(text, key)]) :=
  h.extend (records_singleton text key)

/-- A map with the keys of some calls has as many of them as the calls gave. -/
theorem Records.keys_perm (h : keys.Records calls) : keys.keys.Perm (calls.map Prod.snd).dedup := by
  refine (List.perm_ext_iff_of_nodup h.nodup (List.nodup_dedup _)).mpr fun key => ?_
  rw [List.mem_dedup]
  constructor
  · intro hkey
    obtain ⟨text, hget⟩ := OrderedMap.mem_keys_iff.mp hkey
    exact List.mem_map_of_mem (h.last key text hget).mem
  · intro hkey
    obtain ⟨call, hcall, rfl⟩ := List.mem_map.mp hkey
    exact h.complete call hcall

end KeyMap

/-- The text and the key of a call that took the place of a text. -/
def Replacement.call (r : Replacement) : String × String :=
  (r.text, r.key)

/-- The keys of literals are recorded one after the other. -/
theorem records_assignKeys {g : KeyGenerator} (hg : g.enabled = true) (source : List Char)
    (h : keys.Records calls) (literals : List Literal) :
    (assignKeys g keys literals).2.Records
      (calls ++ ((assignKeys g keys literals).1.map fun l =>
        replacementOf source l.1 l.2).map Replacement.call) := by
  induction literals generalizing keys calls with
  | nil => simpa [assignKeys] using h
  | cons literal rest ih =>
      have hfirst := ih (h.insert literal.text (g.generatedKey literal.text))
      simp only [assignKeys, KeyGenerator.keyFor, hg, if_true, List.map_cons]
      rw [List.append_assoc] at hfirst
      exact hfirst

/-- The calls that a wrapping puts in the place of texts, each as the text and the key, in its order. -/
def Changes.lookups (c : Changes) : List (String × String) :=
  c.replacements.map Replacement.call

theorem Changes.records_wrapCandidate {o : WrapOptions} (ho : o.generator.enabled = true)
    (source : List Char) {changes : Changes} (h : changes.keys.Records changes.lookups) (f : Found) :
    (changes.wrapCandidate o source f).keys.Records (changes.wrapCandidate o source f).lookups := by
  rw [wrapCandidate]
  split
  · exact h
  · dsimp only [Changes.lookups]
    rw [List.map_append]
    exact records_assignKeys ho source h _

theorem records_wrapModule {o : WrapOptions} (ho : o.generator.enabled = true) (source : List Char)
    (module : Source.Node) :
    (wrapModule o source module).keys.Records (wrapModule o source module).lookups := by
  refine wrapModule_induction (P := fun c _ => c.keys.Records c.lookups) KeyMap.records_empty ?_
  exact fun c found f _ _ h => Changes.records_wrapCandidate ho source h f

end Localization
