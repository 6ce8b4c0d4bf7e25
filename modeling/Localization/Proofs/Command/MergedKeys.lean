import Localization.Proofs.Command.KeyFile

/-!
The keys of several files in one map. Each file has a map of its own; put together in the order of the files
they are the map that records every key of every file, one after the other. A key stands where it was
recorded first and has the text that was recorded last. Main statement: `merged_recorded`; for a run
`WrapPlan.keys_eq_ofList`.
-/

namespace Localization

namespace KeyMap

variable {keys : KeyMap} {pairs : List (String × String)}

/-- The maps of several files, put together in the order of the files. -/
def merged (maps : List KeyMap) : KeyMap :=
  maps.foldl OrderedMap.extend OrderedMap.empty

/-- A map has the keys of some pairs in the order in which they came first, each with the text that came
last. -/
structure Collects (keys : KeyMap) (pairs : List (String × String)) : Prop where
  mem_iff : ∀ key, key ∈ keys.keys ↔ key ∈ pairs.map Prod.fst
  inOrder : keys.keys.Pairwise fun a b => (pairs.map Prod.fst).idxOf a < (pairs.map Prod.fst).idxOf b
  last : ∀ key, keys.get? key = pairs.reverse.lookup key

theorem collects_empty : Collects OrderedMap.empty [] :=
  ⟨fun _ => Iff.rfl, List.Pairwise.nil, fun _ => rfl⟩

/-- One more pair leaves every key where it was and changes the text of its own. -/
theorem Collects.insert (h : keys.Collects pairs) (e : String × String) :
    Collects (OrderedMap.insert keys e.1 e.2) (pairs ++ [e]) := by
  have hpairs : (pairs ++ [e]).map Prod.fst = pairs.map Prod.fst ++ [e.1] := List.map_append
  refine ⟨fun key => ?_, ?_, fun key => ?_⟩
  · rw [OrderedMap.mem_keys_insert, hpairs, List.mem_append, List.mem_singleton, h.mem_iff, or_comm]
  · have hfront : keys.keys.Pairwise fun a b =>
        (pairs.map Prod.fst ++ [e.1]).idxOf a < (pairs.map Prod.fst ++ [e.1]).idxOf b := by
      refine h.inOrder.imp_of_mem fun ha hb hlt => ?_
      rwa [List.idxOf_append_of_mem ((h.mem_iff _).mp ha), List.idxOf_append_of_mem ((h.mem_iff _).mp hb)]
    rw [hpairs]
    by_cases hkey : e.1 ∈ keys.keys
    · have hkeys : (OrderedMap.insert keys e.1 e.2).keys = keys.keys :=
        OrderedMap.keys_insertEntry_of_mem hkey
      rwa [hkeys]
    · have hkeys : (OrderedMap.insert keys e.1 e.2).keys = keys.keys ++ [e.1] := by
        rw [OrderedMap.keys, OrderedMap.insert, OrderedMap.insertEntry_of_notMem hkey, List.map_append]
        rfl
      rw [hkeys, List.pairwise_append]
      refine ⟨hfront, List.pairwise_singleton _ _, fun key hmem other hother => ?_⟩
      -- What was there comes among the pairs that were there, and the new key behind all of them.
      have hfirst : key ∈ pairs.map Prod.fst := (h.mem_iff key).mp hmem
      have hlast : e.1 ∉ pairs.map Prod.fst := mt (h.mem_iff e.1).mpr hkey
      rw [List.mem_singleton.mp hother, List.idxOf_append_of_mem hfirst, List.idxOf_append_of_notMem hlast]
      exact Nat.lt_add_right _ (List.idxOf_lt_length_of_mem hfirst)
  · rw [OrderedMap.get?_insert, List.reverse_append, List.reverse_singleton, List.singleton_append,
      OrderedMap.lookup_cons_eq, h.last]

theorem collects_ofList (pairs : List (String × String)) : Collects (OrderedMap.ofList pairs) pairs := by
  induction pairs using List.reverseRecOn with
  | nil => exact collects_empty
  | append_singleton pairs e ih =>
      rw [OrderedMap.ofList_concat]
      exact ih.insert e

theorem merged_ofList (files : List (List (String × String))) :
    merged (files.map OrderedMap.ofList) = OrderedMap.ofList files.flatten := by
  induction files using List.reverseRecOn with
  | nil => rfl
  | append_singleton files pairs ih =>
      rw [List.flatten_concat, OrderedMap.ofList_append, ← ih, merged, List.map_append, List.foldl_append]
      rfl

/-- The maps of several files, put together in their order, are the map of all their pairs in sequence. In it
each key stands where it came first and has the text that came last. Putting maps together is associative,
and the empty map changes nothing, wherever each key stands once as in every recorded map. -/
theorem merged_recorded (files : List (List (String × String))) :
    merged (files.map OrderedMap.ofList) = OrderedMap.ofList files.flatten ∧
    (merged (files.map OrderedMap.ofList)).Collects files.flatten ∧
    (merged (files.map OrderedMap.ofList)).keys.Nodup ∧
    (∀ a b c : KeyMap, b.keys.Nodup → (a.extend b).extend c = a.extend (b.extend c)) ∧
    (∀ m : KeyMap, m.extend OrderedMap.empty = m) ∧
    ∀ m : KeyMap, m.keys.Nodup → OrderedMap.empty.extend m = m := by
  rw [merged_ofList]
  refine ⟨rfl, collects_ofList _, OrderedMap.nodup_keys_ofList _, fun a b c hb => ?_, fun m => ?_,
    fun m hm => ?_⟩
  · exact OrderedMap.extend_assoc hb a c
  · exact OrderedMap.extend_empty m
  · exact OrderedMap.empty_extend hm

/-- Two files with a key in common: it stays where the first file put it, with the text of the second. -/
theorem merged_recorded_of_shared_key :
    (merged ([[("x", "1"), ("y", "2")], [("x", "3"), ("z", "4")]].map OrderedMap.ofList)).entries =
        [("x", "3"), ("y", "2"), ("z", "4")] ∧
    (merged ([[("x", "1"), ("y", "2")], [("x", "3"), ("z", "4")]].map OrderedMap.ofList)).Collects
      [("x", "1"), ("y", "2"), ("x", "3"), ("z", "4")] ∧
    ((OrderedMap.ofList [("x", "1"), ("y", "2")]).extend
        (OrderedMap.ofList [("x", "3"), ("z", "4")])).extend (OrderedMap.ofList [("y", "5")]) =
      (OrderedMap.ofList [("x", "1"), ("y", "2")]).extend
        ((OrderedMap.ofList [("x", "3"), ("z", "4")]).extend (OrderedMap.ofList [("y", "5")])) ∧
    OrderedMap.empty.extend (OrderedMap.ofList [("x", "3"), ("z", "4")]) =
      OrderedMap.ofList [("x", "3"), ("z", "4")] := by
  obtain ⟨-, hcollects, -, hassoc, -, hempty⟩ :=
    merged_recorded [[("x", "1"), ("y", "2")], [("x", "3"), ("z", "4")]]
  exact ⟨by decide, hcollects, hassoc _ _ _ (by decide), hempty _ (by decide)⟩

end KeyMap

/-! ## Runs -/

variable {keys : KeyMap} {pairs : List (String × String)}

/-- The keys of literals are inserted one after the other. -/
theorem assignKeys_eq_ofList {g : KeyGenerator} (hg : g.enabled = true) (source : List Char)
    (h : keys = OrderedMap.ofList pairs) (literals : List Literal) :
    (assignKeys g keys literals).2 = OrderedMap.ofList (pairs ++
      (((assignKeys g keys literals).1.map fun l => replacementOf source l.1 l.2).map
        Replacement.call).map Prod.swap) := by
  induction literals generalizing keys pairs with
  | nil => rw [h, assignKeys, List.map_nil, List.map_nil, List.map_nil, List.append_nil]
  | cons literal rest ih =>
      have hkeys : keys.insert (g.generatedKey literal.text) literal.text =
          OrderedMap.ofList (pairs ++ [(g.generatedKey literal.text, literal.text)]) := by
        rw [h, OrderedMap.ofList_concat]
      have hfirst := ih hkeys
      simp only [assignKeys, KeyGenerator.keyFor, hg, if_true, List.map_cons]
      rw [List.append_assoc] at hfirst
      exact hfirst

theorem keys_wrapModule {o : WrapOptions} (ho : o.generator.enabled = true) (source : List Char)
    (module : Source.Node) : (wrapModule o source module).keys =
      OrderedMap.ofList ((wrapModule o source module).lookups.map Prod.swap) := by
  refine wrapModule_induction (P := fun c _ => c.keys = OrderedMap.ofList (c.lookups.map Prod.swap)) rfl ?_
  intro c found f hf hchanges h
  rw [Changes.wrapCandidate]
  split
  · exact h
  · dsimp only [Changes.lookups] at h ⊢
    rw [List.map_append, List.map_append]
    exact assignKeys_eq_ofList ho source h _

/-- A run records the keys of all calls as if they were given one after the other, through all files. -/
theorem WrapPlan.keys_eq_ofList {o : WrapOptions} (ho : o.generator.enabled = true)
    (sources : List SourceText) :
    (ofSources o sources).keys = OrderedMap.ofList ((ofSources o sources).lookups.map Prod.swap) := by
  have hfile : ∀ t ∈ (ofSources o sources).wrapped,
      t.2.changes.keys = OrderedMap.ofList (t.2.changes.lookups.map Prod.swap) := by
    intro t ht
    obtain ⟨source, -, -, hwrap⟩ := mem_wrapped_ofSources.mp ht
    obtain ⟨module, -, -, hchanges, -⟩ := wrapSource?_eq_some hwrap
    rw [hchanges]
    exact keys_wrapModule ho source.text module
  calc (ofSources o sources).keys
    _ = KeyMap.merged ((ofSources o sources).wrapped.map fun t => t.2.changes.keys) := by
      rw [keys, KeyMap.merged, List.foldl_map]
    _ = KeyMap.merged (((ofSources o sources).wrapped.map fun t =>
          t.2.changes.lookups.map Prod.swap).map OrderedMap.ofList) := by
      rw [List.map_map]
      exact congrArg KeyMap.merged (List.map_congr_left hfile)
    _ = OrderedMap.ofList ((ofSources o sources).lookups.map Prod.swap) := by
      rw [KeyMap.merged_ofList, lookups, List.map_flatMap, List.flatMap_def]

end Localization
