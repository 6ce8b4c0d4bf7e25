import Localization.Proofs.Command.KeyFile

/-!
One file for generated and for extracted keys. Generated keys are added to a key file just as a set of the same
keys is merged into it without sorting, and adding them once more changes nothing. Main statement:
`updateKeyFile_eq_merge`.
-/

namespace Localization

variable {keys : KeyMap} {set : KeySet} {existing : Option Dictionary} {w after : Workspace}
  {path : String}

/-- A set has the keys of a map in their order, each with its text as the default. -/
def KeySet.Mirrors (set : KeySet) (keys : KeyMap) : Prop :=
  set.unique.map (fun o => (o.key, o.default)) = keys.entries.map fun e => (e.1, some e.2)

namespace Dictionary

theorem textsOf_of_mirrors (h : set.Mirrors keys) :
    set.unique.map (fun o => (o.key, o.initialText)) = keys.entries := by
  have htexts := congrArg (List.map fun p : String × Option String => (p.1, p.2.getD p.1)) h
  simpa [Occurrence.initialText, Function.comp_def] using htexts

/-- Both ways of adding keys agree on the entries, their order and the number of new ones. -/
theorem mergeGenerated_eq_merge (h : set.Mirrors keys) (existing : Option Dictionary) :
    mergeGenerated existing keys = merge existing set false := by
  rw [merge_unsorted, addAll_eq_addTexts, textsOf_of_mirrors h]
  rfl

theorem isReadable_getD_of_read? (h : read? w path = .ok existing) :
    (existing.getD OrderedMap.empty).IsReadable := by
  cases existing with
  | none => exact isReadable_empty
  | some d => exact isReadable_of_read? h

theorem IsReadable.merge (h : (existing.getD OrderedMap.empty).IsReadable) (set : KeySet)
    (isSorted : Bool) : (Dictionary.merge existing set isSorted).1.IsReadable :=
  merge_induction h (fun _ key text hd => hd.insert key text) (fun _ hd => hd.sorted) set isSorted

theorem Exact.merge (h : (existing.getD OrderedMap.empty).Exact) (set : KeySet)
    (isSorted : Bool) : (Dictionary.merge existing set isSorted).1.Exact :=
  merge_induction h (fun _ key text hd => hd.insert key text) (fun _ hd => hd.sorted) set isSorted

/-- A dictionary with the keys of a merged one lacks none of those that were merged. -/
theorem merge_of_keys_eq {d : Dictionary} (h : d.keys = (merge existing set false).1.keys) :
    merge (some d) set false = (d, 0) := by
  rw [merge_unsorted, Option.getD_some]
  refine addAll_of_contains fun o ho => ?_
  rw [h]
  exact mem_keys_merge existing false ho

end Dictionary

theorem updateKeyFile_eq (hread : Dictionary.read? w path = .ok existing) (hset : set.Mirrors keys) :
    updateKeyFile w path keys false =
      (((Dictionary.merge existing set false).1.write w path).1,
        ((Dictionary.merge existing set false).1.write w path).2.map fun _ =>
          ⟨path, keys.size, (Dictionary.merge existing set false).2⟩) := by
  rw [updateKeyFile, hread]
  dsimp only
  rw [Dictionary.mergeGenerated_eq_merge hset, if_neg Bool.false_ne_true]
  rcases (Dictionary.merge existing set false).1.write w path with ⟨written, _ | _⟩
  · rfl
  · rfl

theorem updateKeyFile_dry_eq (hread : Dictionary.read? w path = .ok existing)
    (hset : set.Mirrors keys) : updateKeyFile w path keys true =
      (w, .ok ⟨path, keys.size, (Dictionary.merge existing set false).2⟩) := by
  rw [updateKeyFile, hread]
  dsimp only
  rw [Dictionary.mergeGenerated_eq_merge hset, if_pos rfl]

theorem exists_updateKeyFile_again (hread : Dictionary.read? w path = .ok existing)
    (hset : set.Mirrors keys)
    (hwrite : (Dictionary.merge existing set false).1.write w path = (after, .ok ())) :
    ∃ last, updateKeyFile after path keys false = (last, .ok ⟨path, keys.size, 0⟩) := by
  obtain ⟨place, hwrote⟩ := Workspace.exists_place_of_save hwrite
  have htext := hwrote.readText
  have hreadable := (Dictionary.isReadable_getD_of_read? hread).merge set false
  -- Floats may be read back as others, but the keys are read as they were written.
  obtain ⟨d, hd, hsame⟩ := hreadable.exists_read? htext
  obtain ⟨last, hlast⟩ := Workspace.exists_save_of_readText htext d.render.toList
  have hsave : d.write after path = (last, .ok ()) := hlast
  refine ⟨last, ?_⟩
  rw [updateKeyFile_eq hd hset, Dictionary.merge_of_keys_eq hsame.keys, hsave]
  rfl

/-- Without floats the file is read as it was written, so that it is written as it is. -/
theorem updateKeyFile_again (hread : Dictionary.read? w path = .ok existing) (hset : set.Mirrors keys)
    (hfloat : (existing.getD OrderedMap.empty).hasFloat = false)
    (hwrite : (Dictionary.merge existing set false).1.write w path = (after, .ok ())) :
    Dictionary.read? after path = .ok (some (Dictionary.merge existing set false).1) ∧
      updateKeyFile after path keys false = (after, .ok ⟨path, keys.size, 0⟩) := by
  obtain ⟨place, hwrote⟩ := Workspace.exists_place_of_save hwrite
  have hexact := (Dictionary.exact_getD_of_read? hread hfloat).merge set false
  have hd := hexact.read? hwrote.readText
  have hsave : (Dictionary.merge existing set false).1.write after path = (after, .ok ()) :=
    Workspace.save_again hwrite (.refl after) hwrote.readText
  refine ⟨hd, ?_⟩
  rw [updateKeyFile_eq hd hset, Dictionary.merge_of_keys_eq rfl, hsave]
  rfl

/-- A key file, if there is one, and generated keys: an update writes the dictionary that merging a set of the
same keys without sorting gives, and tells how many keys that added; a dry run tells the same. A file that is
there can be written. Once an update has been written, the next one adds no key, and without floats among the
values it leaves the whole tree as it is. -/
theorem updateKeyFile_eq_merge (hread : Dictionary.read? w path = .ok existing)
    (hset : set.Mirrors keys) {merged : Dictionary} {added : Nat}
    (hmerge : Dictionary.merge existing set false = (merged, added)) :
    updateKeyFile w path keys false =
        ((merged.write w path).1, (merged.write w path).2.map fun _ => ⟨path, keys.size, added⟩) ∧
      updateKeyFile w path keys true = (w, .ok ⟨path, keys.size, added⟩) ∧
      (existing.isSome = true → ∃ after, merged.write w path = (after, .ok ())) ∧
      ∀ after told, updateKeyFile w path keys false = (after, .ok told) →
        told = ⟨path, keys.size, added⟩ ∧ after.readText path = .ok merged.render.toList ∧
        (∃ last, updateKeyFile after path keys false = (last, .ok ⟨path, keys.size, 0⟩)) ∧
        ((existing.getD OrderedMap.empty).hasFloat = false →
          Dictionary.read? after path = .ok (some merged) ∧
            updateKeyFile after path keys false = (after, .ok ⟨path, keys.size, 0⟩)) := by
  obtain ⟨rfl, rfl⟩ : (Dictionary.merge existing set false).1 = merged ∧
      (Dictionary.merge existing set false).2 = added := by
    rw [hmerge]
    exact ⟨rfl, rfl⟩
  refine ⟨updateKeyFile_eq hread hset, updateKeyFile_dry_eq hread hset, ?_, ?_⟩
  · intro hsome
    obtain ⟨d, rfl⟩ := Option.isSome_iff_exists.mp hsome
    obtain ⟨text, htext, -⟩ := Dictionary.read?_eq_ok_some_iff.mp hread
    exact Workspace.exists_save_of_readText htext _
  · intro after told hupdate
    obtain ⟨found, hfound, htold, hwrite⟩ := updateKeyFile_eq_ok_iff.mp hupdate
    obtain rfl : found = existing := Except.ok.inj (hfound.symm.trans hread)
    rw [Dictionary.mergeGenerated_eq_merge hset] at htold hwrite
    obtain ⟨place, hwrote⟩ := Workspace.exists_place_of_save hwrite
    exact ⟨htold, hwrote.readText, exists_updateKeyFile_again hread hset hwrite,
      fun hfloat => updateKeyFile_again hread hset hfloat hwrite⟩

/-- A key file that has one of two generated keys. -/
def welcomeExample : Workspace where
  tree := .directory [("common.json",
    .file (.text "\x7b\"welcome\": \"Welcome!\", \"plural\": [1, null]\x7d".toList))]
  current := []

/-- The keys as wrapping generates them. -/
def welcomeKeys : KeyMap :=
  .ofList [("goodbye", "안녕히 가세요"), ("welcome", "환영합니다")]

/-- The same keys as extraction finds them. -/
def welcomeSet : KeySet :=
  .ofOccurrences [⟨"goodbye", some "안녕히 가세요", "a.tsx", 1, 1⟩, ⟨"welcome", some "환영합니다", "a.tsx", 2, 1⟩,
    ⟨"goodbye", none, "b.tsx", 1, 1⟩]

/-- The key that is there keeps its text, and the other one comes last. -/
theorem updateKeyFile_eq_merge_of_welcome : ∃ existing merged after,
    Dictionary.read? welcomeExample "common.json" = .ok (some existing) ∧
      welcomeSet.Mirrors welcomeKeys ∧ Dictionary.merge (some existing) welcomeSet false = (merged, 1) ∧
      merged.keys = ["welcome", "plural", "goodbye"] ∧ existing.hasFloat = false ∧
      updateKeyFile welcomeExample "common.json" welcomeKeys false =
        (after, .ok ⟨"common.json", 2, 1⟩) ∧
      after.readText "common.json" = .ok merged.render.toList ∧
      updateKeyFile after "common.json" welcomeKeys false = (after, .ok ⟨"common.json", 2, 0⟩) := by
  have hread : Dictionary.read? welcomeExample "common.json" = .ok (some
      ⟨[("welcome", .string "Welcome!"), ("plural", .array [.number (.natural 1), .null])]⟩) := by
    rfl
  have hset : welcomeSet.Mirrors welcomeKeys := by
    unfold KeySet.Mirrors
    decide
  obtain ⟨hupdate, -, hwritten, hagain⟩ := updateKeyFile_eq_merge hread hset rfl
  obtain ⟨after, hwrite⟩ := hwritten rfl
  rw [hwrite] at hupdate
  obtain ⟨-, htext, -, hsame⟩ := hagain after _ hupdate
  exact ⟨_, _, after, hread, hset, rfl, by decide, rfl, hupdate, htext, (hsame rfl).2⟩

end Localization
