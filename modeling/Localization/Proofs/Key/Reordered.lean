import Localization.Extraction
import Localization.Proofs.Command.Repeated
import Localization.Proofs.Dictionary.Merge
import Localization.Proofs.Key.Unique
import Mathlib.Data.List.Perm.Basic

/-!
Extraction from the same files in another order. The keys, the number of repeats and the skipped files are
the same. Which occurrence of a key comes first is not, so that a dictionary may show another default text
for a key that it lacked. Main statement: `ofFiles_perm`.
-/

namespace Localization

namespace Dictionary

variable {existing : Option Dictionary} {occurrences others : List Occurrence}

/-- The texts that come into a dictionary with the keys of a set. -/
def textsOf (keys : KeySet) : List (String × String) :=
  keys.unique.map fun o => (o.key, o.initialText)

theorem keys_textsOf (keys : KeySet) :
    (textsOf keys).map Prod.fst = keys.unique.map Occurrence.key := by
  rw [textsOf, List.map_map]
  rfl

theorem merge_sorted_eq {keys : KeySet} (h : (keys.unique.map Occurrence.key).Nodup) :
    merge existing keys true =
      (sorted ⟨(existing.getD OrderedMap.empty).entries ++
          (existing.getD OrderedMap.empty).newEntries (textsOf keys)⟩,
        ((existing.getD OrderedMap.empty).newEntries (textsOf keys)).length) := by
  rw [← keys_textsOf] at h
  rw [merge_sorted, addAll_eq_addTexts]
  change (sorted (addTexts _ (textsOf keys)).1, (addTexts _ (textsOf keys)).2) = _
  rw [addTexts_eq _ h, Nat.zero_add]

theorem nodup_keys_merge_sorted (hexisting : (existing.getD OrderedMap.empty).keys.Nodup)
    (occurrences : List Occurrence) :
    (merge existing (.ofOccurrences occurrences) true).1.keys.Nodup := by
  have hkeys := KeySet.nodup_keys_ofOccurrences occurrences
  rw [merge_sorted_eq hkeys]
  refine ((perm_sorted _).map Prod.fst).nodup_iff.mpr (nodup_keys_added hexisting ?_)
  rw [keys_textsOf]
  exact hkeys

/-- A value in a merged dictionary was there, or it is the initial text of an occurrence of its key,
which was not there. -/
theorem get?_merge_sorted_cases (hexisting : (existing.getD OrderedMap.empty).keys.Nodup) {key : String}
    {value : Json} (h : (merge existing (.ofOccurrences occurrences) true).1.get? key = some value) :
    (existing.getD OrderedMap.empty).get? key = some value ∨
      key ∉ (existing.getD OrderedMap.empty).keys ∧
        ∃ o ∈ occurrences, o.key = key ∧ value = .string o.initialText := by
  have hmem := (OrderedMap.lookup_eq_some_iff_mem (nodup_keys_merge_sorted hexisting _)).mp h
  rw [merge_sorted_eq (KeySet.nodup_keys_ofOccurrences _), (perm_sorted _).mem_iff] at hmem
  rcases List.mem_append.mp hmem with hold | hnew
  · exact .inl ((OrderedMap.lookup_eq_some_iff_mem hexisting).mpr hold)
  · obtain ⟨t, ht, hlacks, heq⟩ := mem_newEntries.mp hnew
    obtain ⟨o, ho, rfl⟩ := List.mem_map.mp ht
    obtain ⟨rfl, rfl⟩ := Prod.mk.inj heq
    exact .inr ⟨hlacks, o, KeySet.mem_of_mem_unique ho, rfl, rfl⟩

theorem keys_merge_sorted_perm (h : occurrences.Perm others) :
    (merge existing (.ofOccurrences occurrences) true).1.keys =
      (merge existing (.ofOccurrences others) true).1.keys := by
  have hnew := (KeySet.perm_keys_ofOccurrences h).filter
    fun key => !(existing.getD OrderedMap.empty).contains key
  have hkeys : ∀ l : List Occurrence, ((merge existing (.ofOccurrences l) true).1.keys).Perm
      ((existing.getD OrderedMap.empty).keys ++ ((KeySet.ofOccurrences l).unique.map Occurrence.key).filter
        fun key => !(existing.getD OrderedMap.empty).contains key) := by
    intro l
    rw [merge_sorted_eq (KeySet.nodup_keys_ofOccurrences l)]
    refine ((perm_sorted _).map Prod.fst).trans ?_
    rw [List.map_append, keys_newEntries, keys_textsOf]
    rfl
  have hsorted : ∀ l : List Occurrence,
      (merge existing (.ofOccurrences l) true).1.keys.Pairwise (· ≤ ·) :=
    fun l => List.pairwise_map.mpr (Text.pairwise_sortBy Prod.fst _)
  exact List.Perm.eq_of_pairwise (fun _ _ _ _ => le_antisymm) (hsorted _) (hsorted _)
    (((hkeys _).trans (hnew.append_left _)).trans (hkeys _).symm)

theorem added_merge_sorted_perm (h : occurrences.Perm others) :
    (merge existing (.ofOccurrences occurrences) true).2 =
      (merge existing (.ofOccurrences others) true).2 := by
  have hnew := (KeySet.perm_keys_ofOccurrences h).filter
    fun key => !(existing.getD OrderedMap.empty).contains key
  have hcount : ∀ l : List Occurrence, (merge existing (.ofOccurrences l) true).2 =
      (((KeySet.ofOccurrences l).unique.map Occurrence.key).filter
        fun key => !(existing.getD OrderedMap.empty).contains key).length := by
    intro l
    rw [merge_sorted_eq (KeySet.nodup_keys_ofOccurrences l), ← keys_textsOf, ← keys_newEntries,
      List.length_map]
  rw [hcount, hcount, hnew.length_eq]

/-- The same occurrences in another order only matter for the text of a new key that stands beside
different default texts. -/
theorem exists_defaults_of_get?_ne (hexisting : (existing.getD OrderedMap.empty).keys.Nodup)
    (h : occurrences.Perm others) {key : String}
    (hne : (merge existing (.ofOccurrences occurrences) true).1.get? key ≠
      (merge existing (.ofOccurrences others) true).1.get? key) :
    key ∉ (existing.getD OrderedMap.empty).keys ∧
      ∃ o ∈ occurrences, ∃ o' ∈ occurrences, o.key = key ∧ o'.key = key ∧ o.default ≠ o'.default := by
  by_cases hkey : key ∈ (merge existing (.ofOccurrences occurrences) true).1.keys
  · obtain ⟨value, hvalue⟩ := OrderedMap.mem_keys_iff.mp hkey
    obtain ⟨other, hother⟩ := OrderedMap.mem_keys_iff.mp (keys_merge_sorted_perm h ▸ hkey)
    rcases get?_merge_sorted_cases hexisting hvalue with hold | ⟨hlacks, o, ho, rfl, rfl⟩
    · rcases get?_merge_sorted_cases hexisting hother with hold' | ⟨hlacks, -⟩
      · exact absurd (hvalue.trans (hold.symm.trans (hold'.trans hother.symm))) hne
      · exact absurd (OrderedMap.mem_keys_iff.mpr ⟨value, hold⟩) hlacks
    · rcases get?_merge_sorted_cases hexisting hother with hold | ⟨-, o', ho', hsame, rfl⟩
      · exact absurd (OrderedMap.mem_keys_iff.mpr ⟨other, hold⟩) hlacks
      · refine ⟨hlacks, o, ho, o', h.mem_iff.mpr ho', rfl, hsame, fun hdefault => hne ?_⟩
        rw [hvalue, hother, Occurrence.initialText, Occurrence.initialText, hdefault, hsame]
  · refine absurd ?_ hne
    rw [OrderedMap.get?_eq_none_iff.mpr hkey,
      OrderedMap.get?_eq_none_iff.mpr (keys_merge_sorted_perm h ▸ hkey)]

end Dictionary

theorem nodup_keys_of_existing? {p : OutputPlan} {w : Workspace} {path : String}
    {existing : Option Dictionary} (h : p.existing? w path = .ok existing) :
    (existing.getD OrderedMap.empty).keys.Nodup := by
  rw [OutputPlan.existing?] at h
  split at h
  · cases existing with
    | none => exact List.nodup_nil
    | some d =>
        obtain ⟨text, -, hparse⟩ := Dictionary.read?_eq_ok_some_iff.mp h
        exact (Json.inRange_of_parse? hparse).1
  · obtain rfl := Except.ok.inj h
    exact List.nodup_nil

/-- Two sorted dictionaries for one place. They have the same keys in the same order, and a value in which
they differ is the text of a new key that occurs with different default texts. -/
structure RendersAlike (w : Workspace) (p : OutputPlan) (occurrences : List Occurrence)
    (f f' : OutputFile) : Prop where
  path : f'.path = f.path
  added : f'.added = f.added
  dictionaries : ∃ (existing : Option Dictionary) (d d' : Dictionary),
    p.existing? w f.path = .ok existing ∧ f.contents = d.render.toList ∧
    f'.contents = d'.render.toList ∧ d.keys.Pairwise (· < ·) ∧ d'.keys = d.keys ∧
    ∀ key, d'.get? key ≠ d.get? key → key ∉ (existing.getD OrderedMap.empty).keys ∧
      ∃ o ∈ occurrences, ∃ o' ∈ occurrences, o.key = key ∧ o'.key = key ∧ o.default ≠ o'.default

theorem renderDictionary_perm {w : Workspace} {p : OutputPlan} {path : String} {f : OutputFile}
    {occurrences others : List Occurrence} (hsorted : p.isSorted = true) (h : occurrences.Perm others)
    (hrender : OutputPlan.renderDictionary { p with keys := .ofOccurrences occurrences } w path = .ok f) :
    ∃ f', OutputPlan.renderDictionary { p with keys := .ofOccurrences others } w path = .ok f' ∧
      RendersAlike w p occurrences f f' := by
  obtain ⟨existing, hexisting, rfl⟩ := OutputPlan.renderDictionary_eq_ok_iff.mp hrender
  have hnodup := nodup_keys_of_existing? hexisting
  refine ⟨_, OutputPlan.renderDictionary_eq_ok_iff.mpr ⟨existing, hexisting, rfl⟩, ?_⟩
  simp only [hsorted]
  refine ⟨rfl, (Dictionary.added_merge_sorted_perm h).symm, existing, _, _, hexisting, rfl, rfl, ?_,
    (Dictionary.keys_merge_sorted_perm h).symm, fun key hne => ?_⟩
  · have hle : (Dictionary.merge existing (.ofOccurrences occurrences) true).1.keys.Pairwise (· ≤ ·) :=
      List.pairwise_map.mpr (Text.pairwise_sortBy Prod.fst _)
    exact (hle.and (Dictionary.nodup_keys_merge_sorted hnodup occurrences)).imp
      fun hab => lt_of_le_of_ne hab.1 hab.2
  · exact Dictionary.exists_defaults_of_get?_ne hnodup h hne.symm

namespace Extraction

variable {w : Workspace} {paths paths' : List String} {sources sources' : List SourceText}

/-- The occurrences in some sources in their order; a source that is no module has none. -/
def occurrencesIn (sources : List SourceText) : List Occurrence :=
  sources.flatMap fun s => (occurrences s).toOption.getD []

theorem keys_ofSources (sources : List SourceText) :
    (ofSources sources).keys = .ofOccurrences (occurrencesIn sources) := by
  rw [ofSources, List.flatMap_map, occurrencesIn]

theorem skipped_ofSources (sources : List SourceText) :
    (ofSources sources).skipped = sources.filterMap fun s =>
      match occurrences s with
      | .ok _ => none
      | .error f => some ⟨s.path, f⟩ := by
  rw [ofSources, List.filterMap_map]
  rfl

theorem readSources_perm (hperm : paths.Perm paths') {directory : String}
    (h : readSources w directory paths = .ok sources) :
    ∃ sources', readSources w directory paths' = .ok sources' ∧ sources.Perm sources' := by
  obtain ⟨sources', hread, hsources⟩ := List.perm_comp_forall₂ hperm.symm (mapM_eq_ok_iff.mp h)
  exact ⟨sources', mapM_eq_ok_iff.mpr hread, hsources.symm⟩

theorem exists_readSources
    (h : ∀ path ∈ paths, ∃ text, w.readText (Path.join "" path) = .ok text) :
    ∃ sources, readSources w "" paths = .ok sources := by
  have hall : ∃ sources, readSources w "" paths = .ok sources ∧ ∀ s ∈ sources, True := by
    refine exists_mapM fun path hpath => ?_
    obtain ⟨text, htext⟩ := h path hpath
    exact ⟨⟨path, text⟩, by simp only [htext, Except.mapError, bind, Except.bind], trivial⟩
  exact hall.imp fun _ => And.left

theorem ofFiles_of_readSources (h : readSources w "" paths = .ok sources) :
    ofFiles w paths = .ok (ofSources sources) := by
  rw [ofFiles, h]
  rfl

theorem covers_keys_ofSources (sources : List SourceText) :
    (ofSources sources).keys.Covers (occurrencesIn sources) := by
  rw [keys_ofSources]
  exact KeySet.covers_ofOccurrences _

/-- Files that can all be read give the same keys in every order: the first occurrences of different keys
with all later occurrences as repeats. The number of repeats and the skipped files are the same too, and
sorted dictionaries only differ in new texts of keys with different default texts. -/
theorem ofFiles_perm (hperm : paths.Perm paths')
    (hread : ∀ path ∈ paths, ∃ text, w.readText (Path.join "" path) = .ok text) :
    ∃ sources sources', readSources w "" paths = .ok sources ∧ readSources w "" paths' = .ok sources' ∧
      ∃ e e', ofFiles w paths = .ok e ∧ ofFiles w paths' = .ok e' ∧
        e.keys.Covers (occurrencesIn sources) ∧ e'.keys.Covers (occurrencesIn sources') ∧
        (e.keys.unique.map Occurrence.key).Perm (e'.keys.unique.map Occurrence.key) ∧
        e.keys.repeats.length = e'.keys.repeats.length ∧ e.skipped.Perm e'.skipped ∧
        ∀ (p : OutputPlan) (languages : List String) (fileName : Option String)
          (files : List OutputFile), p.isSorted = true →
          (Renderer.dictionaries languages fileName).render { p with keys := e.keys } w = .ok files →
            ∃ files', (Renderer.dictionaries languages fileName).render { p with keys := e'.keys } w =
                .ok files' ∧
              List.Forall₂ (RendersAlike w p (occurrencesIn sources)) files files' := by
  obtain ⟨sources, hsources⟩ := exists_readSources hread
  obtain ⟨sources', hsources', hsame⟩ := readSources_perm hperm hsources
  have hoccurrences : (occurrencesIn sources).Perm (occurrencesIn sources') :=
    hsame.flatMap_right _
  refine ⟨sources, sources', hsources, hsources', _, _, ofFiles_of_readSources hsources,
    ofFiles_of_readSources hsources', covers_keys_ofSources _, covers_keys_ofSources _, ?_, ?_, ?_, ?_⟩
  · rw [keys_ofSources, keys_ofSources]
    exact KeySet.perm_keys_ofOccurrences hoccurrences
  · rw [keys_ofSources, keys_ofSources]
    exact KeySet.length_repeats_ofOccurrences hoccurrences
  · rw [skipped_ofSources, skipped_ofSources]
    exact hsame.filterMap _
  · intro p languages fileName files hsorted hrender
    rw [keys_ofSources] at hrender ⊢
    -- Where a dictionary is written does not depend on the keys.
    exact exists_mapM_alike hrender fun language f hf => renderDictionary_perm hsorted hoccurrences hf

/-- Two sources that give a key different default texts, and one that is no module. -/
def disputedProject : Workspace where
  tree := .directory
    [ ("a.tsx", .file (.text "t(\"k\", \x7b defaultValue: \"one\" \x7d);\n".toList)),
      ("b.tsx", .file (.text "t(\"k\", \x7b defaultValue: \"two\" \x7d);\n".toList)),
      ("c.tsx", .file (.text "t(".toList)) ]
  current := []

theorem ofFiles_perm_of_disputed :
    ∃ e e', ofFiles disputedProject ["a.tsx", "b.tsx", "c.tsx"] = .ok e ∧
      ofFiles disputedProject ["c.tsx", "b.tsx", "a.tsx"] = .ok e' ∧
      e.keys.repeats.length = e'.keys.repeats.length ∧ e.skipped.Perm e'.skipped := by
  have hread : ∀ path ∈ ["a.tsx", "b.tsx", "c.tsx"],
      ∃ text, disputedProject.readText (Path.join "" path) = .ok text := by
    simp only [List.forall_mem_cons, List.not_mem_nil, IsEmpty.forall_iff, implies_true, and_true]
    exact ⟨⟨_, rfl⟩, ⟨_, rfl⟩, ⟨_, rfl⟩⟩
  have hperm : ["a.tsx", "b.tsx", "c.tsx"].Perm ["c.tsx", "b.tsx", "a.tsx"] := by decide
  obtain ⟨-, -, -, -, e, e', he, he', -, -, -, hrepeats, hskipped, -⟩ := ofFiles_perm hperm hread
  exact ⟨e, e', he, he', hrepeats, hskipped⟩

end Extraction

end Localization
