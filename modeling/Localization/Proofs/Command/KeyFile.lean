import Localization.Proofs.Command.Sources
import Localization.Proofs.Dictionary.Merge
import Localization.Proofs.Key.Recorded

/-!
What a wrapping run adds to the key file. What was there stays in front as it was read, and behind it comes
an entry for each new key, with the text of the last literal that has the key. Main statement:
`wrapProject_adds_keys`.
-/

namespace Localization

open KeyGenerator (IsLast)

/-! ## Dictionaries -/

namespace Dictionary

variable {keys : KeyMap} {calls : List (String × String)}

/-- A dictionary has become another one because the keys of some calls were added. -/
structure Adds (old : Dictionary) (calls : List (String × String)) (d : Dictionary) : Prop where
  kept : old.entries <+: d.entries
  complete : ∀ call ∈ calls, call.2 ∈ d.keys
  nodup : (d.keys.drop old.size).Nodup
  /-- What is behind the entries that were there is new, with the text of the last call of its key. -/
  new : ∀ e ∈ d.entries.drop old.size,
    e.1 ∉ old.keys ∧ ∃ text, IsLast (text, e.1) calls ∧ e.2 = .string text

theorem mergeGenerated_eq (existing : Option Dictionary) (h : keys.keys.Nodup) :
    mergeGenerated existing keys =
      (⟨(existing.getD OrderedMap.empty).entries ++
          (existing.getD OrderedMap.empty).newEntries keys.entries⟩,
        ((existing.getD OrderedMap.empty).newEntries keys.entries).length) := by
  have hadd := addTexts_eq (existing.getD OrderedMap.empty, 0) h
  rw [Nat.zero_add] at hadd
  exact hadd

theorem adds_mergeGenerated (existing : Option Dictionary) (h : keys.Records calls) :
    (existing.getD OrderedMap.empty).Adds calls (mergeGenerated existing keys).1 := by
  rw [mergeGenerated_eq existing h.nodup]
  generalize existing.getD OrderedMap.empty = old
  refine ⟨List.prefix_append _ _, fun call hcall => ?_, ?_, fun e he => ?_⟩
  · by_cases hold : call.2 ∈ old.keys
    · rw [OrderedMap.keys, List.map_append]
      exact List.mem_append_left _ hold
    · rw [OrderedMap.keys, List.map_append, keys_newEntries]
      refine List.mem_append_right _ (List.mem_filter.mpr ⟨h.complete call hcall, ?_⟩)
      simpa [contains_eq_decide] using hold
  · rw [OrderedMap.keys, OrderedMap.size, ← List.map_drop, List.drop_left, keys_newEntries]
    exact h.nodup.filter _
  · rw [OrderedMap.size, List.drop_left] at he
    obtain ⟨t, ht, hlacks, rfl⟩ := mem_newEntries.mp he
    have hget : keys.get? t.1 = some t.2 := (OrderedMap.lookup_eq_some_iff_mem h.nodup).mpr ht
    exact ⟨hlacks, t.2, h.last t.1 t.2 hget, rfl⟩

/-- As many entries are added as there are new keys. -/
theorem added_mergeGenerated (existing : Option Dictionary) (h : keys.Records calls) :
    (mergeGenerated existing keys).2 = ((calls.map Prod.snd).dedup.filter
      fun key => !(existing.getD OrderedMap.empty).contains key).length := by
  rw [mergeGenerated_eq existing h.nodup]
  change List.length _ = _
  rw [← List.length_map Prod.fst, keys_newEntries]
  exact (h.keys_perm.filter _).length_eq

theorem Exact.mergeGenerated {existing : Option Dictionary}
    (h : (existing.getD OrderedMap.empty).Exact) (keys : KeyMap) :
    (mergeGenerated existing keys).1.Exact := by
  have hfold : ∀ (texts : List (String × String)) (start : Dictionary × Nat), start.1.Exact →
      (addTexts start texts).1.Exact := by
    intro texts
    induction texts with
    | nil => exact fun start h => h
    | cons e rest ih =>
        intro start h
        refine ih (addMissing start e.1 e.2) ?_
        unfold addMissing
        split
        · exact h
        · exact h.insert e.1 e.2
  exact hfold keys.entries (_, 0) h

theorem exact_getD_of_read? {w : Workspace} {path : String} {existing : Option Dictionary}
    (h : read? w path = .ok existing) (hfloat : (existing.getD OrderedMap.empty).hasFloat = false) :
    (existing.getD OrderedMap.empty).Exact := by
  cases existing with
  | none => exact exact_empty
  | some d => exact exact_of_read? h hfloat

end Dictionary

/-! ## Plans -/

namespace WrapPlan

variable {w : Workspace} {s : WrapSettings} {plan : WrapPlan}

/-- The calls that a plan puts in the place of texts: those of each source that changes, in order. -/
def lookups (p : WrapPlan) : List (String × String) :=
  p.wrapped.flatMap fun t => t.2.changes.lookups

/-- The keys of a plan are those of its calls, each with the text of the last call that has it. -/
theorem records_keys {o : WrapOptions} (ho : o.generator.enabled = true) (sources : List SourceText) :
    (ofSources o sources).keys.Records (ofSources o sources).lookups := by
  have hfold : ∀ (wrapped : List (String × WrappedSource)) (keys : KeyMap)
      (calls : List (String × String)), keys.Records calls →
      (∀ t ∈ wrapped, t.2.changes.keys.Records t.2.changes.lookups) →
      KeyMap.Records (wrapped.foldl (fun keys t => keys.extend t.2.changes.keys) keys)
        (calls ++ wrapped.flatMap fun t => t.2.changes.lookups) := by
    intro wrapped
    induction wrapped with
    | nil => simp
    | cons t rest ih =>
        intro keys calls h hall
        obtain ⟨hfirst, hrest⟩ := List.forall_mem_cons.mp hall
        rw [List.flatMap_cons, ← List.append_assoc]
        exact ih _ _ (h.extend hfirst) hrest
  refine hfold _ _ [] KeyMap.records_empty fun t ht => ?_
  obtain ⟨source, -, -, hwrap⟩ := mem_wrapped_ofSources.mp ht
  obtain ⟨module, -, -, hchanges, -⟩ := wrapSource?_eq_some hwrap
  rw [hchanges]
  exact records_wrapModule ho source.text module

theorem enabled_of_options {o : WrapOptions} (h : s.options = .ok o) :
    o.generator.enabled = s.generateKeys := by
  rw [WrapSettings.options] at h
  cases hload : Classifier.load s.mode s.textPattern with
  | error f => simp [hload, bind, Except.bind] at h
  | ok classifier =>
      simp only [hload, bind, Except.bind, Except.ok.injEq] at h
      rw [← h]
      rfl

theorem records_of_make (h : make w s = .ok plan) (hgenerate : s.generateKeys = true) :
    plan.keys.Records plan.lookups := by
  obtain ⟨options, paths, sources, hoptions, -, -, rfl⟩ := make_eq_ok_iff.mp h
  exact records_keys ((enabled_of_options hoptions).trans hgenerate) sources

theorem map_path_readSources {directory : String} {paths : List String} {sources : List SourceText}
    (h : readSources w directory paths = .ok sources) : sources.map SourceText.path = paths := by
  have hall := readSources_eq_ok_iff.mp h
  induction hall with
  | nil => rfl
  | cons hfirst hrest ih => rw [List.map_cons, hfirst.2, ih (readSources_eq_ok_iff.mpr hrest)]

theorem pairwise_of_selectFiles {base pattern : String} {paths : List String}
    (h : selectFiles w base pattern = .ok paths) : paths.Pairwise (· < ·) := by
  rw [selectFiles] at h
  cases hglobs : globsOf pattern with
  | error f => simp [hglobs, bind, Except.bind] at h
  | ok globs =>
      simp only [hglobs, bind, Except.bind, Except.ok.injEq] at h
      rw [← h]
      exact Text.pairwise_sortedSet _

/-- The sources of a plan come in the order of their paths. -/
theorem pairwise_of_make (h : make w s = .ok plan) : (plan.wrapped.map Prod.fst).Pairwise (· < ·) := by
  obtain ⟨options, paths, sources, -, hpaths, hsources, rfl⟩ := make_eq_ok_iff.mp h
  have hsorted : (sources.map SourceText.path).Pairwise (· < ·) := by
    rw [map_path_readSources hsources]
    exact pairwise_of_selectFiles hpaths
  simp only [ofSources, List.filterMap_map]
  rw [List.pairwise_map, List.pairwise_filterMap]
  refine (List.pairwise_map.mp hsorted).imp fun hlt b hb c hc => ?_
  rw [Function.comp_apply] at hb hc
  split at hb
  · split at hc
    · rw [← Option.some.inj hb, ← Option.some.inj hc]
      exact hlt
    · contradiction
  · contradiction

end WrapPlan

/-! ## Runs -/

variable {w after : Workspace} {a : WrapArguments} {loaded : Config.Loaded} {r : WrapResult}

/-- The calls that took the place of texts in a run, each as the text and the key, in the order of the
files and in each file as they were met. -/
def WrapSummary.lookups (s : WrapSummary) : List (String × String) :=
  s.files.flatMap fun f => f.replacements.map Replacement.call

theorem WrapSummary.length_lookups (s : WrapSummary) : s.lookups.length = s.literalCount := by
  rw [lookups, literalCount]
  induction s.files with
  | nil => rfl
  | cons f rest ih =>
      rw [List.flatMap_cons, List.length_append, ih, List.length_map]
      rfl

theorem WrapPlan.lookups_result (p : WrapPlan) (isDryRun : Bool) (keyFile : Option KeyFileSummary) :
    (p.result isDryRun keyFile).summary.lookups = p.lookups := by
  rw [WrapSummary.lookups, result, List.flatMap_map]
  rfl

/-- What a run does to a key file that it found as `existing` and leaves as `d`. -/
structure AddsKeys (w after : Workspace) (r : WrapResult) (path : String)
    (existing : Option Dictionary) (d : Dictionary) : Prop where
  inOrder : (r.summary.files.map WrappedFile.path).Pairwise (· < ·)
  found : Dictionary.read? w path = .ok existing
  adds : (existing.getD OrderedMap.empty).Adds r.summary.lookups d
  written : after.readText path = .ok d.render.toList
  reads : (existing.getD OrderedMap.empty).hasFloat = false → Dictionary.read? after path = .ok (some d)
  told : r.summary.keyFile = some ⟨path, (r.summary.lookups.map Prod.snd).dedup.length,
    ((r.summary.lookups.map Prod.snd).dedup.filter
      fun key => !(existing.getD OrderedMap.empty).contains key).length⟩

theorem WrapPlan.addsKeys {p : WrapPlan} {s : WrapSettings} (hplan : make w s = .ok p)
    (hgenerate : s.generateKeys = true) (hreal : s.isDryRun = false)
    (h : p.perform w s = (after, .ok r)) (hcount : 0 < r.summary.literalCount) :
    ∃ existing d, AddsKeys w after r s.keyFilePath existing d := by
  have hrecords := records_of_make hplan hgenerate
  obtain ⟨written, hstart, h⟩ := perform_eq_ok_iff.mp h
  rw [start, hreal, if_neg Bool.false_ne_true] at hstart
  obtain ⟨written', hwrite, hwritten⟩ := exists_written_of_make hplan
  obtain rfl : written' = written := congrArg Prod.fst (hwrite.symm.trans hstart)
  have hlookups : r.summary.lookups = p.lookups := by
    split at h
    · rw [h.2, lookups_result]
    · obtain ⟨keyFile, -, rfl⟩ := h
      rw [lookups_result]
  have hkeys : p.keys.isEmpty = false := by
    rw [← WrapSummary.length_lookups, hlookups] at hcount
    obtain ⟨call, hcall⟩ := List.exists_mem_of_length_pos hcount
    have hkey := hrecords.complete call hcall
    rw [OrderedMap.isEmpty, List.isEmpty_eq_false_iff]
    rintro hnone
    rw [OrderedMap.keys, hnone] at hkey
    contradiction
  rw [hkeys, if_neg Bool.false_ne_true] at h
  obtain ⟨keyFile, hupdate, rfl⟩ := h
  obtain ⟨existing, hread, rfl, hsave⟩ := updateKeyFile_eq_ok_iff.mp hupdate
  rw [hreal, if_neg Bool.false_ne_true] at hsave
  obtain ⟨place, hwrote⟩ := Workspace.exists_place_of_save hsave
  have hold : Dictionary.read? w s.keyFilePath = .ok existing :=
    hwritten.read?_eq (fun t ht => (of_mem_wrapped hplan ht).2) hread
  refine ⟨existing, _, ?_, hold, ?_, hwrote.readText, fun hfloat => ?_, ?_⟩
  · have hpaths := pairwise_of_make hplan
    simpa [result, fileSummary, Function.comp_def] using hpaths
  · rw [lookups_result]
    exact Dictionary.adds_mergeGenerated existing hrecords
  · have hexact := Dictionary.exact_getD_of_read? hold hfloat
    exact (hexact.mergeGenerated p.keys).read? hwrote.readText
  · rw [lookups_result, ← Dictionary.added_mergeGenerated existing hrecords,
      ← hrecords.keys_perm.length_eq, OrderedMap.keys, List.length_map]
    rfl

/-- A run that generates keys, is no dry run and replaces a text adds the keys of all replaced texts to the
key file. What was there stays in front, as it was read; behind it comes each new key once, with the text
of the last literal that has the key. The run tells how many keys there are and how many are new. A key
file without floats is read afterwards as what was written. -/
theorem wrapProject_adds_keys (hload : Config.load w w.currentPath = .ok loaded)
    (hgenerate : (WrapSettings.resolve a loaded.config.wrap).generateKeys = true)
    (hreal : a.isDryRun = false) (h : wrapProject w a = (after, .ok r))
    (hcount : 0 < r.summary.literalCount) :
    ∃ existing d,
      AddsKeys w after r (WrapSettings.resolve a loaded.config.wrap).keyFilePath existing d := by
  obtain ⟨loaded', plan, hload', hplan, hperform⟩ := wrapProject_eq_ok_iff.mp h
  obtain rfl : loaded' = loaded := Except.ok.inj (hload'.symm.trans hload)
  exact plan.addsKeys hplan hgenerate hreal hperform hcount

/-- Two sources with texts that have one key, and a key file that has another one. -/
def twoGreetingsProject : Workspace where
  tree := .directory
    [ ("src", .directory
        [ ("a.tsx", .file (.text "function A() \x7b return <p>안녕 하세요</p>; \x7d\n".toList)),
          ("b.tsx", .file (.text "function B() \x7b return <p>안녕, 하세요!</p>; \x7d\n".toList)) ]),
      ("locales", .directory [("common.json", .file (.text "\x7b\"bye\": \"잘 가\"\x7d\n".toList))]) ]
  current := []

/-- The later text is kept, behind the entry that was there. -/
theorem wrapProject_adds_keys_of_greetings :
    ∃ after r existing d path, wrapProject twoGreetingsProject { generateKeys := true } = (after, .ok r) ∧
      r.summary.literalCount = 2 ∧ AddsKeys twoGreetingsProject after r path existing d ∧
      r.summary.keyFile = some ⟨"./locales/common.json", 1, 1⟩ ∧
      after.readText "./locales/common.json" =
        .ok "\x7b\n  \"bye\": \"잘 가\",\n  \"안녕하세요\": \"안녕, 하세요!\"\n\x7d\n".toList := by
  obtain ⟨r, hr, hsummary⟩ := exists_ok_of_any
    (x := (wrapProject twoGreetingsProject { generateKeys := true }).2)
    (p := fun r => r.summary.literalCount == 2 &&
      r.summary.keyFile == some ⟨"./locales/common.json", 1, 1⟩) (by decide +kernel)
  rw [Bool.and_eq_true, beq_iff_eq, beq_iff_eq] at hsummary
  obtain ⟨hcount, hkeyFile⟩ := hsummary
  have hrun := eq_of_fst_of_snd rfl hr
  obtain ⟨text, htext, hsame⟩ := exists_ok_of_any
    (x := (wrapProject twoGreetingsProject { generateKeys := true }).1.readText "./locales/common.json")
    (p := fun text => text ==
      "\x7b\n  \"bye\": \"잘 가\",\n  \"안녕하세요\": \"안녕, 하세요!\"\n\x7d\n".toList)
    (by decide +kernel)
  obtain ⟨loaded, -, hload, -⟩ := wrapProject_eq_ok_iff.mp hrun
  obtain ⟨existing, d, hadds⟩ := wrapProject_adds_keys hload rfl rfl hrun (by omega)
  exact ⟨_, r, existing, d, _, hrun, hcount, hadds, hkeyFile, beq_iff_eq.mp hsame ▸ htext⟩

/-- A key file with a number. -/
def measuredProject : Workspace where
  tree := .directory
    [ ("src", .directory
        [("a.tsx", .file (.text "function A() \x7b return <p>안녕</p>; \x7d\n".toList))]),
      ("locales", .directory
        [("common.json", .file (.text "\x7b\"n\": 1082844446989.4647\x7d\n".toList))]) ]
  current := []

/-- A number of the key file becomes another one, also among the floats. -/
theorem wrapProject_not_always_keeps_values :
    measuredProject.readText "./locales/common.json" =
      .ok "\x7b\"n\": 1082844446989.4647\x7d\n".toList ∧
    Binary64.nearest? 10828444469894647 10000 ≠ Binary64.nearest? 10828444469894648 10000 ∧
    ∃ after r, wrapProject measuredProject { generateKeys := true } = (after, .ok r) ∧
      r.summary.literalCount = 1 ∧ r.summary.isDryRun = false ∧
      after.readText "./locales/common.json" =
        .ok "\x7b\n  \"n\": 1082844446989.4648,\n  \"안녕\": \"안녕\"\n\x7d\n".toList := by
  refine ⟨by rfl, by decide +kernel, ?_⟩
  obtain ⟨r, hr, hsummary⟩ := exists_ok_of_any
    (x := (wrapProject measuredProject { generateKeys := true }).2)
    (p := fun r => r.summary.literalCount == 1 && r.summary.isDryRun == false) (by decide +kernel)
  rw [Bool.and_eq_true, beq_iff_eq, beq_iff_eq] at hsummary
  obtain ⟨text, htext, hsame⟩ := exists_ok_of_any
    (x := (wrapProject measuredProject { generateKeys := true }).1.readText "./locales/common.json")
    (p := fun text => text ==
      "\x7b\n  \"n\": 1082844446989.4648,\n  \"안녕\": \"안녕\"\n\x7d\n".toList)
    (by decide +kernel)
  exact ⟨_, r, eq_of_fst_of_snd rfl hr, hsummary.1, hsummary.2, beq_iff_eq.mp hsame ▸ htext⟩

end Localization
