import Localization.Command.Wrap
import Localization.Proofs.Component.NotObject
import Localization.Proofs.Dictionary.Stored
import Localization.Proofs.Results
import Localization.Proofs.Tree.Rewritten

/-!
The sources that a wrapping run writes. They are files that are there, so that every write succeeds and
changes nothing but what these files hold, and none of them is a dictionary afterwards.
-/

namespace Localization

namespace WrapPlan

variable {w after : Workspace} {s : WrapSettings} {plan : WrapPlan}
  {sources : List (String × WrappedSource)} {path : String} {r : WrappedSource}

theorem make_eq_ok_iff : make w s = .ok plan ↔ ∃ options paths sources,
    s.options = .ok options ∧ selectFiles w w.currentPath s.pattern = .ok paths ∧
      readSources w w.currentPath paths = .ok sources ∧ plan = ofSources options sources := by
  rw [make]
  cases hoptions : s.options with
  | error f => simp [bind, Except.bind]
  | ok options =>
      cases hpaths : selectFiles w w.currentPath s.pattern with
      | error f => simp [bind, Except.bind]
      | ok paths =>
          cases hsources : readSources w w.currentPath paths with
          | error f => simp [hsources, bind, Except.bind]
          | ok sources => simp [hsources, bind, Except.bind, eq_comm]

theorem mem_wrapped_ofSources {options : WrapOptions} {sources : List SourceText} :
    (path, r) ∈ (ofSources options sources).wrapped ↔
      ∃ t ∈ sources, t.path = path ∧ wrapSource? options t.path t.text = .ok (some r) := by
  simp only [ofSources, List.filterMap_map, List.mem_filterMap, Function.comp_apply]
  refine exists_congr fun t => and_congr_right fun _ => ?_
  split
  · next wrapped hwrap =>
      rw [hwrap]
      simp only [Option.some.injEq, Prod.mk.injEq, Except.ok.injEq]
  · next hnone =>
      constructor
      · intro h
        contradiction
      · rintro ⟨-, hwrap⟩
        exact absurd hwrap (hnone r)

end WrapPlan

/-- Sources are the texts of the files at some paths, in their order. -/
theorem readSources_eq_ok_iff {w : Workspace} {directory : String} {paths : List String}
    {sources : List SourceText} : readSources w directory paths = .ok sources ↔
      List.Forall₂ (fun path t => w.readText (Path.join directory path) = .ok t.text ∧ t.path = path)
        paths sources := by
  have hstep : ∀ (path : String) (t : SourceText),
      (do
        let text ← (w.readText (Path.join directory path)).mapError (Failure.ofFile (.readingSource path))
        .ok ⟨path, text⟩) = Except.ok t ↔
      w.readText (Path.join directory path) = .ok t.text ∧ t.path = path := by
    intro path t
    cases w.readText (Path.join directory path) with
    | error e => simp [Except.mapError, bind, Except.bind]
    | ok text =>
        simp only [Except.mapError, bind, Except.bind, Except.ok.injEq]
        constructor
        · rintro rfl
          exact ⟨rfl, rfl⟩
        · rintro ⟨rfl, rfl⟩
          rfl
  rw [readSources, mapM_eq_ok_iff]
  exact ⟨fun h => h.imp fun _ _ => (hstep _ _).mp, fun h => h.imp fun _ _ => (hstep _ _).mpr⟩

theorem readText_of_mem_readSources {w : Workspace} {directory : String} {paths : List String}
    {sources : List SourceText} (h : readSources w directory paths = .ok sources) {t : SourceText}
    (ht : t ∈ sources) : t.path ∈ paths ∧ w.readText (Path.join directory t.path) = .ok t.text := by
  obtain ⟨i, hi, rfl⟩ := List.getElem_of_mem ht
  have hall := readSources_eq_ok_iff.mp h
  have hi' : i < paths.length := hall.length_eq ▸ hi
  obtain ⟨htext, hpath⟩ := hall.get hi' hi
  simp only [List.get_eq_getElem] at htext hpath
  rw [hpath]
  exact ⟨List.getElem_mem hi', htext⟩

theorem exists_readText_of_mem {w : Workspace} {directory : String} {paths : List String}
    {sources : List SourceText} (h : readSources w directory paths = .ok sources) {path : String}
    (hpath : path ∈ paths) : ∃ text, w.readText (Path.join directory path) = .ok text := by
  obtain ⟨i, hi, rfl⟩ := List.getElem_of_mem hpath
  have hall := readSources_eq_ok_iff.mp h
  exact ⟨_, (hall.get hi (hall.length_eq ▸ hi)).1⟩

namespace WrapPlan

variable {w after : Workspace} {s : WrapSettings} {plan : WrapPlan}
  {sources : List (String × WrappedSource)}

/-- Files hold the outputs of sources, and nothing else has changed. -/
structure Written (sources : List (String × WrappedSource)) (w after : Workspace) : Prop where
  grows : w.GrowsTo after
  back : after.GrowsTo w
  files : ∀ place c, after.tree.at? place = some (.file c) →
    w.tree.at? place = some (.file c) ∨ ∃ t ∈ sources, c = .text t.2.output

theorem exists_written (h : ∀ t ∈ sources, ∃ old,
      w.readText (Path.join w.currentPath t.1) = .ok old) :
    ∃ after, writeSources sources w = (after, .ok ()) ∧ Written sources w after := by
  induction sources generalizing w with
  | nil => exact ⟨w, rfl, .refl w, .refl w, fun place c hc => .inl hc⟩
  | cons t rest ih =>
      obtain ⟨old, hold⟩ := h t List.mem_cons_self
      obtain ⟨middle, place, hwrite, hrewrote⟩ := Workspace.exists_rewrote_of_readText hold t.2.output
      have hcurrent : middle.currentPath = w.currentPath :=
        congrArg Location.path hrewrote.grows.current
      obtain ⟨after, hrest, hwritten⟩ := ih (w := middle) fun u hu => by
        obtain ⟨text, htext⟩ := h u (List.mem_cons_of_mem t hu)
        rw [hcurrent]
        exact hrewrote.exists_readText htext
      refine ⟨after, ?_, hrewrote.grows.trans hwritten.grows, hwritten.back.trans hrewrote.back, ?_⟩
      · unfold writeSources
        simp only [hwrite]
        exact hrest
      · intro other c hc
        rcases hwritten.files other c hc with hmiddle | ⟨u, hu, hu'⟩
        · by_cases hother : other = place
          · subst hother
            rw [hrewrote.file, Option.some.injEq, FileTree.file.injEq] at hmiddle
            exact .inr ⟨t, List.mem_cons_self, hmiddle.symm⟩
          · exact .inl ((hrewrote.others other c hother).mp hmiddle)
        · exact .inr ⟨u, List.mem_cons_of_mem t hu, hu'⟩

/-- A dictionary that is read when the sources are written is the one that was there before. -/
theorem Written.read?_eq {path : String} {found : Option Dictionary} (h : Written sources w after)
    (hsources : ∀ t ∈ sources, ∀ members, Json.parse? t.2.output ≠ .ok (.object members))
    (hread : Dictionary.read? after path = .ok found) : Dictionary.read? w path = .ok found := by
  cases found with
  | some d =>
      obtain ⟨text, htext, hparse⟩ := Dictionary.read?_eq_ok_some_iff.mp hread
      obtain ⟨place, hplace, hfile⟩ := Workspace.readText_eq_ok_iff.mp htext
      rcases h.files place _ hfile with hold | ⟨t, ht, hoverwritten⟩
      · refine Dictionary.read?_eq_ok_some_iff.mpr ⟨text, ?_, hparse⟩
        exact Workspace.readText_eq_ok_iff.mpr ⟨place, Workspace.locate_of_growsTo h.back hplace, hold⟩
      · obtain rfl := Contents.text.inj hoverwritten
        exact absurd hparse (hsources t ht d.entries)
  | none =>
      rw [Dictionary.read?_eq_ok_none_iff] at hread ⊢
      refine Bool.eq_false_iff.mpr fun hthere => ?_
      rw [Workspace.exists_of_growsTo h.grows hthere] at hread
      contradiction

/-- A plan is made of files that are there, and what it writes is no dictionary. -/
theorem of_mem_wrapped (h : make w s = .ok plan) {t : String × WrappedSource} (ht : t ∈ plan.wrapped) :
    (∃ old, w.readText (Path.join w.currentPath t.1) = .ok old) ∧
      ∀ members, Json.parse? t.2.output ≠ .ok (.object members) := by
  obtain ⟨options, paths, sources, -, -, hsources, rfl⟩ := make_eq_ok_iff.mp h
  obtain ⟨source, hsource, hpath, hwrap⟩ := mem_wrapped_ofSources.mp ht
  refine ⟨⟨source.text, ?_⟩, wrapSource?_ne_object hwrap⟩
  rw [← hpath]
  exact (readText_of_mem_readSources hsources hsource).2

/-- All sources of a plan can be written. -/
theorem exists_written_of_make (h : make w s = .ok plan) :
    ∃ after, writeSources plan.wrapped w = (after, .ok ()) ∧ Written plan.wrapped w after :=
  exists_written fun _ ht => (of_mem_wrapped h ht).1

/-! ## Runs -/

/-- What a run tells about its plan and the key file. -/
def result (p : WrapPlan) (isDryRun : Bool) (keyFile : Option KeyFileSummary) : WrapResult :=
  ⟨⟨p.scanned, p.wrapped.map fileSummary, keyFile, isDryRun⟩, p.skipped⟩

end WrapPlan

theorem updateKeyFile_eq_ok_iff {w after : Workspace} {path : String} {keys : KeyMap} {isDryRun : Bool}
    {keyFile : KeyFileSummary} : updateKeyFile w path keys isDryRun = (after, .ok keyFile) ↔
      ∃ existing, Dictionary.read? w path = .ok existing ∧
        keyFile = ⟨path, keys.size, (Dictionary.mergeGenerated existing keys).2⟩ ∧
          if isDryRun then after = w
          else (Dictionary.mergeGenerated existing keys).1.write w path = (after, .ok ()) := by
  unfold updateKeyFile
  cases hread : Dictionary.read? w path with
  | error f => simp
  | ok existing =>
      simp only [Except.ok.injEq, exists_eq_left']
      cases isDryRun with
      | true => simp [and_comm, eq_comm]
      | false =>
          simp only [Bool.false_eq_true, if_false]
          rcases (Dictionary.mergeGenerated existing keys).1.write w path with ⟨written, _ | _⟩
          · simp
          · simp [and_comm, eq_comm]

/-- The sources of a plan are written, or nothing is. -/
def WrapPlan.start (p : WrapPlan) (w : Workspace) (isDryRun : Bool) : Workspace × Except Failure Unit :=
  if isDryRun then (w, .ok ()) else writeSources p.wrapped w

theorem WrapPlan.perform_eq (p : WrapPlan) (w : Workspace) (s : WrapSettings) :
    p.perform w s = match p.start w s.isDryRun with
      | (written, .error f) => (written, .error f)
      | (written, .ok ()) =>
        if p.keys.isEmpty then (written, .ok (p.result s.isDryRun none))
        else
          match updateKeyFile written s.keyFilePath p.keys s.isDryRun with
          | (updated, .error f) => (updated, .error f)
          | (updated, .ok keyFile) => (updated, .ok (p.result s.isDryRun (some keyFile))) := by
  rfl

theorem WrapPlan.perform_eq_ok_iff {p : WrapPlan} {w after : Workspace} {s : WrapSettings}
    {r : WrapResult} : p.perform w s = (after, .ok r) ↔
      ∃ written, p.start w s.isDryRun = (written, .ok ()) ∧
        if p.keys.isEmpty then after = written ∧ r = p.result s.isDryRun none
        else ∃ keyFile, updateKeyFile written s.keyFilePath p.keys s.isDryRun = (after, .ok keyFile) ∧
          r = p.result s.isDryRun (some keyFile) := by
  rw [perform_eq]
  rcases p.start w s.isDryRun with ⟨written, f | u⟩
  · simp
  · simp only [Prod.mk.injEq, and_true, exists_eq_left']
    split
    · simp [eq_comm]
    · rcases updateKeyFile written s.keyFilePath p.keys s.isDryRun with ⟨updated, f | keyFile⟩
      · simp
      · simp [and_comm, eq_comm]

theorem wrapProject_eq_ok_iff {w after : Workspace} {a : WrapArguments} {r : WrapResult} :
    wrapProject w a = (after, .ok r) ↔ ∃ loaded plan, Config.load w w.currentPath = .ok loaded ∧
      WrapPlan.make w (WrapSettings.resolve a loaded.config.wrap) = .ok plan ∧
        plan.perform w (WrapSettings.resolve a loaded.config.wrap) = (after, .ok r) := by
  unfold wrapProject
  cases hload : Config.load w w.currentPath with
  | error f => simp
  | ok loaded =>
      cases hplan : WrapPlan.make w (WrapSettings.resolve a loaded.config.wrap) with
      | error f => simp [hplan]
      | ok plan => simp [hplan]

end Localization
