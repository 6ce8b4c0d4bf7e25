import Localization.Command.Extract
import Localization.Proofs.Command.RefusedRun
import Localization.Proofs.Output.Written

/-!
An extraction that is repeated. The second run finds all keys in the dictionaries that the first one has
written, and writes what is there. Main statement: `extractProject_again`.
-/

namespace Localization

open OutputFile

variable {w after : Workspace} {s : ExtractSettings} {r : ExtractResult}

/-- A second run starts from the settings and the sources of the first one. -/
structure StartsAgain (w after : Workspace) (s : ExtractSettings) : Prop where
  config : Config.load after after.currentPath = Config.load w w.currentPath
  selected : selectFiles after after.currentPath s.pattern = selectFiles w w.currentPath s.pattern
  texts : ∀ paths, selectFiles w w.currentPath s.pattern = .ok paths →
    readSources after "" paths = readSources w "" paths

/-- The dictionaries with the texts that a sheet shows are the same. -/
def ShowsSame (w after : Workspace) (s : ExtractSettings) : Prop :=
  ∀ language ∈ ["en", "ko"],
    Dictionary.read? after ((s.plan .empty).dictionaryPath language) =
      Dictionary.read? w ((s.plan .empty).dictionaryPath language)

/-- No dictionary to which keys are added holds a float. -/
def HoldsNoFloats (w : Workspace) (s : ExtractSettings) : Prop :=
  ∀ language ∈ s.languages, ∀ d,
    Dictionary.read? w ((s.plan .empty).outputPath s.languages s.outputFile language) =
      .ok (some d) → d.hasFloat = false

theorem planExtraction_eq_ok_iff : planExtraction w s = .ok r ↔
    ∃ paths sources outputs, selectFiles w w.currentPath s.pattern = .ok paths ∧
      readSources w "" paths = .ok sources ∧
      s.renderer.render (s.plan (Extraction.ofSources sources).keys) w = .ok outputs ∧
      r =
        { summary :=
            { scanned := (Extraction.ofSources sources).scanned
              keys := (Extraction.ofSources sources).keys.ordered s.isSorted
              repeats := (Extraction.ofSources sources).keys.repeats
              outputs := outputs
              showsPaths := s.showsPaths
              showsLines := s.showsLines
              isDryRun := s.isDryRun }
          skipped := (Extraction.ofSources sources).skipped } := by
  rw [planExtraction]
  cases hpaths : selectFiles w w.currentPath s.pattern with
  | error e => simp [bind, Except.bind]
  | ok paths =>
      cases hsources : readSources w "" paths with
      | error e => simp [Extraction.ofFiles, hsources, bind, Except.bind]
      | ok sources =>
          cases hrender : s.renderer.render (s.plan (Extraction.ofSources sources).keys) w with
          | error e => simp [Extraction.ofFiles, hsources, hrender, bind, Except.bind]
          | ok outputs => simp [Extraction.ofFiles, hsources, hrender, bind, Except.bind, eq_comm]

/-- Where dictionaries are stored does not depend on the keys. -/
theorem ExtractSettings.dictionaryPath_plan (s : ExtractSettings) (keys : KeySet)
    (language : String) :
    (s.plan keys).dictionaryPath language = (s.plan .empty).dictionaryPath language :=
  rfl

theorem ExtractSettings.outputPath_plan (s : ExtractSettings) (keys : KeySet) (language : String) :
    (s.plan keys).outputPath s.languages s.outputFile language =
      (s.plan .empty).outputPath s.languages s.outputFile language :=
  rfl

theorem extractProject_eq_ok_iff {a : ExtractArguments} {loaded : Config.Loaded}
    (hload : Config.load w w.currentPath = .ok loaded)
    (hsettings : ExtractSettings.resolve a loaded.config.extract = .ok s) :
    extractProject w a = (after, .ok r) ↔
      planExtraction w s = .ok r ∧
        (if s.isDryRun then after = w else writeAll r.summary.outputs w = (after, .ok ())) := by
  have hplan : planProject w a = planExtraction w s := by
    simp only [planProject, hload, hsettings, bind, Except.bind]
  unfold extractProject
  rewrite [hplan]
  cases h : planExtraction w s with
  | error e => simp
  | ok planned =>
      have hdry : planned.summary.isDryRun = s.isDryRun := by
        obtain ⟨paths, sources, outputs, -, -, -, rfl⟩ := planExtraction_eq_ok_iff.mp h
        rfl
      simp only [ExtractResult.perform, hdry]
      split
      · simp [and_comm, eq_comm]
      · rcases hwrite : writeAll planned.summary.outputs w with ⟨written, _ | _⟩
        · simp only [Prod.mk.injEq, reduceCtorEq, and_false, Except.ok.injEq, false_iff, not_and]
          rintro rfl
          simp [hwrite]
        · simp only [Prod.mk.injEq, Except.ok.injEq]
          constructor
          · rintro ⟨rfl, rfl⟩
            exact ⟨rfl, hwrite⟩
          · rintro ⟨rfl, hafter⟩
            rw [hwrite, Prod.mk.injEq] at hafter
            exact ⟨hafter.1, rfl⟩

/-- Outputs that were written are rendered as they are. -/
theorem render_again {keys : KeySet} {files : List OutputFile} (hmerges : s.merges = true)
    (hrender : s.renderer.render (s.plan keys) w = .ok files) (hwritten : Written files w after)
    (hshown : s.format = .csv → ShowsSame w after s)
    (hfloats : s.format = .json → HoldsNoFloats w s) :
    ∃ again, s.renderer.render (s.plan keys) after = .ok again ∧
      again.map OutputFile.path = files.map OutputFile.path ∧
      (∀ f ∈ again, after.readText f.path = .ok f.contents) ∧
      (s.format = .json → ∀ f ∈ again, f.added = 0) := by
  cases hformat : s.format with
  | json =>
      have hrenderer : s.renderer = .dictionaries s.languages s.outputFile := by
        rw [ExtractSettings.renderer, hformat, Renderer.ofFormat]
      rw [hrenderer] at hrender ⊢
      have hfloats' : ∀ language ∈ s.languages, ∀ d,
          Dictionary.read? w ((s.plan keys).outputPath s.languages s.outputFile language) =
            .ok (some d) → d.hasFloat = false := by
        intro language hlanguage d hd
        rw [s.outputPath_plan] at hd
        exact hfloats hformat language hlanguage d hd
      obtain ⟨again, hagain, hsamePaths, hall⟩ :=
        OutputPlan.render_dictionaries_again hmerges hfloats' hrender hwritten
      exact ⟨again, hagain, hsamePaths, fun f hf => (hall f hf).2, fun _ f hf => (hall f hf).1⟩
  | csv =>
      have hrenderer : s.renderer = .sheet (Renderer.sheetName s.outputFile) := by
        rw [ExtractSettings.renderer, hformat, Renderer.ofFormat]
      rw [hrenderer] at hrender ⊢
      have hshown' : ∀ language ∈ ["en", "ko"],
          Dictionary.read? after ((s.plan keys).dictionaryPath language) =
            Dictionary.read? w ((s.plan keys).dictionaryPath language) := by
        intro language hlanguage
        rw [s.dictionaryPath_plan]
        exact hshown hformat language hlanguage
      refine ⟨files, (OutputPlan.render_sheet_congr hshown').trans hrender, rfl, ?_, nofun⟩
      -- There is a single sheet, so that its file holds nothing else.
      obtain ⟨file, rfl⟩ := OutputPlan.exists_of_render_sheet hrender
      intro f hf
      obtain rfl := List.mem_singleton.mp hf
      obtain ⟨g, hg, hread⟩ := hwritten.reads f hf
      obtain rfl := List.mem_singleton.mp hg
      exact hread

/-- A repeated run of an extraction that merges succeeds, tells of the same keys and files, and leaves
everything as it is. It adds nothing to any dictionary that the first one has written. -/
theorem extractProject_again {a : ExtractArguments} {loaded : Config.Loaded}
    (hload : Config.load w w.currentPath = .ok loaded)
    (hsettings : ExtractSettings.resolve a loaded.config.extract = .ok s)
    (hmerges : s.merges = true) (h : extractProject w a = (after, .ok r))
    (hsame : StartsAgain w after s) (hfloats : s.format = .json → HoldsNoFloats w s)
    (hshown : s.format = .csv → ShowsSame w after s) :
    ∃ outputs,
      extractProject after a =
        (after, .ok { r with summary := { r.summary with outputs := outputs } }) ∧
      outputs.map OutputFile.path = r.summary.outputs.map OutputFile.path ∧
      (s.format = .json → s.isDryRun = false → ∀ f ∈ outputs, f.added = 0) := by
  obtain ⟨hplan, hwrite⟩ := (extractProject_eq_ok_iff hload hsettings).mp h
  cases hdry : s.isDryRun with
  | true =>
      obtain rfl : after = w := by simpa [hdry] using hwrite
      exact ⟨r.summary.outputs, h, rfl, nofun⟩
  | false =>
      rw [hdry, if_neg Bool.false_ne_true] at hwrite
      have hwritten := written_of_writeAll hwrite
      obtain ⟨paths, sources, files, hpaths, hsources, hrender, rfl⟩ := planExtraction_eq_ok_iff.mp hplan
      obtain ⟨again, hagain, hsamePaths, hreads, hadded⟩ :=
        render_again hmerges hrender hwritten hshown hfloats
      refine ⟨again, ?_, hsamePaths, fun hformat _ => hadded hformat⟩
      refine (extractProject_eq_ok_iff (hsame.config.trans hload) hsettings).mpr ⟨?_, ?_⟩
      · exact planExtraction_eq_ok_iff.mpr ⟨paths, sources, again, hsame.selected.trans hpaths,
          (hsame.texts paths hpaths).trans hsources, hagain, rfl⟩
      · rw [hdry, if_neg Bool.false_ne_true]
        refine writeAll_eq_self fun f hf => ?_
        have hmem : f.path ∈ files.map OutputFile.path := hsamePaths ▸ List.mem_map_of_mem hf
        obtain ⟨g, hg, hpath⟩ := List.mem_map.mp hmem
        rw [← hpath]
        exact hwritten.settled g hg _ (hpath ▸ hreads f hf)

/-! ## Projects -/

theorem exists_ok_of_failure? {α : Type} {x : Except Failure α} (h : failure? x = none) :
    ∃ a, x = .ok a := by
  cases x with
  | error f => simp [failure?] at h
  | ok a => exact ⟨a, rfl⟩

theorem holdsNoFloats_of_any
    (h : ∀ language ∈ s.languages,
      ((Dictionary.read? w ((s.plan .empty).outputPath s.languages s.outputFile language)).toOption.join.any
        Dictionary.hasFloat) = false) : HoldsNoFloats w s := by
  intro language hlanguage d hd
  simpa [hd, Except.toOption] using h language hlanguage

theorem startsAgain_of_texts (paths : List String)
    (hconfig : Config.load after after.currentPath = Config.load w w.currentPath)
    (hpaths : selectFiles w w.currentPath s.pattern = .ok paths)
    (hselected : selectFiles after after.currentPath s.pattern = .ok paths)
    (htexts : readSources after "" paths = readSources w "" paths) : StartsAgain w after s := by
  refine ⟨hconfig, hselected.trans hpaths.symm, fun paths' hpaths' => ?_⟩
  obtain rfl := Except.ok.inj (hpaths.symm.trans hpaths')
  exact htexts

/-- A project with one key, and a Korean dictionary that has another one. -/
def greetingProject : Workspace where
  tree := .directory
    [ ("src", .directory [("a.tsx", .file (.text "t(\"hello\");\n".toList))]),
      ("locales", .directory [("ko.json", .file (.text "\x7b\"bye\": \"잘 가\"\x7d\n".toList))]) ]
  current := []

theorem extractProject_again_of_greeting :
    ∃ after r outputs, extractProject greetingProject {} = (after, .ok r) ∧
      extractProject after {} =
        (after, .ok { r with summary := { r.summary with outputs := outputs } }) ∧
      ∀ f ∈ outputs, f.added = 0 := by
  obtain ⟨r, hr⟩ : ∃ r, (extractProject greetingProject {}).2 = .ok r := by
    refine exists_ok_of_failure? ?_
    decide +kernel
  have hrun : extractProject greetingProject {} = ((extractProject greetingProject {}).1, .ok r) := by
    rw [← hr]
  have hload : Config.load greetingProject greetingProject.currentPath = .ok ⟨{}, false⟩ := by
    decide +kernel
  have hsettings : ExtractSettings.resolve {} ({} : Config).extract = .ok _ := rfl
  obtain ⟨outputs, hagain, -, hadded⟩ := extractProject_again hload hsettings rfl hrun
    (startsAgain_of_texts ["src/a.tsx"] (by decide +kernel) (by decide +kernel) (by decide +kernel)
      (by decide +kernel))
    (fun _ => holdsNoFloats_of_any (by decide +kernel)) nofun
  exact ⟨_, r, outputs, hrun, hagain, hadded rfl rfl⟩

/-- A project with one key and its texts. -/
def translatedProject : Workspace where
  tree := .directory
    [ ("src", .directory [("a.tsx", .file (.text "t(\"k\");\n".toList))]),
      ("locales", .directory
        [ ("en.json", .file (.text "\x7b\"k\": \"value\"\x7d\n".toList)),
          ("ko.json", .file (.text "\x7b\"k\": \"값\"\x7d\n".toList)) ]) ]
  current := []

/-- The dictionaries are read through a directory that only the first run makes. -/
def detouredArguments : ExtractArguments :=
  { format := some .csv, outputDirectory := some "locales/x/.." }

/-- A repeated run may write another sheet. -/
theorem extractProject_not_always_again :
    ¬ ∀ (w after : Workspace) (a : ExtractArguments) (loaded : Config.Loaded) (s : ExtractSettings)
      (r : ExtractResult), Config.load w w.currentPath = .ok loaded →
      ExtractSettings.resolve a loaded.config.extract = .ok s → s.merges = true →
      extractProject w a = (after, .ok r) → StartsAgain w after s → HoldsNoFloats w s →
        (extractProject after a).1.tree.contents = after.tree.contents := by
  intro hagain
  obtain ⟨r, hr⟩ : ∃ r, (extractProject translatedProject detouredArguments).2 = .ok r := by
    refine exists_ok_of_failure? ?_
    decide +kernel
  have hrun : extractProject translatedProject detouredArguments =
      ((extractProject translatedProject detouredArguments).1, .ok r) := by
    rw [← hr]
  have hload : Config.load translatedProject translatedProject.currentPath = .ok ⟨{}, false⟩ := by
    decide +kernel
  have hsettings : ExtractSettings.resolve detouredArguments ({} : Config).extract = .ok _ := rfl
  have hsame := hagain _ _ _ _ _ _ hload hsettings rfl hrun
    (startsAgain_of_texts ["src/a.tsx"] (by decide +kernel) (by decide +kernel) (by decide +kernel)
      (by decide +kernel))
    (holdsNoFloats_of_any (by decide +kernel))
  revert hsame
  decide +kernel

end Localization
