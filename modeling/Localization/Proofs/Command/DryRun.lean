import Localization.Command.Extract
import Localization.Proofs.Command.Sources

/-!
Dry runs. A dry run changes nothing, and tells what the run itself would tell. Main statement:
`dryRun_predicts`.
-/

namespace Localization

variable {w after : Workspace}

/-! ## Wrapping -/

/-- The mark of a dry run. -/
def WrapResult.marked (isDryRun : Bool) (r : WrapResult) : WrapResult :=
  { r with summary := { r.summary with isDryRun := isDryRun } }

theorem updateKeyFile_dry (w : Workspace) (path : String) (keys : KeyMap) :
    (updateKeyFile w path keys true).1 = w := by
  unfold updateKeyFile
  split
  · rfl
  · rfl

theorem WrapPlan.perform_dry (p : WrapPlan) (w : Workspace) {s : WrapSettings} (hdry : s.isDryRun = true) :
    (p.perform w s).1 = w := by
  have hstart : p.start w true = (w, .ok ()) := rfl
  rw [perform_eq, hdry, hstart]
  dsimp only
  split
  · rfl
  · have hkeys := updateKeyFile_dry w s.keyFilePath p.keys
    split
    · next hupdate => rwa [hupdate] at hkeys
    · next hupdate => rwa [hupdate] at hkeys

theorem wrapProject_dry (w : Workspace) {a : WrapArguments} (hdry : a.isDryRun = true) :
    (wrapProject w a).1 = w := by
  unfold wrapProject
  split
  · rfl
  · dsimp only
    split
    · rfl
    · next plan hplan => exact plan.perform_dry w hdry

/-- A plan that was carried out is told of in the same way if it is not carried out. -/
theorem WrapPlan.perform_predicts {p : WrapPlan} {s : WrapSettings} {r : WrapResult}
    (hplan : make w s = .ok p) (hreal : s.isDryRun = false) (h : p.perform w s = (after, .ok r)) :
    p.perform w { s with isDryRun := true } =
      (w, .ok (r.marked true)) := by
  obtain ⟨written, hstart, h⟩ := perform_eq_ok_iff.mp h
  rw [start, hreal, if_neg Bool.false_ne_true] at hstart
  obtain ⟨written', hwrite, hwritten⟩ := exists_written_of_make hplan
  obtain rfl : written' = written := congrArg Prod.fst (hwrite.symm.trans hstart)
  refine perform_eq_ok_iff.mpr ⟨w, rfl, ?_⟩
  cases hkeys : p.keys.isEmpty with
  | true =>
      rw [hkeys, if_pos rfl] at h
      obtain ⟨-, rfl⟩ := h
      exact ⟨rfl, rfl⟩
  | false =>
      rw [hkeys, if_neg Bool.false_ne_true] at h
      obtain ⟨keyFile, hupdate, rfl⟩ := h
      obtain ⟨existing, hread, hkeyFile, -⟩ := updateKeyFile_eq_ok_iff.mp hupdate
      refine ⟨keyFile, updateKeyFile_eq_ok_iff.mpr ⟨existing, ?_, hkeyFile, rfl⟩, rfl⟩
      exact hwritten.read?_eq (fun t ht => (of_mem_wrapped hplan ht).2) hread

theorem wrapProject_predicts {a : WrapArguments} {r : WrapResult}
    (h : wrapProject w { a with isDryRun := false } = (after, .ok r)) :
    wrapProject w { a with isDryRun := true } =
      (w, .ok (r.marked true)) := by
  obtain ⟨loaded, plan, hload, hplan, hperform⟩ := wrapProject_eq_ok_iff.mp h
  have hsettings : WrapSettings.resolve { a with isDryRun := true } loaded.config.wrap =
      { WrapSettings.resolve { a with isDryRun := false } loaded.config.wrap with isDryRun := true } := rfl
  refine wrapProject_eq_ok_iff.mpr ⟨loaded, plan, hload, ?_, ?_⟩
  · exact hplan
  · rw [hsettings]
    exact plan.perform_predicts hplan rfl hperform

/-! ## Extraction -/

/-- The mark of a dry run. -/
def ExtractResult.marked (isDryRun : Bool) (r : ExtractResult) : ExtractResult :=
  { r with summary := { r.summary with isDryRun := isDryRun } }

theorem planExtraction_marked (w : Workspace) (s : ExtractSettings) (isDryRun : Bool) :
    planExtraction w { s with isDryRun := isDryRun } =
      (planExtraction w s).map (ExtractResult.marked isDryRun) := by
  have hrenderer : ({ s with isDryRun := isDryRun } : ExtractSettings).renderer = s.renderer := rfl
  have hplan : ({ s with isDryRun := isDryRun } : ExtractSettings).plan = s.plan := rfl
  unfold planExtraction
  rw [hrenderer, hplan]
  cases selectFiles w w.currentPath s.pattern with
  | error f => rfl
  | ok paths =>
      cases hfiles : Extraction.ofFiles w paths with
      | error f => simp only [bind, Except.bind, hfiles, Except.map]
      | ok extraction =>
          cases hrender : s.renderer.render (s.plan extraction.keys) w with
          | error f => simp only [bind, Except.bind, hfiles, hrender, Except.map]
          | ok outputs =>
              simp only [bind, Except.bind, hfiles, hrender, Except.map]
              rfl

theorem planProject_marked (w : Workspace) (a : ExtractArguments) (isDryRun : Bool) :
    planProject w { a with isDryRun := isDryRun } =
      (planProject w a).map (ExtractResult.marked isDryRun) := by
  unfold planProject
  cases Config.load w w.currentPath with
  | error f => rfl
  | ok loaded =>
      have hresolve : ExtractSettings.resolve { a with isDryRun := isDryRun } loaded.config.extract =
          (ExtractSettings.resolve a loaded.config.extract).map
            fun s => { s with isDryRun := isDryRun } := by
        unfold ExtractSettings.resolve
        dsimp only
        generalize (if a.languages.isEmpty then loaded.config.extract.languages
          else ExtractSettings.namedLanguages a.languages) = languages
        cases languages.isEmpty with
        | true => rfl
        | false => rfl
      simp only [bind, Except.bind]
      rw [hresolve]
      cases ExtractSettings.resolve a loaded.config.extract with
      | error f => rfl
      | ok s => exact planExtraction_marked w s isDryRun

theorem extractProject_marked_true (w : Workspace) (a : ExtractArguments) :
    extractProject w { a with isDryRun := true } =
      (w, (planProject w a).map (ExtractResult.marked true)) := by
  unfold extractProject
  rw [planProject_marked]
  cases planProject w a with
  | error f => rfl
  | ok r => rfl

theorem extractProject_predicts {a : ExtractArguments} {r : ExtractResult}
    (h : extractProject w { a with isDryRun := false } = (after, .ok r)) :
    extractProject w { a with isDryRun := true } = (w, .ok (r.marked true)) := by
  rw [extractProject_marked_true]
  unfold extractProject at h
  rw [planProject_marked] at h
  cases hplan : planProject w a with
  | error f =>
      rw [hplan] at h
      simp [Except.map] at h
  | ok planned =>
      rw [hplan] at h
      dsimp only [Except.map, ExtractResult.perform, ExtractResult.marked] at h
      rw [if_neg Bool.false_ne_true] at h
      split at h
      · simp at h
      · obtain ⟨-, hr⟩ := Prod.mk.inj h
        rw [← Except.ok.inj hr]
        rfl

/-- A dry run of either command leaves everything as it is. It tells what the run itself tells, if that
succeeds, apart from the mark of a dry run. -/
theorem dryRun_predicts (w : Workspace) :
    (∀ a : WrapArguments, (wrapProject w { a with isDryRun := true }).1 = w ∧
      ∀ after r, wrapProject w { a with isDryRun := false } = (after, .ok r) →
        (wrapProject w { a with isDryRun := true }).2 = .ok (r.marked true)) ∧
    ∀ a : ExtractArguments, (extractProject w { a with isDryRun := true }).1 = w ∧
      ∀ after r, extractProject w { a with isDryRun := false } = (after, .ok r) →
        (extractProject w { a with isDryRun := true }).2 = .ok (r.marked true) := by
  refine ⟨fun a => ⟨wrapProject_dry w rfl, fun after r h => ?_⟩, fun a => ⟨?_, fun after r h => ?_⟩⟩
  · exact congrArg Prod.snd (wrapProject_predicts h)
  · exact congrArg Prod.fst (extractProject_marked_true w a)
  · exact congrArg Prod.snd (extractProject_predicts h)

/-- A project with a text, and a key file that has another one. -/
def keyedProject : Workspace where
  tree := .directory
    [ ("src", .directory
        [("a.tsx", .file (.text "function A() \x7b return <p>안녕</p>; \x7d\n".toList))]),
      ("locales", .directory [("common.json", .file (.text "\x7b\"bye\": \"잘 가\"\x7d\n".toList))]) ]
  current := []

theorem dryRun_predicts_keyed :
    (∃ after r, wrapProject keyedProject { generateKeys := true } = (after, .ok r) ∧
      r.summary.keyFile = some ⟨"./locales/common.json", 1, 1⟩ ∧
        wrapProject keyedProject { generateKeys := true, isDryRun := true } =
          (keyedProject, .ok (r.marked true))) ∧
    ∃ after r, extractProject keyedProject {} = (after, .ok r) ∧
      extractProject keyedProject { isDryRun := true } = (keyedProject, .ok (r.marked true)) := by
  obtain ⟨hwrap, hextract⟩ := dryRun_predicts keyedProject
  constructor
  · obtain ⟨r, hr, hkeyFile⟩ := exists_ok_of_any
      (x := (wrapProject keyedProject { generateKeys := true }).2)
      (p := fun r => r.summary.keyFile == some ⟨"./locales/common.json", 1, 1⟩) (by decide +kernel)
    have hrun := eq_of_fst_of_snd rfl hr
    obtain ⟨hkept, hpredicts⟩ := hwrap { generateKeys := true }
    exact ⟨_, r, hrun, beq_iff_eq.mp hkeyFile, eq_of_fst_of_snd hkept (hpredicts _ r hrun)⟩
  · obtain ⟨r, hr, -⟩ := exists_ok_of_any (x := (extractProject keyedProject {}).2)
      (p := fun _ => true) (by decide +kernel)
    have hrun := eq_of_fst_of_snd rfl hr
    obtain ⟨hkept, hpredicts⟩ := hextract {}
    exact ⟨_, r, hrun, eq_of_fst_of_snd hkept (hpredicts _ r hrun)⟩

end Localization
