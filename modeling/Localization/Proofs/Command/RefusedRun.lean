import Localization.Command.Wrap

/-!
What a failed wrapping run leaves behind. A run that fails before it writes leaves the file tree as it
was. There is one way to fail later without a failed write: the key file is read when the sources have
been written, and may be refused then.
-/

namespace Localization

/-- Whether a step writes a file or makes a directory for one. -/
def Activity.isWriting : Activity → Bool
  | .creatingDirectory _ | .writingFile _ | .writingConfig _ => true
  | _ => false

def Failure.isWriting (f : Failure) : Bool :=
  f.during.any Activity.isWriting

theorem Failure.isWriting_ofFile (activity : Activity) (e : FileError) :
    (Failure.ofFile activity e).isWriting = activity.isWriting := by
  simp [Failure.ofFile, Failure.isWriting]

/-- The only failures of writing sources are those of a write. -/
theorem WrapPlan.isWriting_of_writeSources {sources : List (String × WrappedSource)}
    {w after : Workspace} {f : Failure}
    (h : WrapPlan.writeSources sources w = (after, .error f)) : f.isWriting = true := by
  induction sources generalizing w with
  | nil => cases h
  | cons source rest ih =>
      obtain ⟨path, r⟩ := source
      unfold WrapPlan.writeSources at h
      dsimp only at h
      split at h
      · simp only [Prod.mk.injEq, Except.error.injEq] at h
        rw [← h.2, Failure.isWriting_ofFile]
        rfl
      · exact ih h

theorem Workspace.isWriting_of_save {w after : Workspace} {path : String} {text : List Char}
    {f : Failure} (h : w.save path text = (after, .error f)) : f.isWriting = true := by
  simp only [Workspace.save] at h
  split at h
  · next hmade =>
      simp only [Prod.mk.injEq, Except.error.injEq] at h
      obtain ⟨-, rfl⟩ := h
      split at hmade
      · simp at hmade
      · split at hmade
        · simp at hmade
        · next parent _ _ =>
            cases hdir : w.makeDirectories parent with
            | ok made =>
                rw [hdir] at hmade
                contradiction
            | error e =>
                rw [hdir] at hmade
                obtain rfl := Except.error.inj hmade
                exact Failure.isWriting_ofFile _ e
  · split at h
    · simp only [Prod.mk.injEq, Except.error.injEq] at h
      rw [← h.2, Failure.isWriting_ofFile]
      rfl
    · simp at h

/-- Adding keys to the key file fails without a failed write only where the file is refused as it
stands, and then nothing is written to it. -/
theorem updateKeyFile_refused {w after : Workspace} {path : String} {keys : KeyMap}
    {isDryRun : Bool} {f : Failure} (h : updateKeyFile w path keys isDryRun = (after, .error f))
    (hf : f.isWriting = false) : after = w ∧ Dictionary.read? w path = .error f := by
  simp only [updateKeyFile] at h
  split at h
  · next hread =>
      simp only [Prod.mk.injEq, Except.error.injEq] at h
      obtain ⟨rfl, rfl⟩ := h
      exact ⟨rfl, hread⟩
  · split at h
    · simp at h
    · split at h
      · simp at h
      · next hwrite =>
          simp only [Prod.mk.injEq, Except.error.injEq] at h
          obtain ⟨-, rfl⟩ := h
          rw [Workspace.isWriting_of_save hwrite] at hf
          contradiction

/-- A run has written its sources, of which `written` is the outcome, and has keys for the key file. -/
def ReachesKeyFile (w : Workspace) (a : WrapArguments) (written : Workspace)
    (keyFile : String) : Prop :=
  ∃ loaded plan,
    Config.load w w.currentPath = .ok loaded ∧
    WrapPlan.make w (WrapSettings.resolve a loaded.config.wrap) = .ok plan ∧
    (WrapSettings.resolve a loaded.config.wrap).isDryRun = false ∧
    plan.keys.isEmpty = false ∧
    WrapPlan.writeSources plan.wrapped w = (written, .ok ()) ∧
    (WrapSettings.resolve a loaded.config.wrap).keyFilePath = keyFile

/-- A plan that is carried out fails without a failed write only at the key file. Until then a real run
has written its sources, and a dry run nothing. -/
theorem WrapPlan.perform_refused {p : WrapPlan} {w after : Workspace} {s : WrapSettings}
    {f : Failure} (h : p.perform w s = (after, .error f)) (hf : f.isWriting = false) :
    p.keys.isEmpty = false ∧ Dictionary.read? after s.keyFilePath = .error f ∧
      (if s.isDryRun then after = w
        else WrapPlan.writeSources p.wrapped w = (after, .ok ())) := by
  simp only [WrapPlan.perform] at h
  split at h
  · next hsources =>
      simp only [Prod.mk.injEq, Except.error.injEq] at h
      obtain ⟨rfl, rfl⟩ := h
      split at hsources
      · simp at hsources
      · rw [WrapPlan.isWriting_of_writeSources hsources] at hf
        contradiction
  · next written hsources =>
      split at h
      · simp at h
      · next hkeys =>
          split at h
          · next hkeyFile =>
              simp only [Prod.mk.injEq, Except.error.injEq] at h
              obtain ⟨rfl, rfl⟩ := h
              obtain ⟨rfl, hread⟩ := updateKeyFile_refused hkeyFile hf
              refine ⟨by simpa using hkeys, hread, ?_⟩
              split at hsources
              · next hdry =>
                  simp only [Prod.mk.injEq, and_true] at hsources
                  simp [hdry, hsources]
              · next hdry => simpa [hdry] using hsources
          · simp at h

theorem ReachesKeyFile.unique {w first second : Workspace} {a : WrapArguments}
    {firstFile secondFile : String} (h : ReachesKeyFile w a first firstFile)
    (h' : ReachesKeyFile w a second secondFile) : first = second ∧ firstFile = secondFile := by
  obtain ⟨loaded, plan, hload, hplan, -, -, hwrite, rfl⟩ := h
  obtain ⟨loaded', plan', hload', hplan', -, -, hwrite', rfl⟩ := h'
  rw [hload, Except.ok.injEq] at hload'
  subst hload'
  rw [hplan, Except.ok.injEq] at hplan'
  subst hplan'
  rw [hwrite, Prod.mk.injEq] at hwrite'
  exact ⟨hwrite'.1, rfl⟩

/-- A run that fails without a failed write either leaves the file tree as it was or has come to the key
file, which is refused. -/
theorem wrapProject_refused {w after : Workspace} {a : WrapArguments} {f : Failure}
    (h : wrapProject w a = (after, .error f)) (hf : f.isWriting = false) :
    (after = w ∧ ∀ written keyFile, ¬ ReachesKeyFile w a written keyFile) ∨
      ∃ keyFile, ReachesKeyFile w a after keyFile ∧ Dictionary.read? after keyFile = .error f := by
  unfold wrapProject at h
  dsimp only at h
  split at h
  · next hload =>
      simp only [Prod.mk.injEq] at h
      refine .inl ⟨h.1.symm, ?_⟩
      rintro written keyFile ⟨loaded, plan, hloaded, -⟩
      rw [hload] at hloaded
      contradiction
  · next loaded hload =>
      split at h
      · next hplan =>
          simp only [Prod.mk.injEq] at h
          refine .inl ⟨h.1.symm, ?_⟩
          rintro written keyFile ⟨loaded', plan, hloaded, hmade, -⟩
          rw [hload, Except.ok.injEq] at hloaded
          subst hloaded
          rw [hplan] at hmade
          contradiction
      · next plan hplan =>
          obtain ⟨hkeys, hread, hsources⟩ := WrapPlan.perform_refused h hf
          cases hdry : (WrapSettings.resolve a loaded.config.wrap).isDryRun with
          | true =>
              refine .inl ⟨by simpa [hdry] using hsources, ?_⟩
              rintro written keyFile ⟨loaded', plan', hloaded, -, hreal, -⟩
              rw [hload, Except.ok.injEq] at hloaded
              subst hloaded
              rw [hdry] at hreal
              contradiction
          | false =>
              -- The sources are written by now, whether or not that made a difference.
              exact .inr ⟨_, ⟨loaded, plan, hload, hplan, hdry, hkeys,
                by simpa [hdry] using hsources, rfl⟩, hread⟩

/-- A run that fails without a failed write leaves the file tree as it was exactly if it does not come to
the key file after writing sources that made a difference. What stands in the tree then is what was
written, and the failure is that the key file is refused. -/
theorem wrapProject_keeps_iff {w : Workspace} {a : WrapArguments} {f : Failure}
    (h : (wrapProject w a).2 = .error f) (hf : f.isWriting = false) :
    ((wrapProject w a).1 = w ↔
        ∀ written keyFile, ReachesKeyFile w a written keyFile → written = w) ∧
      ∀ written keyFile, ReachesKeyFile w a written keyFile →
        (wrapProject w a).1 = written ∧ Dictionary.read? written keyFile = .error f := by
  have hrun : wrapProject w a = ((wrapProject w a).1, .error f) := by rw [← h]
  rcases wrapProject_refused hrun hf with ⟨hkept, hnone⟩ | ⟨keyFile, hreach, hread⟩
  · exact ⟨⟨fun _ written keyFile hreach => absurd hreach (hnone written keyFile), fun _ => hkept⟩,
      fun written keyFile hreach => absurd hreach (hnone written keyFile)⟩
  · refine ⟨⟨?_, fun hkept => hkept _ keyFile hreach⟩, ?_⟩
    · intro hkept written keyFile' hreach'
      rw [(hreach'.unique hreach).1, hkept]
    · intro written keyFile' hreach'
      obtain ⟨hwritten, hfile⟩ := hreach.unique hreach'
      subst hfile
      rw [← hwritten]
      exact ⟨rfl, hread⟩

def failure? {α : Type} : Except Failure α → Option Failure
  | .error f => some f
  | .ok _ => none

theorem failure?_eq_some {α : Type} {x : Except Failure α} {f : Failure} :
    failure? x = some f ↔ x = .error f := by
  cases x with
  | error e => simp [failure?]
  | ok a => simp [failure?]

/-- A project with one source, and a key file that is not JSON. -/
def damagedProject : Workspace where
  tree := .directory
    [ ("src", .directory
        [("a.tsx", .file (.text "function A() \x7b return <p>안녕</p>; \x7d\n".toList))]),
      ("locales", .directory [("common.json", .file (.text "\x7b not json".toList))]) ]
  current := []

def damagedKeyFile : Failure where
  during := [.parsingDictionary "./locales/common.json"]
  cause := .json ⟨.keyNotString, 1, 3⟩

theorem damagedProject_fails :
    (wrapProject damagedProject { generateKeys := true }).2 = .error damagedKeyFile := by
  refine failure?_eq_some.mp ?_
  decide +kernel

theorem damagedProject_changes :
    (wrapProject damagedProject { generateKeys := true }).1.tree.contents ≠
      damagedProject.tree.contents := by
  decide +kernel

/-- The sources are written before the key file is found to be refused. -/
theorem wrapProject_keeps_iff_of_damaged :
    damagedKeyFile.isWriting = false ∧
      ∃ written keyFile, ReachesKeyFile damagedProject { generateKeys := true } written keyFile ∧
        written ≠ damagedProject ∧ Dictionary.read? written keyFile = .error damagedKeyFile := by
  refine ⟨rfl, ?_⟩
  obtain ⟨hkeeps, hreached⟩ := wrapProject_keeps_iff damagedProject_fails rfl
  refine Classical.byContradiction fun hnone => damagedProject_changes ?_
  rw [hkeeps.mpr]
  intro written keyFile hreach
  refine Classical.byContradiction fun hchanged => hnone ?_
  exact ⟨written, keyFile, hreach, hchanged, (hreached written keyFile hreach).2⟩

/-- Not every run that fails without a failed write leaves the files as they were. -/
theorem wrapProject_not_always_keeps :
    ¬ ∀ (w : Workspace) (a : WrapArguments) (f : Failure),
      (wrapProject w a).2 = .error f → f.isWriting = false →
        (wrapProject w a).1.tree.contents = w.tree.contents := fun hkeeps =>
  damagedProject_changes (hkeeps _ _ _ damagedProject_fails rfl)

end Localization
