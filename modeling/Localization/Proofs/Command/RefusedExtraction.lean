import Localization.Proofs.Command.Repeated

/-!
What a failed extraction leaves behind. All that an extraction reads is read, and all that it writes is
rendered, before the first file is written, so that a run which fails without a failed write leaves the
file tree as it was. Main statement: `extractProject_refused`.
-/

namespace Localization

variable {w : Workspace} {a : ExtractArguments} {f : Failure} {α β : Type}

/-- A step that does not fail at writing. -/
def NeverWrites (x : Except Failure α) : Prop :=
  ∀ f, x = .error f → f.isWriting = false

theorem neverWrites_ok (r : α) : NeverWrites (.ok r : Except Failure α) :=
  nofun

theorem neverWrites_error (h : f.isWriting = false) : NeverWrites (.error f : Except Failure α) := by
  rintro g ⟨⟩
  exact h

theorem NeverWrites.bind {x : Except Failure α} {k : α → Except Failure β} (hx : NeverWrites x)
    (hk : ∀ r, NeverWrites (k r)) : NeverWrites (x >>= k) := by
  intro f h
  rcases bind_eq_error_iff.mp h with h | ⟨r, -, h⟩
  · exact hx f h
  · exact hk r f h

theorem NeverWrites.mapM {k : α → Except Failure β} (hk : ∀ r, NeverWrites (k r)) (l : List α) :
    NeverWrites (l.mapM k) := by
  intro f h
  obtain ⟨r, -, h⟩ := exists_mem_of_mapM_error h
  exact hk r f h

theorem neverWrites_mapError {ε : Type} {x : Except ε α} {g : ε → Failure}
    (hg : ∀ e, (g e).isWriting = false) : NeverWrites (x.mapError g) := by
  intro f h
  obtain ⟨e, -, rfl⟩ := mapError_eq_error_iff.mp h
  exact hg e

theorem NeverWrites.within {x : Except Failure α} {activity : Activity} (hx : NeverWrites x)
    (h : activity.isWriting = false) : NeverWrites (x.mapError (Failure.within activity)) := by
  intro f hf
  obtain ⟨g, hg, rfl⟩ := mapError_eq_error_iff.mp hf
  rw [Failure.isWriting, Failure.within, List.any_cons, h]
  exact hx g hg

theorem neverWrites_globsOf (pattern : String) : NeverWrites (globsOf pattern) :=
  .mapM (fun _ => neverWrites_mapError fun _ => rfl) _

theorem neverWrites_validate (c : Config) : NeverWrites c.validate := by
  have hlanguages : NeverWrites
      (if c.extract.languages.isEmpty then Except.error (.of .noConfiguredLanguage) else .ok ()) := by
    split
    · exact neverWrites_error rfl
    · exact neverWrites_ok ()
  rw [Config.validate]
  refine .bind (.within (neverWrites_globsOf _) rfl) fun _ => ?_
  refine .bind (.within (neverWrites_globsOf _) rfl) fun _ => ?_
  cases c.wrap.textPattern with
  | none => exact hlanguages
  | some pattern =>
      refine .bind (.within ?_ rfl) fun _ => hlanguages
      exact neverWrites_mapError fun _ => rfl

theorem neverWrites_load (w : Workspace) (directory : String) :
    NeverWrites (Config.load w directory) := by
  unfold Config.load
  split
  · exact neverWrites_ok _
  · refine .bind ?_ fun _ => neverWrites_ok _
    refine .bind (neverWrites_mapError fun e => Failure.isWriting_ofFile _ e) fun text => ?_
    refine .bind (neverWrites_mapError fun _ => rfl) fun c => ?_
    exact .bind (neverWrites_validate c) fun _ => neverWrites_ok c

theorem neverWrites_resolve (a : ExtractArguments) (c : ExtractConfig) :
    NeverWrites (ExtractSettings.resolve a c) :=
  iteInduction (fun _ => neverWrites_error rfl) fun _ => neverWrites_ok _

theorem neverWrites_parse? (path : String) (text : List Char) :
    NeverWrites (Dictionary.parse? path text) := by
  rw [Dictionary.parse?]
  split
  · exact neverWrites_error rfl
  · exact neverWrites_ok _
  · exact neverWrites_error rfl

theorem neverWrites_read? (w : Workspace) (path : String) : NeverWrites (Dictionary.read? w path) := by
  rw [Dictionary.read?]
  split
  · refine .bind (neverWrites_mapError fun e => Failure.isWriting_ofFile _ e) fun text => ?_
    exact .bind (neverWrites_parse? path text) fun _ => neverWrites_ok _
  · exact neverWrites_ok none

namespace Renderer

/-- The dictionaries that an output is rendered from. -/
def storedPaths (r : Renderer) (p : OutputPlan) : List String :=
  match r with
  | dictionaries languages fileName => languages.map (p.outputPath languages fileName)
  | sheet _ => [p.dictionaryPath "en", p.dictionaryPath "ko"]

variable {r : Renderer} {p : OutputPlan}

/-- Rendering fails only at a stored dictionary that counts and is refused. -/
theorem exists_refused_of_render (h : r.render p w = .error f) :
    p.merges = true ∧ ∃ path ∈ r.storedPaths p, Dictionary.read? w path = .error f := by
  have hexisting : ∀ {path}, p.existing? w path = .error f →
      p.merges = true ∧ Dictionary.read? w path = .error f := by
    intro path h
    rw [OutputPlan.existing?] at h
    split at h
    · next hmerges => exact ⟨hmerges, h⟩
    · cases h
  cases r with
  | dictionaries languages fileName =>
      obtain ⟨language, hlanguage, h⟩ := exists_mem_of_mapM_error h
      rcases bind_eq_error_iff.mp h with h | ⟨_, -, h⟩
      · exact ⟨(hexisting h).1, _, List.mem_map_of_mem hlanguage, (hexisting h).2⟩
      · cases h
  | sheet fileName =>
      rcases bind_eq_error_iff.mp h with h | ⟨_, -, h⟩
      · rcases bind_eq_error_iff.mp h with h | ⟨_, -, h⟩
        · exact ⟨(hexisting h).1, _, List.mem_cons_self, (hexisting h).2⟩
        · rcases bind_eq_error_iff.mp h with h | ⟨_, -, h⟩
          · exact ⟨(hexisting h).1, _, List.mem_cons_of_mem _ List.mem_cons_self, (hexisting h).2⟩
          · cases h
      · cases h

/-- No output is rendered where a dictionary that counts is refused. -/
theorem exists_render_error {path : String} (hmerges : p.merges = true)
    (hpath : path ∈ r.storedPaths p) (h : Dictionary.read? w path = .error f) :
    ∃ first, r.render p w = .error first := by
  have hexisting : p.existing? w path = .error f := by rw [OutputPlan.existing?, if_pos hmerges, h]
  cases r with
  | dictionaries languages fileName =>
      obtain ⟨language, hlanguage, rfl⟩ := List.mem_map.mp hpath
      refine exists_mapM_error hlanguage (e := f) ?_
      exact bind_eq_error_iff.mpr (.inl hexisting)
  | sheet fileName =>
      have hsheet : ∃ first, p.renderSheet w fileName = .error first := by
        cases henglish : p.existing? w (p.dictionaryPath "en") with
        | error first => exact ⟨first, bind_eq_error_iff.mpr (.inl henglish)⟩
        | ok english =>
            refine ⟨f, bind_eq_error_iff.mpr (.inr ⟨english, henglish, ?_⟩)⟩
            refine bind_eq_error_iff.mpr (.inl ?_)
            rcases List.mem_pair.mp hpath with rfl | rfl
            · rw [hexisting] at henglish
              cases henglish
            · exact hexisting
      obtain ⟨first, hfirst⟩ := hsheet
      exact ⟨first, bind_eq_error_iff.mpr (.inl hfirst)⟩

end Renderer

/-- The settings that a run comes to. -/
def Resolves (w : Workspace) (a : ExtractArguments) (s : ExtractSettings) : Prop :=
  ∃ loaded, Config.load w w.currentPath = .ok loaded ∧
    ExtractSettings.resolve a loaded.config.extract = .ok s

/-- What an extraction may come upon before it writes: a refused configuration, a command line without
languages, a refused pattern, a source that cannot be read, or a stored dictionary, of whichever
language, that cannot be read or is none. -/
inductive ExtractRefusal (w : Workspace) (a : ExtractArguments) : Failure → Prop where
  | config {f : Failure} (h : Config.load w w.currentPath = .error f) : ExtractRefusal w a f
  | languages {f : Failure} {loaded : Config.Loaded}
      (hload : Config.load w w.currentPath = .ok loaded)
      (h : ExtractSettings.resolve a loaded.config.extract = .error f) : ExtractRefusal w a f
  | pattern {f : Failure} {s : ExtractSettings} (hsettings : Resolves w a s)
      (h : globsOf s.pattern = .error f) : ExtractRefusal w a f
  | source {s : ExtractSettings} {paths : List String} {path : String} {e : FileError}
      (hsettings : Resolves w a s) (hpaths : selectFiles w w.currentPath s.pattern = .ok paths)
      (hpath : path ∈ paths) (h : w.readText (Path.join "" path) = .error e) :
      ExtractRefusal w a (.ofFile (.readingSource path) e)
  | dictionary {f : Failure} {s : ExtractSettings} {paths : List String} {sources : List SourceText}
      {path : String} (hsettings : Resolves w a s)
      (hpaths : selectFiles w w.currentPath s.pattern = .ok paths)
      (hsources : readSources w "" paths = .ok sources) (hmerges : s.merges = true)
      (hpath : path ∈ s.renderer.storedPaths (s.plan (Extraction.ofSources sources).keys))
      (h : Dictionary.read? w path = .error f) : ExtractRefusal w a f

/-- A run that cannot be planned has come upon what the failure tells of. -/
theorem refusal_of_planProject (h : planProject w a = .error f) : ExtractRefusal w a f := by
  rcases bind_eq_error_iff.mp h with h | ⟨loaded, hload, h⟩
  · exact .config h
  rcases bind_eq_error_iff.mp h with h | ⟨s, hresolve, h⟩
  · exact .languages hload h
  have hsettings : Resolves w a s := ⟨loaded, hload, hresolve⟩
  rcases bind_eq_error_iff.mp h with h | ⟨paths, hpaths, h⟩
  · rcases bind_eq_error_iff.mp h with h | ⟨_, -, h⟩
    · exact .pattern hsettings h
    · cases h
  rcases bind_eq_error_iff.mp h with h | ⟨extraction, hextraction, h⟩
  · rcases bind_eq_error_iff.mp h with h | ⟨_, -, h⟩
    · obtain ⟨path, hpath, h⟩ := exists_mem_of_mapM_error h
      rcases bind_eq_error_iff.mp h with h | ⟨_, -, h⟩
      · obtain ⟨e, hread, rfl⟩ := mapError_eq_error_iff.mp h
        exact .source hsettings hpaths hpath hread
      · cases h
    · cases h
  rcases bind_eq_error_iff.mp h with h | ⟨_, -, h⟩
  · rw [Extraction.ofFiles] at hextraction
    cases hsources : readSources w "" paths with
    | error e => simp [hsources, bind, Except.bind] at hextraction
    | ok sources =>
        obtain rfl : Extraction.ofSources sources = extraction := by
          simpa [hsources, bind, Except.bind] using hextraction
        obtain ⟨hmerges, path, hpath, h⟩ := Renderer.exists_refused_of_render h
        exact .dictionary hsettings hpaths hsources hmerges hpath h
  · cases h

theorem Resolves.planProject_eq {s : ExtractSettings} (h : Resolves w a s) :
    planProject w a = planExtraction w s := by
  obtain ⟨loaded, hload, hresolve⟩ := h
  simp only [planProject, hload, hresolve, bind, Except.bind]

/-- A run that would come upon any of these cannot be planned. -/
theorem ExtractRefusal.exists_planProject_error (h : ExtractRefusal w a f) :
    ∃ first, planProject w a = .error first := by
  cases h with
  | config h => exact ⟨f, bind_eq_error_iff.mpr (.inl h)⟩
  | languages hload h =>
      exact ⟨f, bind_eq_error_iff.mpr (.inr ⟨_, hload, bind_eq_error_iff.mpr (.inl h)⟩)⟩
  | pattern hsettings h =>
      rw [hsettings.planProject_eq]
      exact ⟨f, bind_eq_error_iff.mpr (.inl (bind_eq_error_iff.mpr (.inl h)))⟩
  | source hsettings hpaths hpath h =>
      rw [hsettings.planProject_eq]
      obtain ⟨first, hfirst⟩ := exists_mapM_error (f := fun path => do
        let text ← (w.readText (Path.join "" path)).mapError (Failure.ofFile (.readingSource path))
        .ok (⟨path, text⟩ : SourceText)) hpath
        (bind_eq_error_iff.mpr (.inl (mapError_eq_error_iff.mpr ⟨_, h, rfl⟩)))
      refine ⟨first, bind_eq_error_iff.mpr (.inr ⟨_, hpaths, bind_eq_error_iff.mpr (.inl ?_)⟩)⟩
      exact bind_eq_error_iff.mpr (.inl hfirst)
  | dictionary hsettings hpaths hsources hmerges hpath h =>
      rw [hsettings.planProject_eq]
      obtain ⟨first, hfirst⟩ := Renderer.exists_render_error hmerges hpath h
      refine ⟨first, bind_eq_error_iff.mpr (.inr ⟨_, hpaths, ?_⟩)⟩
      refine bind_eq_error_iff.mpr (.inr ⟨_, ?_, bind_eq_error_iff.mpr (.inl hfirst)⟩)
      rw [Extraction.ofFiles, hsources]
      rfl

theorem ExtractRefusal.isWriting (h : ExtractRefusal w a f) : f.isWriting = false := by
  cases h with
  | config h => exact neverWrites_load w _ f h
  | languages _ h => exact neverWrites_resolve a _ f h
  | pattern _ h => exact neverWrites_globsOf _ f h
  | source _ _ _ _ => exact Failure.isWriting_ofFile _ _
  | dictionary _ _ _ _ _ h => exact neverWrites_read? w _ f h

/-- The only failures of writing outputs are those of a write. -/
theorem OutputFile.isWriting_of_writeAll {files : List OutputFile} {after : Workspace}
    (h : OutputFile.writeAll files w = (after, .error f)) : f.isWriting = true := by
  induction files generalizing w with
  | nil => simp [OutputFile.writeAll] at h
  | cons file rest ih =>
      rw [OutputFile.writeAll] at h
      split at h
      · next hsave =>
          simp only [Prod.mk.injEq, Except.error.injEq] at h
          exact h.2 ▸ Workspace.isWriting_of_save hsave
      · exact ih h

theorem ExtractResult.isWriting_of_perform {r : ExtractResult}
    (h : (r.perform w).2 = .error f) : f.isWriting = true := by
  rw [ExtractResult.perform] at h
  split at h
  · cases h
  · split at h
    · next hwrite =>
        obtain rfl := Except.error.inj h
        exact OutputFile.isWriting_of_writeAll hwrite
    · cases h

/-- A run that fails without a failed write leaves the file tree as it was: it has come upon something
that is refused before anything is written, and every such thing is reported that way. -/
theorem extractProject_refused (h : (extractProject w a).2 = .error f) :
    (f.isWriting = false ↔ ExtractRefusal w a f) ∧
      (f.isWriting = false → (extractProject w a).1 = w) := by
  unfold extractProject at h ⊢
  cases hplan : planProject w a with
  | error first =>
      rewrite [hplan] at h
      obtain rfl := Except.error.inj h
      have hrefusal := refusal_of_planProject hplan
      exact ⟨iff_of_true hrefusal.isWriting hrefusal, fun _ => rfl⟩
  | ok r =>
      rewrite [hplan] at h
      have hwriting : f.isWriting ≠ false :=
        Bool.ne_false_iff.mpr (ExtractResult.isWriting_of_perform h)
      exact ⟨iff_of_false hwriting fun hrefusal => hwriting hrefusal.isWriting,
        fun hf => absurd hf hwriting⟩

/-- A project whose English dictionary lacks a key, and whose Korean one is no dictionary. -/
def lastLanguageProject : Workspace where
  tree := .directory
    [ ("src", .directory [("a.tsx", .file (.text "t(\"hello\");\n".toList))]),
      ("locales", .directory
        [ ("en.json", .file (.text "\x7b\"bye\": \"Bye\"\x7d\n".toList)),
          ("ko.json", .file (.text "[\"bye\"]\n".toList)) ]) ]
  current := []

/-- The English dictionary is not written either. -/
theorem extractProject_refused_of_lastLanguage :
    (extractProject lastLanguageProject {}).2 = .error (.of (.notDictionary "./locales/ko.json")) ∧
      ExtractRefusal lastLanguageProject {} (.of (.notDictionary "./locales/ko.json")) ∧
      (extractProject lastLanguageProject {}).1 = lastLanguageProject := by
  have hfails : (extractProject lastLanguageProject {}).2 =
      .error (.of (.notDictionary "./locales/ko.json")) := by
    refine failure?_eq_some.mp ?_
    decide +kernel
  obtain ⟨hrefused, hkept⟩ := extractProject_refused hfails
  exact ⟨hfails, hrefused.mp rfl, hkept rfl⟩

end Localization
