import Localization.Proofs.Command.Sources
import Localization.Proofs.Key.Reordered
import Localization.Proofs.Pattern.Removed

/-!
Sources that do not parse. Without such a source an extraction gives the same keys, and a wrapping run
writes the same. Main statement: `unparsed_source_changes_nothing`.
-/

namespace Localization

/-! ## Extraction -/

namespace Extraction

variable {w : Workspace} {before behind : List String} {path : String} {text : List Char}

theorem ofSources_eq (sources : List SourceText) : ofSources sources =
    ⟨.ofOccurrences (occurrencesIn sources), (ofSources sources).skipped, sources.length⟩ := by
  rw [← keys_ofSources]
  rfl

/-- A source that does not parse adds nothing but itself. -/
theorem ofFiles_skips (hread : ∀ p ∈ before ++ behind, ∃ text, w.readText (Path.join "" p) = .ok text)
    (htext : w.readText (Path.join "" path) = .ok text) {e : Source.SyntaxError}
    (hparse : Source.parseFile path text = .error e) :
    ∃ keys front back f scanned,
      ofFiles w (before ++ path :: behind) = .ok ⟨keys, front ++ ⟨path, f⟩ :: back, scanned + 1⟩ ∧
        ofFiles w (before ++ behind) = .ok ⟨keys, front ++ back, scanned⟩ := by
  obtain ⟨first, hfirst⟩ := exists_readSources fun p hp => hread p (List.mem_append_left _ hp)
  obtain ⟨second, hsecond⟩ := exists_readSources fun p hp => hread p (List.mem_append_right _ hp)
  rw [readSources_eq_ok_iff] at hfirst hsecond
  have hskipped : occurrences ⟨path, text⟩ = .error (.of (.source path)) := by
    rw [occurrences, hparse]
  have hwith : readSources w "" (before ++ path :: behind) = .ok (first ++ ⟨path, text⟩ :: second) :=
    readSources_eq_ok_iff.mpr (List.rel_append hfirst (.cons ⟨htext, rfl⟩ hsecond))
  have hwithout : readSources w "" (before ++ behind) = .ok (first ++ second) :=
    readSources_eq_ok_iff.mpr (List.rel_append hfirst hsecond)
  have hkeys : occurrencesIn (first ++ ⟨path, text⟩ :: second) = occurrencesIn (first ++ second) := by
    simp only [occurrencesIn, List.flatMap_append, List.flatMap_cons, hskipped]
    rfl
  refine ⟨.ofOccurrences (occurrencesIn (first ++ second)), (ofSources first).skipped,
    (ofSources second).skipped, .of (.source path), (first ++ second).length, ?_, ?_⟩
  · rw [ofFiles_of_readSources hwith, ofSources_eq, hkeys]
    simp only [skipped_ofSources, List.filterMap_append, List.filterMap_cons, hskipped, List.length_append,
      List.length_cons, Nat.add_assoc]
  · rw [ofFiles_of_readSources hwithout, ofSources_eq]
    simp only [skipped_ofSources, List.filterMap_append]

end Extraction

/-! ## The configuration -/

namespace Config

variable {w less : Workspace} {gone : Location}

/-- The path at which the search for a configuration ends: that of the configuration, or the mark of the
top of the repository. -/
def stopFrom (w : Workspace) : Nat → String → Option String
  | 0, _ => none
  | levels + 1, directory =>
    let path := Path.join directory fileName
    let mark := Path.join directory repositoryMark
    if w.exists path then some path
    else if w.exists mark then some mark
    else
      match Path.parent? directory with
      | none => none
      | some above => stopFrom w levels above

def stop? (w : Workspace) (directory : String) : Option String :=
  stopFrom w (directory.length + 1) directory

theorem findFrom_without (h : w.Without less gone) {levels : Nat} {directory : String}
    (hstop : ∀ path, stopFrom w levels directory = some path → w.locate path ≠ .ok gone) :
    findFrom less levels directory = findFrom w levels directory := by
  have hsame : ∀ path, (w.exists path = true → w.locate path ≠ .ok gone) →
      less.exists path = w.exists path := by
    intro path hpath
    exact Bool.eq_iff_iff.mpr (h.exists_iff.trans (and_iff_left_of_imp hpath))
  induction levels generalizing directory with
  | zero => rfl
  | succ levels ih =>
      rw [stopFrom] at hstop
      rw [findFrom, findFrom]
      cases hpath : w.exists (Path.join directory fileName) with
      | true =>
          simp only [hpath, if_true, Option.some.injEq, forall_eq'] at hstop ⊢
          rw [hsame _ fun _ => hstop, hpath]
          rfl
      | false =>
          have hless : less.exists (Path.join directory fileName) = false := by
            rw [hsame _ (by simp [hpath]), hpath]
          simp only [hpath, hless, Bool.false_eq_true, if_false] at hstop ⊢
          cases hmark : w.exists (Path.join directory repositoryMark) with
          | true =>
              simp only [hmark, if_true, Option.some.injEq, forall_eq'] at hstop ⊢
              rw [hsame _ fun _ => hstop, hmark]
              rfl
          | false =>
              have hlessMark : less.exists (Path.join directory repositoryMark) = false := by
                rw [hsame _ (by simp [hmark]), hmark]
              simp only [hmark, hlessMark, Bool.false_eq_true, if_false] at hstop ⊢
              cases hparent : Path.parent? directory with
              | none => rfl
              | some above =>
                  rw [hparent] at hstop
                  exact ih hstop

theorem stopFrom_of_findFrom {levels : Nat} {directory path : String}
    (h : findFrom w levels directory = some path) : stopFrom w levels directory = some path := by
  induction levels generalizing directory with
  | zero => simp [findFrom] at h
  | succ levels ih =>
      rw [findFrom] at h
      rw [stopFrom]
      split at h
      · next hpath => rwa [if_pos hpath]
      · next hpath =>
          split at h
          · contradiction
          · next hmark =>
              simp only [hpath, hmark]
              cases hparent : Path.parent? directory with
              | none => simp [hparent] at h
              | some above =>
                  rw [hparent] at h
                  exact ih h

/-- The same configuration is loaded without a file at which its search does not end. -/
theorem load_without (h : w.Without less gone) {directory : String} {loaded : Loaded}
    (hstop : ∀ path, stop? w directory = some path → w.locate path ≠ .ok gone)
    (hload : load w directory = .ok loaded) : load less directory = .ok loaded := by
  unfold load find? at hload ⊢
  rw [findFrom_without h hstop]
  cases hfind : findFrom w (directory.length + 1) directory with
  | none =>
      rw [hfind] at hload
      exact hload
  | some path =>
      rw [hfind] at hload
      have hgone := hstop path (stopFrom_of_findFrom hfind)
      dsimp only at hload ⊢
      cases htext : w.readText path with
      | error e => simp [read, htext, Except.mapError, bind, Except.bind] at hload
      | ok text =>
          simp only [read, htext, h.readText htext hgone] at hload ⊢
          exact hload

end Config

/-! ## Wrapping -/

namespace WrapPlan

variable {w less after : Workspace} {gone : Location} {s : WrapSettings} {plan : WrapPlan}

/-- The source in a place does not parse, under no path under which it is selected. -/
def DoesNotParse (w : Workspace) (pattern : String) (gone : Location) : Prop :=
  ∀ paths, selectFiles w w.currentPath pattern = .ok paths → ∀ path ∈ paths,
    w.locate (Path.join w.currentPath path) = .ok gone →
      ∀ text, w.readText (Path.join w.currentPath path) = .ok text →
        ∃ e, Source.parseFile path text = .error e

theorem wrapSource?_of_error {o : WrapOptions} {path : String} {text : List Char} {e : Source.SyntaxError}
    (h : Source.parseFile path text = .error e) : wrapSource? o path text = .error (.syntaxError e) := by
  simp [wrapSource?, h, Except.mapError, bind, Except.bind]

/-- Reading the remaining files. -/
theorem readSources_without (h : w.Without less gone) {paths : List String} {sources : List SourceText}
    (hread : readSources w w.currentPath paths = .ok sources) :
    readSources less w.currentPath (paths.filter (w.avoids gone)) =
      .ok (sources.filter fun t => w.avoids gone t.path) := by
  rw [readSources_eq_ok_iff] at hread ⊢
  induction hread with
  | nil => exact .nil
  | @cons path t paths sources hfirst hrest ih =>
      obtain ⟨htext, rfl⟩ := hfirst
      rw [List.filter_cons, List.filter_cons]
      split
      · next havoids => exact .cons ⟨h.readText htext (Workspace.avoids_iff.mp havoids), rfl⟩ ih
      · exact ih

/-- The plan for a project writes the same without a source that does not parse. -/
theorem make_without (h : w.Without less gone) (hnames : w.tree.HasNames) (hless : less.tree.HasNames)
    (hcurrent : w.tree.shapeAt? w.current = some .directory) (hbroken : DoesNotParse w s.pattern gone)
    (hplan : make w s = .ok plan) :
    ∃ lessPlan, make less s = .ok lessPlan ∧ lessPlan.wrapped = plan.wrapped := by
  obtain ⟨options, paths, sources, hoptions, hpaths, hsources, rfl⟩ := make_eq_ok_iff.mp hplan
  have hlead : ∀ path ∈ paths, ∃ place, w.locate (Path.join w.currentPath path) = .ok place := by
    intro path hpath
    obtain ⟨text, htext⟩ := exists_readText_of_mem hsources hpath
    obtain ⟨place, hplace, -⟩ := Workspace.readText_eq_ok_iff.mp htext
    exact ⟨place, hplace⟩
  have hselect := selectFiles_without h hnames hless hcurrent hpaths hlead
  have hread := readSources_without h hsources
  have hcurrentPath : less.currentPath = w.currentPath := congrArg Location.path h.current
  rw [← hcurrentPath] at hselect hread
  refine ⟨_, make_eq_ok_iff.mpr ⟨options, _, _, hoptions, hselect, hread, rfl⟩, ?_⟩
  simp only [ofSources, List.filterMap_map, List.filterMap_filter]
  refine List.filterMap_congr fun t ht => ?_
  split
  · rfl
  · next hgone =>
      obtain ⟨hmem, htext⟩ := readText_of_mem_readSources hsources ht
      rw [Workspace.avoids_iff, not_not] at hgone
      obtain ⟨e, hparse⟩ := hbroken paths hpaths t.path hmem hgone t.text htext
      simp only [Function.comp_apply, wrapSource?_of_error hparse]

/-- Writing sources of which none stands in the place of the file that is not there. -/
theorem writeSources_without (h : w.Without less gone) {sources : List (String × WrappedSource)}
    (hsources : ∀ t ∈ sources, ∃ place, w.locate (Path.join w.currentPath t.1) = .ok place ∧ place ≠ gone)
    (hwrite : writeSources sources w = (after, .ok ())) :
    ∃ lessAfter, writeSources sources less = (lessAfter, .ok ()) ∧ after.Without lessAfter gone ∧
      after.tree.at? gone = w.tree.at? gone := by
  induction sources generalizing w less with
  | nil =>
      obtain ⟨rfl, -⟩ := Prod.mk.inj hwrite
      exact ⟨less, rfl, h, rfl⟩
  | cons t rest ih =>
      have hcurrent : less.currentPath = w.currentPath := congrArg Location.path h.current
      obtain ⟨place, hplace, hne⟩ := hsources t List.mem_cons_self
      unfold writeSources at hwrite
      dsimp only at hwrite
      cases hfirst : w.writeText (Path.join w.currentPath t.1) t.2.output with
      | error e => simp [hfirst] at hwrite
      | ok middle =>
          simp only [hfirst] at hwrite
          obtain ⟨_, hwrote⟩ := Workspace.exists_place_of_writeText hfirst
          have hgrows := hwrote.grows
          have hmiddle : middle.locate (Path.join w.currentPath t.1) ≠ .ok gone := by
            rw [Workspace.locate_of_growsTo hgrows hplace]
            exact fun heq => hne (Except.ok.inj heq)
          obtain ⟨lessMiddle, hless, hwithout, hkept⟩ := h.writeText hfirst hmiddle
          have hnext : middle.currentPath = w.currentPath := congrArg Location.path hgrows.current
          obtain ⟨lessAfter, hlessAfter, hafter, hkept'⟩ := ih hwithout (fun u hu => by
            obtain ⟨other, hother, hother'⟩ := hsources u (List.mem_cons_of_mem t hu)
            rw [hnext]
            exact ⟨other, Workspace.locate_of_growsTo hgrows hother, hother'⟩) hwrite
          refine ⟨lessAfter, ?_, hafter, hkept'.trans hkept⟩
          unfold writeSources
          simp only [hcurrent, hless]
          exact hlessAfter

/-- No source that changes stands in the place of a source that does not parse. -/
theorem exists_place_of_mem_wrapped (hbroken : DoesNotParse w s.pattern gone) (hplan : make w s = .ok plan)
    {t : String × WrappedSource} (ht : t ∈ plan.wrapped) :
    ∃ place, w.locate (Path.join w.currentPath t.1) = .ok place ∧ place ≠ gone := by
  obtain ⟨options, paths, sources, -, hpaths, hsources, rfl⟩ := make_eq_ok_iff.mp hplan
  obtain ⟨source, hsource, hpath, hwrap⟩ := mem_wrapped_ofSources.mp ht
  obtain ⟨hmem, htext⟩ := readText_of_mem_readSources hsources hsource
  obtain ⟨place, hplace, -⟩ := Workspace.readText_eq_ok_iff.mp htext
  rw [← hpath]
  refine ⟨place, hplace, ?_⟩
  rintro rfl
  obtain ⟨e, hparse⟩ := hbroken paths hpaths source.path hmem hplace source.text htext
  rw [wrapSource?_of_error hparse] at hwrap
  contradiction

end WrapPlan

variable {w less after : Workspace} {gone : Location}

theorem Dictionary.read?_without (h : w.Without less gone) {path : String} {found : Option Dictionary}
    (hread : Dictionary.read? w path = .ok found) (hgone : w.locate path ≠ .ok gone) :
    Dictionary.read? less path = .ok found := by
  cases found with
  | none =>
      rw [Dictionary.read?_eq_ok_none_iff, Bool.eq_false_iff] at hread ⊢
      exact fun hthere => hread (h.exists_iff.mp hthere).1
  | some d =>
      obtain ⟨text, htext, hparse⟩ := Dictionary.read?_eq_ok_some_iff.mp hread
      exact Dictionary.read?_eq_ok_some_iff.mpr ⟨text, h.readText htext hgone, hparse⟩

theorem updateKeyFile_without (h : w.Without less gone) {path : String} {keys : KeyMap} {isDryRun : Bool}
    {keyFile : KeyFileSummary} (hupdate : updateKeyFile w path keys isDryRun = (after, .ok keyFile))
    (hgone : after.locate path ≠ .ok gone) :
    ∃ lessAfter, updateKeyFile less path keys isDryRun = (lessAfter, .ok keyFile) ∧
      after.Without lessAfter gone ∧ after.tree.at? gone = w.tree.at? gone := by
  obtain ⟨existing, hread, hkeyFile, hafter⟩ := updateKeyFile_eq_ok_iff.mp hupdate
  cases isDryRun with
  | true =>
      obtain rfl : after = w := hafter
      have hless := Dictionary.read?_without h hread hgone
      exact ⟨less, updateKeyFile_eq_ok_iff.mpr ⟨existing, hless, hkeyFile, rfl⟩, h, rfl⟩
  | false =>
      rw [if_neg Bool.false_ne_true] at hafter
      obtain ⟨place, hwrote⟩ := Workspace.exists_place_of_save hafter
      have hbefore : w.locate path ≠ .ok gone := fun heq =>
        hgone (Workspace.locate_of_growsTo hwrote.grows heq)
      have hless := Dictionary.read?_without h hread hbefore
      obtain ⟨lessAfter, hsave, hwithout, hkept⟩ := h.save hafter hgone
      exact ⟨lessAfter, updateKeyFile_eq_ok_iff.mpr ⟨existing, hless, hkeyFile, hsave⟩, hwithout, hkept⟩

/-- What two runs have in common of which one is without a source. -/
structure WrapResult.Agrees (r r' : WrapResult) : Prop where
  files : r'.summary.files = r.summary.files
  keyFile : r'.summary.keyFile = r.summary.keyFile

theorem WrapPlan.perform_without {s : WrapSettings} {plan lessPlan : WrapPlan} {r : WrapResult}
    (h : w.Without less gone)
    (hsources : ∀ t ∈ plan.wrapped, ∃ place,
      w.locate (Path.join w.currentPath t.1) = .ok place ∧ place ≠ gone)
    (hwrapped : lessPlan.wrapped = plan.wrapped) (hperform : plan.perform w s = (after, .ok r))
    (hgone : after.locate s.keyFilePath ≠ .ok gone) :
    ∃ lessAfter r', lessPlan.perform less s = (lessAfter, .ok r') ∧ after.Without lessAfter gone ∧
      after.tree.at? gone = w.tree.at? gone ∧ r.Agrees r' := by
  have hkeys : lessPlan.keys = plan.keys := by rw [WrapPlan.keys, hwrapped, WrapPlan.keys]
  obtain ⟨written, hstart, hrest⟩ := perform_eq_ok_iff.mp hperform
  obtain ⟨lessWritten, hlessStart, hwithout, hkept⟩ : ∃ lessWritten,
      lessPlan.start less s.isDryRun = (lessWritten, .ok ()) ∧ written.Without lessWritten gone ∧
        written.tree.at? gone = w.tree.at? gone := by
    cases hdry : s.isDryRun with
    | true =>
        rw [hdry] at hstart
        obtain ⟨rfl, -⟩ := Prod.mk.inj hstart
        exact ⟨less, rfl, h, rfl⟩
    | false =>
        rw [hdry] at hstart
        obtain ⟨lessWritten, hwrite, hrest⟩ := writeSources_without h hsources hstart
        exact ⟨lessWritten, by rw [← hwrapped] at hwrite; exact hwrite, hrest⟩
  cases hempty : plan.keys.isEmpty with
  | true =>
      rw [hempty, if_pos rfl] at hrest
      obtain ⟨rfl, rfl⟩ := hrest
      refine ⟨lessWritten, lessPlan.result s.isDryRun none,
        perform_eq_ok_iff.mpr ⟨lessWritten, hlessStart, ?_⟩, hwithout, hkept, ?_, rfl⟩
      · rw [hkeys, hempty, if_pos rfl]
        exact ⟨rfl, rfl⟩
      · exact congrArg (List.map fileSummary) hwrapped
  | false =>
      rw [hempty, if_neg Bool.false_ne_true] at hrest
      obtain ⟨keyFile, hupdate, rfl⟩ := hrest
      obtain ⟨lessAfter, hless, hafter, hkept'⟩ := updateKeyFile_without hwithout hupdate hgone
      refine ⟨lessAfter, lessPlan.result s.isDryRun (some keyFile),
        perform_eq_ok_iff.mpr ⟨lessWritten, hlessStart, ?_⟩, hafter, hkept'.trans hkept, ?_, rfl⟩
      · rw [hkeys, hempty, if_neg Bool.false_ne_true]
        exact ⟨keyFile, hless, rfl⟩
      · exact congrArg (List.map fileSummary) hwrapped

/-- A source of a run that does not parse, where it is neither the key file nor what the search for the
configuration ends at. -/
structure IsUnparsedSource (w after : Workspace) (s : WrapSettings) (gone : Location) : Prop where
  unparsed : WrapPlan.DoesNotParse w s.pattern gone
  noStop : ∀ path, Config.stop? w w.currentPath = some path → w.locate path ≠ .ok gone
  noKeyFile : after.locate s.keyFilePath ≠ .ok gone

theorem wrapProject_without {a : WrapArguments} {loaded : Config.Loaded} {r : WrapResult}
    (h : w.Without less gone) (hnames : w.tree.HasNames) (hless : less.tree.HasNames)
    (hcurrent : w.tree.shapeAt? w.current = some .directory)
    (hload : Config.load w w.currentPath = .ok loaded) (hrun : wrapProject w a = (after, .ok r))
    (hsource : IsUnparsedSource w after (WrapSettings.resolve a loaded.config.wrap) gone) :
    ∃ lessAfter r', wrapProject less a = (lessAfter, .ok r') ∧ after.Without lessAfter gone ∧
      after.tree.at? gone = w.tree.at? gone ∧ r.Agrees r' := by
  obtain ⟨loaded', plan, hload', hplan, hperform⟩ := wrapProject_eq_ok_iff.mp hrun
  obtain rfl : loaded' = loaded := Except.ok.inj (hload'.symm.trans hload)
  obtain ⟨lessPlan, hlessPlan, hwrapped⟩ :=
    WrapPlan.make_without h hnames hless hcurrent hsource.unparsed hplan
  have hplaces : ∀ t ∈ plan.wrapped, ∃ place,
      w.locate (Path.join w.currentPath t.1) = .ok place ∧ place ≠ gone :=
    fun _ => WrapPlan.exists_place_of_mem_wrapped hsource.unparsed hplan
  obtain ⟨lessAfter, r', hlessPerform, hrest⟩ :=
    WrapPlan.perform_without h hplaces hwrapped hperform hsource.noKeyFile
  have hcurrentPath : less.currentPath = w.currentPath := congrArg Location.path h.current
  have hlessLoad := Config.load_without h hsource.noStop hload
  rw [← hcurrentPath] at hlessLoad
  exact ⟨lessAfter, r', wrapProject_eq_ok_iff.mpr ⟨_, lessPlan, hlessLoad, hlessPlan, hlessPerform⟩, hrest⟩

/-- A source that does not parse disturbs no other file. Extraction from a list of files gives what it gives
without the source, except for the number of files and the entry of the source itself. A wrapping run that
succeeds also succeeds without the source, with the same changed files and the same key file; it leaves the
source as it is, and all else is the same after both runs. -/
theorem unparsed_source_disturbs_nothing (w : Workspace) :
    (∀ (before behind : List String) (path : String) (text : List Char) (e : Source.SyntaxError),
      (∀ p ∈ before ++ behind, ∃ text, w.readText (Path.join "" p) = .ok text) →
      w.readText (Path.join "" path) = .ok text → Source.parseFile path text = .error e →
        ∃ keys front back f scanned,
          Extraction.ofFiles w (before ++ path :: behind) =
              .ok ⟨keys, front ++ ⟨path, f⟩ :: back, scanned + 1⟩ ∧
            Extraction.ofFiles w (before ++ behind) = .ok ⟨keys, front ++ back, scanned⟩) ∧
    ∀ (less after : Workspace) (gone : Location) (a : WrapArguments) (loaded : Config.Loaded)
      (r : WrapResult), w.Without less gone → w.tree.HasNames → less.tree.HasNames →
      w.tree.shapeAt? w.current = some .directory → Config.load w w.currentPath = .ok loaded →
      wrapProject w a = (after, .ok r) →
      IsUnparsedSource w after (WrapSettings.resolve a loaded.config.wrap) gone →
        ∃ lessAfter r', wrapProject less a = (lessAfter, .ok r') ∧ after.Without lessAfter gone ∧
          after.tree.at? gone = w.tree.at? gone ∧ r.Agrees r' := by
  constructor
  · intro before behind path text e hread htext hparse
    exact Extraction.ofFiles_skips hread htext hparse
  · intro less after gone a loaded r h hnames hless hcurrent hload hrun hsource
    exact wrapProject_without h hnames hless hcurrent hload hrun hsource

/-- A project with a text. -/
def finishedProject : Workspace where
  tree := .directory [("src", .directory
    [("a.tsx", .file (.text "function A() \x7b return <p>안녕</p>; \x7d\n".toList))])]
  current := []

/-- The same project with a source that is no module. -/
def draftProject : Workspace where
  tree := .directory [("src", .directory
    [ ("a.tsx", .file (.text "function A() \x7b return <p>안녕</p>; \x7d\n".toList)),
      ("b.tsx", .file (.text "function B(".toList)) ])]
  current := []

theorem isPlain_finishedProject : finishedProject.tree.IsPlain := by
  have hfile (c : Contents) := FileTree.isPlain_file c
  refine FileTree.isPlain_directory (by decide) (List.forall_mem_singleton.mpr ⟨by decide, ?_⟩)
  exact FileTree.isPlain_directory (by decide) (List.forall_mem_singleton.mpr ⟨by decide, hfile _⟩)

theorem isPlain_draftProject : draftProject.tree.IsPlain := by
  have hfile (c : Contents) := FileTree.isPlain_file c
  refine FileTree.isPlain_directory (by decide) (List.forall_mem_singleton.mpr ⟨by decide, ?_⟩)
  refine FileTree.isPlain_directory (by decide) (List.forall_mem_cons.mpr ⟨⟨by decide, hfile _⟩, ?_⟩)
  exact List.forall_mem_singleton.mpr ⟨by decide, hfile _⟩

theorem draftProject_without : draftProject.Without finishedProject ["src", "b.tsx"] := by
  refine ⟨?_, rfl, by decide⟩
  have hput : draftProject.tree =
      finishedProject.tree.put ["src", "b.tsx"] (.file (.text "function B(".toList)) := by rfl
  rw [hput]
  exact FileTree.without_put ⟨["src"], "b.tsx", rfl, by decide⟩ (by decide) _

theorem exists_parse_error_draft : ∃ e, Source.parseFile "src/b.tsx" "function B(".toList = .error e :=
  exists_error_of_isNone (by decide +kernel)

theorem doesNotParse_draftProject :
    WrapPlan.DoesNotParse draftProject defaultPattern ["src", "b.tsx"] := by
  have hselect : selectFiles draftProject draftProject.currentPath defaultPattern =
      .ok ["src/a.tsx", "src/b.tsx"] := by decide +kernel
  have hfirst : draftProject.locate (Path.join draftProject.currentPath "src/a.tsx") =
      .ok ["src", "a.tsx"] := by rfl
  have hsecond : draftProject.readText (Path.join draftProject.currentPath "src/b.tsx") =
      .ok "function B(".toList := by rfl
  intro paths hpaths path hpath hplace text htext
  rw [hselect, Except.ok.injEq] at hpaths
  subst hpaths
  rcases List.mem_pair.mp hpath with rfl | rfl
  · rw [hfirst, Except.ok.injEq] at hplace
    exact absurd hplace (by decide)
  · rw [hsecond, Except.ok.injEq] at htext
    rw [← htext]
    exact exists_parse_error_draft

theorem unparsed_source_disturbs_nothing_of_draft :
    (∃ keys front back f scanned,
      Extraction.ofFiles draftProject ["src/a.tsx", "src/b.tsx"] =
          .ok ⟨keys, front ++ ⟨"src/b.tsx", f⟩ :: back, scanned + 1⟩ ∧
        Extraction.ofFiles draftProject ["src/a.tsx"] = .ok ⟨keys, front ++ back, scanned⟩) ∧
    ∃ after r lessAfter r', wrapProject draftProject { generateKeys := true } = (after, .ok r) ∧
      r.summary.literalCount = 1 ∧ r.skipped.length = 1 ∧
      wrapProject finishedProject { generateKeys := true } = (lessAfter, .ok r') ∧
      after.Without lessAfter ["src", "b.tsx"] ∧ r.Agrees r' := by
  have hfirst : draftProject.readText (Path.join "" "src/a.tsx") =
      .ok "function A() \x7b return <p>안녕</p>; \x7d\n".toList := by rfl
  have hsecond : draftProject.readText (Path.join "" "src/b.tsx") = .ok "function B(".toList := by rfl
  obtain ⟨e, hparse⟩ := exists_parse_error_draft
  obtain ⟨hextract, hwrap⟩ := unparsed_source_disturbs_nothing draftProject
  refine ⟨hextract ["src/a.tsx"] [] "src/b.tsx" _ e
    (List.forall_mem_singleton.mpr ⟨_, hfirst⟩) hsecond hparse, ?_⟩
  obtain ⟨r, hr, hsummary⟩ := exists_ok_of_any
    (x := (wrapProject draftProject { generateKeys := true }).2)
    (p := fun r => r.summary.literalCount == 1 && r.skipped.length == 1) (by decide +kernel)
  rw [Bool.and_eq_true, beq_iff_eq, beq_iff_eq] at hsummary
  have hrun := eq_of_fst_of_snd rfl hr
  have hload : Config.load draftProject draftProject.currentPath = .ok ⟨{}, false⟩ := by rfl
  have hstop : Config.stop? draftProject draftProject.currentPath = none := by rfl
  have hkeyFile : (wrapProject draftProject { generateKeys := true }).1.locate "./locales/common.json" ≠
      .ok ["src", "b.tsx"] := by decide +kernel
  have hsource : IsUnparsedSource draftProject _ (WrapSettings.resolve { generateKeys := true } {})
      ["src", "b.tsx"] := ⟨doesNotParse_draftProject, by simp [hstop], hkeyFile⟩
  obtain ⟨lessAfter, r', hless, hwithout, -, hagrees⟩ := hwrap finishedProject _ _ _ _ r
    draftProject_without isPlain_draftProject.hasNames isPlain_finishedProject.hasNames rfl hload hrun hsource
  exact ⟨_, r, lessAfter, r', hrun, hsummary.1, hsummary.2, hless, hwithout, hagrees⟩

/-- A project in a directory of its own, and a configuration above it. -/
def nestedApplication : Workspace where
  tree := .directory
    [ (".i18nexusrc.json", .file (.text "\x7b\"wrap\": \x7b\"generateKeys\": true\x7d\x7d\n".toList)),
      ("app", .directory
        [("a.tsx", .file (.text "function A() \x7b return <p>안녕</p>; \x7d\n".toList))]) ]
  current := ["app"]

/-- The same project with a file that marks the top of a repository. -/
def markedApplication : Workspace where
  tree := nestedApplication.tree.put ["app", ".git"] (.file (.text "gitdir: ../.git/modules/app\n".toList))
  current := ["app"]

/-- A selected source that does not parse hides the configuration if it is what marks the top of a
repository, so that no key file is written. -/
theorem wrapProject_not_always_undisturbed :
    markedApplication.Without nestedApplication ["app", ".git"] ∧
    selectFiles markedApplication markedApplication.currentPath "*" = .ok [".git", "a.tsx"] ∧
    WrapPlan.DoesNotParse markedApplication "*" ["app", ".git"] ∧
    Config.find? markedApplication markedApplication.currentPath = none ∧
    ∃ after r lessAfter r', wrapProject markedApplication { pattern := some "*" } = (after, .ok r) ∧
      after.locate "./locales/common.json" ≠ .ok ["app", ".git"] ∧ r.summary.keyFile = none ∧
      wrapProject nestedApplication { pattern := some "*" } = (lessAfter, .ok r') ∧
      r'.summary.keyFile = some ⟨"./locales/common.json", 1, 1⟩ := by
  have hselect : selectFiles markedApplication markedApplication.currentPath "*" =
      .ok [".git", "a.tsx"] := by decide +kernel
  have hmark : markedApplication.readText (Path.join markedApplication.currentPath ".git") =
      .ok "gitdir: ../.git/modules/app\n".toList := by rfl
  have hsource : markedApplication.locate (Path.join markedApplication.currentPath "a.tsx") =
      .ok ["app", "a.tsx"] := by rfl
  refine ⟨⟨?_, rfl, by decide⟩, hselect, ?_, by rfl, ?_⟩
  · exact FileTree.without_put ⟨["app"], ".git", rfl, by decide⟩ (by decide) _
  · intro paths hpaths path hpath hplace text htext
    rw [hselect, Except.ok.injEq] at hpaths
    subst hpaths
    rcases List.mem_pair.mp hpath with rfl | rfl
    · rw [hmark, Except.ok.injEq] at htext
      rw [← htext]
      exact exists_error_of_isNone (by decide +kernel)
    · rw [hsource, Except.ok.injEq] at hplace
      exact absurd hplace (by decide)
  · obtain ⟨r, hr, hkeyFile⟩ := exists_ok_of_any
      (x := (wrapProject markedApplication { pattern := some "*" }).2)
      (p := fun r => r.summary.keyFile == none) (by decide +kernel)
    obtain ⟨r', hr', hkeyFile'⟩ := exists_ok_of_any
      (x := (wrapProject nestedApplication { pattern := some "*" }).2)
      (p := fun r => r.summary.keyFile == some ⟨"./locales/common.json", 1, 1⟩) (by decide +kernel)
    exact ⟨_, r, _, r', eq_of_fst_of_snd rfl hr, by decide +kernel, beq_iff_eq.mp hkeyFile,
      eq_of_fst_of_snd rfl hr', beq_iff_eq.mp hkeyFile'⟩

end Localization
