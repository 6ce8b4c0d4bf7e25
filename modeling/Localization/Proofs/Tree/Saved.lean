import Localization.Dictionary
import Localization.Proofs.Tree.Resolution

/-!
Saving files. A saved file stands at one place, what else was there is kept, and saving the same text
once more changes nothing. Main statements: `exists_place_of_save` and `save_again`.
-/

namespace Localization.Workspace

open FileTree (Shape shapeAt?_eq_directory shapeAt?_eq_file)

variable {w after last : Workspace} {path : String} {text : List Char} {place : Location}

/-- A tree has grown by directories only. -/
structure KeepsFiles (w after : Workspace) : Prop where
  grows : w.GrowsTo after
  files : ∀ place c, w.tree.at? place = some (.file c) → after.tree.at? place = some (.file c)

theorem KeepsFiles.refl (w : Workspace) : w.KeepsFiles w :=
  ⟨.refl w, fun _ _ h => h⟩

theorem KeepsFiles.trans (h : w.KeepsFiles after) (hlast : after.KeepsFiles last) :
    w.KeepsFiles last :=
  ⟨h.grows.trans hlast.grows, fun place c hc => hlast.files place c (h.files place c hc)⟩

/-! ## Directories -/

/-- A directory is made where nothing stands, in a directory that a path leads to. -/
theorem makeDirectory_eq_ok_iff : w.makeDirectory path = .ok after ↔
    checked path = .ok () ∧ ∃ above name,
      (steps path).getLast? = some name ∧ IsName name ∧
      resolve w.tree linkLimit (w.start path) (steps path).dropLast = .ok above ∧
      w.tree.shapeAt? above = some .directory ∧ w.tree.shapeAt? (above ++ [name]) = none ∧
      after = { w with tree := w.tree.put (above ++ [name]) .empty } := by
  rw [makeDirectory]
  cases hchecked : checked path with
  | error e => simp [bind, Except.bind]
  | ok u =>
      cases habove : resolve w.tree linkLimit (w.start path) (steps path).dropLast with
      | error e => simp [habove, bind, Except.bind]
      | ok above =>
          simp only [habove, bind, Except.bind, true_and, Except.ok.injEq]
          constructor
          · intro h
            split at h
            · contradiction
            · next name entries hname hdirectory =>
                split at h
                · contradiction
                split at h
                · contradiction
                split at h
                · contradiction
                next hdots hlimit hlookup =>
                obtain rfl := Except.ok.inj h
                obtain ⟨hcurrent, hparent⟩ := not_or.mp hdots
                refine ⟨above, name, hname, ⟨hcurrent, hparent, Nat.not_lt.mp hlimit⟩, rfl,
                  shapeAt?_eq_directory.mpr ⟨entries, hdirectory⟩, ?_, rfl⟩
                rw [FileTree.shapeAt?, FileTree.at?_snoc_of_directory hdirectory,
                  Option.not_isSome_iff_eq_none.mp hlookup, Option.map_none]
            · contradiction
          · rintro ⟨above', name, hname, hisName, rfl, hdirectory, hnone, rfl⟩
            obtain ⟨entries, hentries⟩ := shapeAt?_eq_directory.mp hdirectory
            rw [FileTree.shapeAt?, FileTree.at?_snoc_of_directory hentries, Option.map_eq_none_iff]
              at hnone
            simp [hname, hentries, hisName.not_current, hisName.not_parent, Nat.not_lt.mpr hisName.fits,
              hnone]

theorem keepsFiles_makeDirectory (h : w.makeDirectory path = .ok after) : w.KeepsFiles after := by
  obtain ⟨-, above, name, -, -, -, hdirectory, hnone, rfl⟩ := makeDirectory_eq_ok_iff.mp h
  have hroom : w.tree.HasRoom (above ++ [name]) := ⟨above, name, rfl, hdirectory⟩
  refine ⟨⟨FileTree.growsTo_put hroom ?_, rfl⟩, ?_⟩
  · intro s hs
    rw [hnone] at hs
    contradiction
  · intro place c hc
    refine FileTree.at?_put_of_file hroom (by rw [hnone]; nofun) _ hc ?_
    rintro rfl
    rw [FileTree.shapeAt?, hc] at hnone
    contradiction

theorem exists_iff : w.exists path = true ↔
    ∃ place s, w.locate path = .ok place ∧ w.tree.shapeAt? place = some s := by
  rw [Workspace.exists, find?]
  cases hplace : w.locate path with
  | error e => simp [Except.toOption]
  | ok place =>
      simp only [Except.toOption, Option.bind_eq_bind, Option.bind_some, Except.ok.injEq,
        exists_and_left, exists_eq_left', FileTree.shapeAt?]
      cases w.tree.at? place with
      | none => simp
      | some t => simp

theorem exists_of_growsTo (hgrows : w.GrowsTo after) (h : w.exists path = true) :
    after.exists path = true := by
  obtain ⟨place, s, hplace, hs⟩ := exists_iff.mp h
  exact exists_iff.mpr ⟨place, s, locate_of_growsTo hgrows hplace, hgrows.tree place s hs⟩

theorem hasDirectory_iff : w.hasDirectory path = true ↔
    ∃ place, w.locate path = .ok place ∧ w.tree.shapeAt? place = some .directory := by
  rw [hasDirectory, find?]
  cases hplace : w.locate path with
  | error e => simp [Except.toOption]
  | ok place =>
      simp only [Except.toOption, Option.bind_eq_bind, Option.bind_some, Except.ok.injEq,
        exists_eq_left', shapeAt?_eq_directory]
      cases w.tree.at? place with
      | none => simp
      | some t => cases t <;> simp [FileTree.isDirectory]

theorem hasDirectory_of_growsTo (hgrows : w.GrowsTo after) (h : w.hasDirectory path = true) :
    after.hasDirectory path = true := by
  rw [hasDirectory_iff] at h ⊢
  obtain ⟨place, hplace, hdirectory⟩ := h
  exact ⟨place, locate_of_growsTo hgrows hplace, hgrows.tree _ _ hdirectory⟩

/-- What a last step does. -/
def Ends (tree : FileTree) (above : Location) (name : String) (found : Location) : Prop :=
  Goes tree above name found ∨ ∃ source target, Links tree above name source target

theorem Ends.directory {tree : FileTree} {above found : Location} {name : String}
    (h : Ends tree above name found) : tree.shapeAt? above = some .directory := by
  rcases h with hgoes | ⟨source, target, hlinks⟩
  · cases hgoes with
    | current h => exact h
    | parent h => exact h
    | inside h => exact h
  · exact hlinks.directory

/-- Steps in front of a last one lead to where the last one starts from. -/
theorem exists_above_of_walk {tree : FileTree}
    {follow : Location → List String → Except FileError Location} {name : String} {found : Location}
    (hfollow : ∀ source steps, follow source (steps ++ [name]) = .ok found →
      ∃ above, follow source steps = .ok above ∧ Ends tree above name found)
    {source : Location} {steps : List String}
    (h : walk tree follow source (steps ++ [name]) = .ok found) :
    ∃ above, walk tree follow source steps = .ok above ∧ Ends tree above name found := by
  induction steps generalizing source with
  | nil =>
      rcases walk_cons_eq_ok_iff.mp h with ⟨next, hgoes, hnext⟩ | ⟨base, target, hlinks, -⟩
      · obtain rfl : next = found := Except.ok.inj hnext
        exact ⟨source, rfl, .inl hgoes⟩
      · exact ⟨source, rfl, .inr ⟨base, target, hlinks⟩⟩
  | cons first rest ih =>
      rcases walk_cons_eq_ok_iff.mp h with ⟨next, hgoes, hrest⟩ | ⟨base, target, hlinks, hrest⟩
      · obtain ⟨above, habove, hends⟩ := ih hrest
        exact ⟨above, walk_cons_eq_ok_iff.mpr (.inl ⟨next, hgoes, habove⟩), hends⟩
      · have hsteps : follow base ((stepsTo target ++ rest) ++ [name]) = .ok found := by
          rw [List.append_assoc]
          exact hrest
        obtain ⟨above, habove, hends⟩ := hfollow _ _ hsteps
        exact ⟨above, walk_cons_eq_ok_iff.mpr (.inr ⟨base, target, hlinks, habove⟩), hends⟩

theorem exists_above_of_resolve {tree : FileTree} {links : Nat} {name : String}
    {source found : Location} {steps : List String}
    (h : resolve tree links source (steps ++ [name]) = .ok found) :
    ∃ above, resolve tree links source steps = .ok above ∧ Ends tree above name found := by
  induction links generalizing source steps with
  | zero =>
      refine exists_above_of_walk ?_ h
      intro _ _ hfound
      contradiction
  | succ links ih =>
      refine exists_above_of_walk ?_ h
      exact fun _ _ hfound => ih hfound

/-- A further step from where steps lead to. -/
theorem walk_snoc {tree : FileTree} {follow : Location → List String → Except FileError Location}
    {name : String} {above next : Location} (hgoes : Goes tree above name next)
    (hfollow : ∀ source steps, follow source steps = .ok above →
      follow source (steps ++ [name]) = .ok next)
    {source : Location} {steps : List String} (h : walk tree follow source steps = .ok above) :
    walk tree follow source (steps ++ [name]) = .ok next := by
  induction steps generalizing source with
  | nil =>
      obtain rfl : source = above := Except.ok.inj h
      exact walk_cons_eq_ok_iff.mpr (.inl ⟨next, hgoes, rfl⟩)
  | cons first rest ih =>
      rcases walk_cons_eq_ok_iff.mp h with ⟨middle, hfirst, hrest⟩ | ⟨base, target, hlinks, hrest⟩
      · exact walk_cons_eq_ok_iff.mpr (.inl ⟨middle, hfirst, ih hrest⟩)
      · refine walk_cons_eq_ok_iff.mpr (.inr ⟨base, target, hlinks, ?_⟩)
        have hsteps := hfollow _ _ hrest
        rwa [List.append_assoc] at hsteps

theorem resolve_snoc {tree : FileTree} {links : Nat} {name : String} {above next source : Location}
    {steps : List String} (hgoes : Goes tree above name next)
    (h : resolve tree links source steps = .ok above) :
    resolve tree links source (steps ++ [name]) = .ok next := by
  induction links generalizing source steps with
  | zero =>
      refine walk_snoc hgoes ?_ h
      intro _ _ hfound
      contradiction
  | succ links ih =>
      refine walk_snoc hgoes ?_ h
      exact fun _ _ hfound => ih hfound

theorem stepsTo_eq (path : String) :
    stepsTo path = steps path ∨ stepsTo path = steps path ++ ["."] := by
  rw [stepsTo]
  split
  · exact .inr rfl
  · exact .inl rfl

/-- A directory that is there need not be made. -/
theorem makeDirectory_of_hasDirectory (h : w.hasDirectory path = true) :
    w.makeDirectory path = .error .alreadyExists := by
  obtain ⟨place, hplace, -⟩ := hasDirectory_iff.mp h
  obtain ⟨hchecked, hresolve⟩ := locate_eq_ok_iff.mp hplace
  obtain ⟨found, hfound⟩ : ∃ found, resolve w.tree linkLimit (w.start path) (steps path) = .ok found := by
    rcases stepsTo_eq path with hsteps | hsteps
    · exact ⟨place, hsteps ▸ hresolve⟩
    · rw [hsteps] at hresolve
      obtain ⟨found, hfound, -⟩ := exists_above_of_resolve hresolve
      exact ⟨found, hfound⟩
  rw [makeDirectory, hchecked]
  rcases List.eq_nil_or_concat (steps path) with hnil | ⟨init, name, hsnoc⟩
  · rw [hnil] at hfound ⊢
    simp only [bind, Except.bind, List.dropLast_nil, List.getLast?_nil, hfound]
  · rw [hsnoc, List.concat_eq_append] at hfound ⊢
    obtain ⟨above, habove, hends⟩ := exists_above_of_resolve hfound
    obtain ⟨entries, hentries⟩ := shapeAt?_eq_directory.mp hends.directory
    simp only [bind, Except.bind, List.dropLast_concat, List.getLast?_concat, habove, hentries]
    have hthere : ∀ s, w.tree.shapeAt? (above ++ [name]) = some s → (entries.lookup name).isSome := by
      intro s hs
      rw [FileTree.shapeAt?, FileTree.at?_snoc_of_directory hentries] at hs
      obtain ⟨t, ht, -⟩ := Option.map_eq_some_iff.mp hs
      rw [ht]
      rfl
    rcases hends with hgoes | ⟨source, target, hlinks⟩
    · cases hgoes with
      | current => simp
      | parent => simp
      | inside h hname hs => simp [hname.not_current, hname.not_parent, Nat.not_lt.mpr hname.fits, hthere _ hs]
    · simp [hlinks.isName.not_current, hlinks.isName.not_parent, Nat.not_lt.mpr hlinks.isName.fits, hthere _ hlinks.link]

theorem ensureDirectory_of_hasDirectory (h : w.hasDirectory path = true) :
    w.ensureDirectory path = .ok w := by
  rw [ensureDirectory, makeDirectory_of_hasDirectory h]
  exact if_pos h

theorem hasDirectory_of_resolve {found : Location} (hchecked : checked path = .ok ())
    (h : resolve w.tree linkLimit (w.start path) (steps path) = .ok found)
    (hdirectory : w.tree.shapeAt? found = some .directory) : w.hasDirectory path = true := by
  refine hasDirectory_iff.mpr ⟨found, locate_eq_ok_iff.mpr ⟨hchecked, ?_⟩, hdirectory⟩
  rcases stepsTo_eq path with hplain | hslashed
  · rw [hplain]
    exact h
  · rw [hslashed]
    exact resolve_snoc (.current hdirectory) h

theorem keepsFiles_ensureDirectory (h : w.ensureDirectory path = .ok after) :
    w.KeepsFiles after ∧ after.hasDirectory path = true := by
  rw [ensureDirectory] at h
  split at h
  · split at h
    · next hthere =>
        obtain rfl := Except.ok.inj h
        exact ⟨.refl w, hthere⟩
    · contradiction
  · have hkeeps := keepsFiles_makeDirectory h
    obtain ⟨hchecked, above, name, hlast, hname, habove, hdirectory, -, hafter⟩ :=
      makeDirectory_eq_ok_iff.mp h
    have hnew : after.tree.shapeAt? (above ++ [name]) = some .directory := by
      rw [hafter, FileTree.shapeAt?, (FileTree.at?_put hdirectory .empty).1]
      rfl
    have hgoes : Goes after.tree above name (above ++ [name]) :=
      .inside (hkeeps.grows.tree _ _ hdirectory) hname hnew (by simp)
    have hsteps : resolve after.tree linkLimit (after.start path) (steps path) =
        .ok (above ++ [name]) := by
      rw [hkeeps.grows.start_eq, ← List.dropLast_append_getLast? _ hlast]
      exact resolve_snoc hgoes (resolve_of_growsTo hkeeps.grows.tree habove)
    exact ⟨hkeeps, hasDirectory_of_resolve hchecked hsteps hnew⟩

theorem keepsFiles_ensureDirectories {depth : Nat}
    (h : w.ensureDirectories depth path = .ok after) :
    w.KeepsFiles after ∧ ∀ last, after.GrowsTo last → last.ensureDirectories depth path = .ok last := by
  induction depth generalizing w after path with
  | zero =>
      obtain rfl : w = after := Except.ok.inj h
      exact ⟨.refl w, fun last _ => rfl⟩
  | succ depth ih =>
      rw [ensureDirectories] at h
      cases hparent : Path.parent? path with
      | none =>
          simp only [hparent, Except.ok.injEq] at h
          subst h
          exact ⟨.refl w, fun last _ => by rw [ensureDirectories, hparent]⟩
      | some parent =>
          simp only [hparent] at h
          have hagain : after.hasDirectory path = true → ∀ last, after.GrowsTo last →
              last.ensureDirectories (depth + 1) path = .ok last := by
            intro hthere last hlast
            rw [ensureDirectories, hparent]
            simp only [ensureDirectory_of_hasDirectory (hasDirectory_of_growsTo hlast hthere)]
          split at h
          · cases habove : w.ensureDirectories depth parent with
            | error e => simp [habove, bind, Except.bind] at h
            | ok above =>
                simp only [habove, bind, Except.bind] at h
                obtain ⟨hkeeps, hthere⟩ := keepsFiles_ensureDirectory h
                exact ⟨(ih habove).1.trans hkeeps, hagain hthere⟩
          · obtain ⟨hkeeps, hthere⟩ := keepsFiles_ensureDirectory h
            exact ⟨hkeeps, hagain hthere⟩

/-! ## Files -/

/-- The directories above a file are made. -/
def directoriesFor (w : Workspace) (path : String) : Except FileError Workspace :=
  match Path.parent? path with
  | none => .ok w
  | some parent => if parent.isEmpty then .ok w else w.makeDirectories parent

theorem save_eq_ok_iff : w.save path text = (after, .ok ()) ↔
    ∃ ready, w.directoriesFor path = .ok ready ∧ ready.writeText path text = .ok after := by
  rw [save, directoriesFor]
  cases Path.parent? path with
  | none => cases hwrite : w.writeText path text <;> simp [hwrite]
  | some parent =>
      by_cases hempty : parent = ""
      · cases hwrite : w.writeText path text <;> simp [hempty, hwrite]
      · cases hmake : w.makeDirectories parent with
        | error e => simp [hempty, hmake, Except.mapError]
        | ok ready =>
            cases hwrite : ready.writeText path text <;> simp [hempty, hmake, hwrite, Except.mapError]

theorem keepsFiles_directoriesFor (h : w.directoriesFor path = .ok after) :
    w.KeepsFiles after ∧ ∀ last, after.GrowsTo last → last.directoriesFor path = .ok last := by
  rw [directoriesFor] at h
  cases hparent : Path.parent? path with
  | none =>
      simp only [hparent, Except.ok.injEq] at h
      subst h
      exact ⟨.refl w, fun last _ => by rw [directoriesFor, hparent]⟩
  | some parent =>
      simp only [hparent] at h
      split at h
      · next hempty =>
          obtain rfl := Except.ok.inj h
          exact ⟨.refl w, fun last _ => by simp only [directoriesFor, hparent, hempty, if_true]⟩
      · next hempty =>
          obtain ⟨hkeeps, hagain⟩ := keepsFiles_ensureDirectories h
          refine ⟨hkeeps, fun last hlast => ?_⟩
          simp only [directoriesFor, hparent, hempty]
          exact hagain last hlast

theorem exists_place_of_save (h : w.save path text = (after, .ok ())) :
    ∃ place, Wrote w after path text place := by
  obtain ⟨ready, hready, hwrite⟩ := save_eq_ok_iff.mp h
  obtain ⟨hkeeps, -⟩ := keepsFiles_directoriesFor hready
  obtain ⟨place, hwrote⟩ := exists_place_of_writeText hwrite
  exact ⟨place, hkeeps.grows.trans hwrote.grows, hwrote.file,
    fun other c hc hne => hwrote.others other c (hkeeps.files other c hc) hne, hwrote.leads⟩

theorem readText_eq_ok_iff : w.readText path = .ok text ↔
    ∃ place, w.locate path = .ok place ∧ w.tree.at? place = some (.file (.text text)) := by
  rw [readText]
  cases hplace : w.locate path with
  | error e => simp [bind, Except.bind]
  | ok place =>
      simp only [bind, Except.bind, Except.ok.injEq, exists_eq_left']
      cases w.tree.at? place with
      | none => simp
      | some t =>
          cases t with
          | file c => cases c <;> simp
          | link target => simp
          | directory entries => simp

/-- Saving what a file holds, once a save has made its directories, changes nothing. -/
theorem save_again {written : List Char} (h : w.save path written = (after, .ok ()))
    (hgrows : after.GrowsTo last) (hread : last.readText path = .ok text) :
    last.save path text = (last, .ok ()) := by
  obtain ⟨ready, hready, hwrite⟩ := save_eq_ok_iff.mp h
  obtain ⟨place, hwrote⟩ := exists_place_of_writeText hwrite
  obtain ⟨-, hagain⟩ := keepsFiles_directoriesFor hready
  obtain ⟨hlocate, hplace⟩ := hwrote.leads last hgrows
  obtain ⟨found, hfound, hfile⟩ := readText_eq_ok_iff.mp hread
  obtain rfl : place = found := Except.ok.inj (hlocate.symm.trans hfound)
  refine save_eq_ok_iff.mpr ⟨last, hagain last (hwrote.grows.trans hgrows), ?_⟩
  rw [writeText, (locate_eq_ok_iff.mp hlocate).1, hplace]
  simp only [bind, Except.bind, FileTree.put_self hfile]

theorem Wrote.readText (h : Wrote w after path text place) : after.readText path = .ok text :=
  readText_eq_ok_iff.mpr ⟨place, (h.leads after (.refl after)).1, h.file⟩

theorem exists_of_readText (h : w.readText path = .ok text) : w.exists path = true := by
  obtain ⟨place, hplace, hfile⟩ := readText_eq_ok_iff.mp h
  simp [Workspace.exists, find?, hplace, Except.toOption, hfile]

end Localization.Workspace
