import Localization.Proofs.Tree.Path
import Localization.Proofs.Tree.Saved

/-!
Saving in the place of a file that is there. A path that leads to a file is also the way to write to it,
and the directories above it need not be made. Main statement: `exists_save_of_readText`.
-/

namespace Localization.Workspace

open FileTree (shapeAt?_eq_file)

variable {w : Workspace} {path : String} {place : Location}

/-- The steps of a path that names a file lead to the place to which it is written. -/
theorem walkToFile_of_walk {tree : FileTree}
    {next : Location → List String → Except FileError Location}
    {nextToFile : Location → List String → Bool → Except FileError Location}
    (hfile : tree.shapeAt? place = some .file)
    (hnext : ∀ base target steps, tree.shapeAt? base = some .directory →
      next base (stepsTo target ++ steps) = .ok place →
        if steps = [] then nextToFile base (Workspace.steps target) (endsWithSlash target) = .ok place
        else nextToFile base (stepsTo target ++ steps) false = .ok place)
    {source : Location} {name : String} {rest : List String}
    (h : walk tree next source (name :: rest) = .ok place) :
    walkToFile tree nextToFile false source (name :: rest) = .ok place := by
  induction rest generalizing source name with
  | nil =>
      refine walkToFile_singleton_eq_ok_iff.mpr ⟨rfl, ?_⟩
      rcases walk_cons_eq_ok_iff.mp h with ⟨found, hgoes, hfound⟩ | ⟨base, target, hlinks, hrest⟩
      · obtain rfl : found = place := Except.ok.inj hfound
        cases hgoes with
        | current hdirectory => rw [hdirectory] at hfile; contradiction
        | parent hdirectory =>
            rw [FileTree.shapeAt?_dropLast hdirectory] at hfile
            contradiction
        | inside hdirectory hname hs =>
            refine .inl ⟨hdirectory, hname, rfl, ⟨source, name, rfl, hdirectory⟩, ?_⟩
            intro s hs'
            rw [hfile] at hs'
            exact (Option.some.inj hs').symm
      · exact .inr ⟨base, target, hlinks, by simpa using hnext _ _ _ hlinks.base_directory hrest⟩
  | cons second rest ih =>
      refine (walkToFile_cons_eq_ok_iff (List.cons_ne_nil second rest)).mpr ?_
      rcases walk_cons_eq_ok_iff.mp h with ⟨found, hgoes, hfound⟩ | ⟨base, target, hlinks, hrest⟩
      · exact .inl ⟨found, hgoes, ih hfound⟩
      · exact .inr ⟨base, target, hlinks, by simpa using hnext _ _ _ hlinks.base_directory hrest⟩

/-- A slash behind the path of a file leads nowhere. -/
theorem endsWithSlash_of_resolve {tree : FileTree} {links : Nat} {source : Location}
    (hfile : tree.shapeAt? place = some .file)
    (h : resolve tree links source (stepsTo path) = .ok place) : endsWithSlash path = false := by
  by_contra hslash
  rw [Bool.not_eq_false] at hslash
  rw [stepsTo, if_pos hslash] at h
  obtain ⟨above, -, hends⟩ := exists_above_of_resolve h
  rcases hends with hgoes | ⟨base, target, hlinks⟩
  · generalize hdot : "." = name at hgoes
    cases hgoes with
    | current hdirectory => rw [hdirectory] at hfile; contradiction
    | parent => simp at hdot
    | inside _ hname => exact hname.not_current hdot.symm
  · exact hlinks.isName.not_current rfl

theorem resolveToFile_of_resolve {tree : FileTree} {links : Nat} {source : Location}
    {name : String} {rest : List String} (hfile : tree.shapeAt? place = some .file)
    (h : resolve tree links source (name :: rest) = .ok place) :
    resolveToFile tree links source (name :: rest) false = .ok place := by
  induction links generalizing source name rest with
  | zero =>
      refine walkToFile_of_walk hfile ?_ h
      intro _ _ _ _ hfound
      contradiction
  | succ links ih =>
      refine walkToFile_of_walk hfile ?_ h
      intro base target steps hbase hfound
      have hnonempty : ∀ all, resolve tree links base all = .ok place →
          resolveToFile tree links base all false = .ok place := by
        intro all hall
        cases all with
        | nil =>
            have hplace : resolve tree links base [] = .ok base := by cases links <;> rfl
            rw [hplace] at hall
            rw [← Except.ok.inj hall, hbase] at hfile
            contradiction
        | cons first more => exact ih hall
      split
      · next hsteps =>
          rw [hsteps, List.append_nil] at hfound
          have hplain := endsWithSlash_of_resolve hfile hfound
          rw [stepsTo_of_plain hplain] at hfound
          rw [hplain]
          exact hnonempty _ hfound
      · exact hnonempty _ hfound

/-- Only a name leads to a file. -/
theorem Ends.isName {tree : FileTree} {above : Location} {name : String}
    (h : Ends tree above name place) (hfile : tree.shapeAt? place = some .file) : IsName name := by
  rcases h with hgoes | ⟨base, target, hlinks⟩
  · cases hgoes with
    | current hdirectory => rw [hdirectory] at hfile; contradiction
    | parent hdirectory => rw [FileTree.shapeAt?_dropLast hdirectory] at hfile; contradiction
    | inside _ hname => exact hname
  · exact hlinks.isName

/-- Steps that end in single dots lead to a directory if something stands behind them. -/
theorem exists_directory_of_dots {tree : FileTree} {links dots : Nat} {source : Location}
    {steps : List String} {above : Location}
    (h : resolve tree links source (steps ++ List.replicate dots ".") = .ok above)
    (habove : tree.shapeAt? above = some .directory) :
    ∃ found, resolve tree links source steps = .ok found ∧ tree.shapeAt? found = some .directory := by
  induction dots generalizing above with
  | zero => exact ⟨above, by simpa using h, habove⟩
  | succ dots ih =>
      rw [List.replicate_succ', ← List.append_assoc] at h
      obtain ⟨before, hbefore, hends⟩ := exists_above_of_resolve h
      exact ih hbefore hends.directory

theorem checked_of_subset {other : String} (hchecked : checked path = .ok ()) (hne : other ≠ "")
    (h : other.toList ⊆ path.toList) : checked other = .ok () := by
  have hzero : '\x00' ∉ path.toList := by
    intro hmem
    simp [checked, hmem] at hchecked
  simp [checked, hne, mt (@h '\x00') hzero]

theorem directoriesFor_of_file (hchecked : checked path = .ok ())
    (hplain : endsWithSlash path = false) (hsteps : steps path ≠ [])
    (hfile : w.tree.shapeAt? place = some .file)
    (h : resolve w.tree linkLimit (w.start path) (steps path) = .ok place) :
    w.directoriesFor path = .ok w := by
  obtain ⟨init, name, hsnoc⟩ := (List.eq_nil_or_concat (steps path)).resolve_left hsteps
  rw [List.concat_eq_append] at hsnoc
  rw [hsnoc] at h
  obtain ⟨above, habove, hends⟩ := exists_above_of_resolve h
  have hname := hends.isName hfile
  obtain ⟨parent, dots, hparent, hall, hcases⟩ :=
    exists_parent hplain (by rw [hsnoc]; simp) hname.not_current hname.not_parent
  rw [directoriesFor, hparent]
  by_cases hempty : parent = ""
  · simp [hempty]
  · obtain ⟨hrooted, hsubset⟩ := hcases.resolve_left hempty
    rw [hsnoc, List.append_cancel_right_eq] at hall
    rw [hall] at habove
    obtain ⟨found, hfound, hdirectory⟩ := exists_directory_of_dots habove hends.directory
    have hstart : w.start parent = w.start path := by rw [start, start, hrooted]
    rw [← hstart] at hfound
    have hthere := hasDirectory_of_resolve (checked_of_subset hchecked hempty hsubset) hfound hdirectory
    simp only [String.isEmpty_iff, hempty, if_false, makeDirectories, ensureDirectories,
      ensureDirectory_of_hasDirectory hthere]
    split <;> rfl

/-- A path that leads to a file is also the way to write to it. -/
theorem placeToWrite_of_locate (hplace : w.locate path = .ok place)
    (hfile : w.tree.shapeAt? place = some .file) :
    endsWithSlash path = false ∧ steps path ≠ [] ∧
      placeToWrite w.tree linkLimit (w.start path) path = .ok place := by
  obtain ⟨hchecked, hresolve⟩ := locate_eq_ok_iff.mp hplace
  have hplain := endsWithSlash_of_resolve hfile hresolve
  rw [stepsTo_of_plain hplain] at hresolve
  have hpath : path ≠ "" := by
    rintro rfl
    simp [checked] at hchecked
  refine ⟨hplain, steps_ne_nil hpath hplain, ?_⟩
  rw [placeToWrite, hplain]
  obtain ⟨first, rest, hsteps⟩ := List.exists_cons_of_ne_nil (steps_ne_nil hpath hplain)
  rw [hsteps] at hresolve ⊢
  exact resolveToFile_of_resolve hfile hresolve

/-- What has been read from a file is no reason for a write to that file to fail: its directories are
there, and its path leads to the place of a file. -/
theorem exists_save_of_readText {old : List Char} (h : w.readText path = .ok old)
    (text : List Char) : ∃ after, w.save path text = (after, .ok ()) := by
  obtain ⟨place, hplace, htext⟩ := readText_eq_ok_iff.mp h
  have hfile : w.tree.shapeAt? place = some .file := shapeAt?_eq_file.mpr ⟨_, htext⟩
  obtain ⟨hplain, hsteps, hwrite⟩ := placeToWrite_of_locate hplace hfile
  obtain ⟨hchecked, hresolve⟩ := locate_eq_ok_iff.mp hplace
  rw [stepsTo_of_plain hplain] at hresolve
  have hready : w.directoriesFor path = .ok w :=
    directoriesFor_of_file hchecked hplain hsteps hfile hresolve
  refine ⟨{ w with tree := w.tree.put place (.file (.text text)) },
    save_eq_ok_iff.mpr ⟨w, hready, ?_⟩⟩
  simp only [writeText, hchecked, hwrite, bind, Except.bind]

/-- A file holds another text, and nothing else has changed. -/
structure Rewrote (w after : Workspace) (path : String) (text : List Char) (place : Location) : Prop where
  locates : w.locate path = .ok place
  grows : w.GrowsTo after
  back : after.GrowsTo w
  file : after.tree.at? place = some (.file (.text text))
  others : ∀ other c, other ≠ place →
    (after.tree.at? other = some (.file c) ↔ w.tree.at? other = some (.file c))

theorem exists_rewrote_of_readText {old : List Char} (h : w.readText path = .ok old)
    (text : List Char) :
    ∃ after place, w.writeText path text = .ok after ∧ Rewrote w after path text place := by
  obtain ⟨place, hplace, htext⟩ := readText_eq_ok_iff.mp h
  have hfile : w.tree.shapeAt? place = some .file := shapeAt?_eq_file.mpr ⟨_, htext⟩
  obtain ⟨-, -, hwrite⟩ := placeToWrite_of_locate hplace hfile
  have hchecked := (locate_eq_ok_iff.mp hplace).1
  have hafter : w.writeText path text =
      .ok { w with tree := w.tree.put place (.file (.text text)) } := by
    simp only [writeText, hchecked, hwrite, bind, Except.bind]
  have hroom := (leadsToFile_of_resolveToFile hwrite).takes.room
  have hshape := FileTree.shapeAt?_put_file hroom hfile (.text text)
  obtain ⟨above, name, rfl, habove⟩ := hroom
  have hput : (w.tree.put (above ++ [name]) (.file (.text text))).at? (above ++ [name]) =
      some (.file (.text text)) := (FileTree.at?_put habove _).1
  refine ⟨_, above ++ [name], hafter, hplace, ⟨?_, rfl⟩, ⟨?_, rfl⟩, hput, ?_⟩
  · exact fun other s hs => (hshape other).trans hs
  · exact fun other s hs => (hshape other).symm.trans hs
  · intro other c hne
    have hkeeps {d : Contents} (hd : w.tree.at? other = some (.file d)) :
        (w.tree.put (above ++ [name]) (.file (.text text))).at? other = some (.file d) :=
      FileTree.at?_put_of_file ⟨above, name, rfl, habove⟩ (by simp [hfile]) _ hd hne
    refine ⟨fun hc => ?_, hkeeps⟩
    have hother : w.tree.shapeAt? other = some .file :=
      (hshape other).symm.trans (shapeAt?_eq_file.mpr ⟨c, hc⟩)
    obtain ⟨d, hd⟩ := shapeAt?_eq_file.mp hother
    rw [hd, ← hkeeps hd]
    exact hc

/-- What could be read can be read again. -/
theorem Rewrote.exists_readText {after : Workspace} {text : List Char} (h : Rewrote w after path text place)
    {other : String} {old : List Char} (hread : w.readText other = .ok old) :
    ∃ now, after.readText other = .ok now := by
  obtain ⟨found, hfound, htext⟩ := readText_eq_ok_iff.mp hread
  have hlocate := locate_of_growsTo h.grows hfound
  by_cases hsame : found = place
  · subst hsame
    exact ⟨text, readText_eq_ok_iff.mpr ⟨found, hlocate, h.file⟩⟩
  · exact ⟨old, readText_eq_ok_iff.mpr ⟨found, hlocate, (h.others found _ hsame).mpr htext⟩⟩

end Localization.Workspace
