import Localization.Config.Stored
import Localization.Proofs.Pattern.Removed
import Mathlib.Data.List.Infix

/-!
Where a configuration is looked for: in the directories from a path upwards, of which each is given by the text of
the one below it without its last part. Above a place of a tree these are the places that it lies in. The nearest
one with a configuration file counts, unless a nearer one marks the top of a repository. The search is bounded by
the length of the path, and the bound is never met. Main statements: `Path.ancestors_path`,
`Workspace.finds_path_iff`, `find?_nearest`.
-/

namespace Localization.Path

open FileTree (IsEntryName)

variable {path above name : String} {place : Location}

/-! ## Shorter and shorter paths -/

theorem dropTrailing_ne_slash (cs rest : List Char) : dropTrailing cs ≠ '/' :: rest := by
  fun_induction dropTrailing cs with
  | case1 inner ih => exact ih
  | case2 inner ih => exact ih
  | case3 cs hslash hdot => exact hslash rest

/-- Behind what is dropped at the end of a path stands a character of its last part. -/
theorem length_cut_lt {cs : List Char} (h : cs ≠ []) :
    (dropTrailing ((dropTrailing cs).dropWhile (· != '/'))).length < cs.length := by
  have hlast := (dropTrailing_suffix ((dropTrailing cs).dropWhile (· != '/'))).length_le
  have hfirst := (dropTrailing_suffix cs).length_le
  cases hkept : dropTrailing cs with
  | nil =>
      rw [hkept] at hlast
      have hpositive := List.length_pos_iff.mpr h
      simp only [List.dropWhile_nil, List.length_nil] at hlast ⊢
      omega
  | cons c rest =>
      have hc : c ≠ '/' := fun hc => dropTrailing_ne_slash cs rest (by rw [hkept, hc])
      have hdropped : ((c :: rest).dropWhile (· != '/')).length ≤ rest.length := by
        rw [List.dropWhile_cons_of_pos (by simpa using hc)]
        exact (List.dropWhile_sublist _).length_le
      rw [hkept] at hlast hfirst
      rw [List.length_cons] at hfirst
      omega

/-- A path without its last part is shorter. -/
theorem length_lt_of_parent? (h : parent? path = some above) : above.length < path.length := by
  have hempty : path ≠ "" := by
    rintro rfl
    simp [parent?, parts, pieces, splitFrom, partOf?, isAbsolute] at h
  have hroot : path ≠ "/" := by
    rintro rfl
    simp [parent?, parts, pieces, splitFrom, partOf?, isAbsolute] at h
  have hlist : path.toList ≠ [] := mt String.toList_eq_nil_iff.mp hempty
  rw [← String.length_toList, ← String.length_toList]
  rw [parent?] at h
  split at h
  · contradiction
  · contradiction
  · dsimp only at h
    split at h
    · next hrooted =>
        obtain rfl := Option.some.inj h
        obtain ⟨-, habsolute⟩ := Bool.and_eq_true_iff.mp hrooted
        -- Only the root itself is a slash and nothing else.
        cases hcs : path.toList with
        | nil => exact absurd hcs hlist
        | cons c rest =>
            have hc : c = '/' := by simpa [isAbsolute, hcs] using habsolute
            have hrest : rest ≠ [] := by
              rintro rfl
              exact hroot (String.toList_inj.mp (by rw [hcs, hc]; rfl))
            have hpositive := List.length_pos_iff.mpr hrest
            rw [List.length_cons]
            exact Nat.succ_lt_succ hpositive
    · obtain rfl := Option.some.inj h
      simpa using length_cut_lt (List.reverse_ne_nil_iff.mpr hlist)

/-- A path and all that remain of it without its last part, its last two parts and so on. -/
def ancestors (path : String) : List String :=
  path ::
    match _habove : parent? path with
    | none => []
    | some above => ancestors above
termination_by path.length
decreasing_by exact length_lt_of_parent? _habove

theorem ancestors_of_parent?_eq_none (h : parent? path = none) : ancestors path = [path] := by
  rw [ancestors]
  split
  · rfl
  · next hsome => rw [h] at hsome; contradiction

theorem ancestors_of_parent?_eq_some (h : parent? path = some above) :
    ancestors path = path :: ancestors above := by
  rw [ancestors]
  split
  · next hnone => rw [h] at hnone; contradiction
  · next other hother => rw [h] at hother; rw [Option.some.inj hother]

/-! ## Paths of places -/

theorem path_concat (place : Location) (name : String) : Location.path (place ++ [name]) =
    String.join (place.map ("/" ++ ·)) ++ "/" ++ name := by
  rw [← Workspace.join_concat]
  cases place <;> rfl

theorem parent?_path_concat (hplace : ∀ n ∈ place, IsEntryName n) (hname : IsEntryName name) :
    parent? (Location.path (place ++ [name])) = some (Location.path place) := by
  have hlast : (parts (Location.path (place ++ [name]))).getLast? = some (.name name) := by
    rw [path_concat, parts_eq, pieces_append_slash, pieces_of_notMem hname.noSlash, List.filterMap_append]
    simp [partOf?_of_name hname.ne_empty hname.not_current hname.not_parent]
  have hreverse : (Location.path (place ++ [name])).toList.reverse =
      name.toList.reverse ++ '/' :: (String.join (place.map ("/" ++ ·))).toList.reverse := by
    rw [path_concat]
    simp
  have hkept : dropTrailing (('/' :: (String.join (place.map ("/" ++ ·))).toList.reverse).dropWhile
      (· != '/')) = (String.join (place.map ("/" ++ ·))).toList.reverse := by
    have hwhile : ('/' :: (String.join (place.map ("/" ++ ·))).toList.reverse).dropWhile (· != '/') =
        '/' :: (String.join (place.map ("/" ++ ·))).toList.reverse := rfl
    rw [hwhile, dropTrailing]
    rcases List.eq_nil_or_concat place with rfl | ⟨init, inner, rfl⟩
    · rfl
    · have hinner := hplace inner (by simp)
      have hsplit : (String.join ((init ++ [inner]).map ("/" ++ ·))).toList.reverse =
          inner.toList.reverse ++ '/' :: (String.join (init.map ("/" ++ ·))).toList.reverse := by
        rw [Workspace.join_concat]
        simp
      rw [List.concat_eq_append, hsplit]
      exact dropTrailing_of_name hinner.ne_empty hinner.not_current hinner.noSlash _
  simp only [parent?, hlast, hreverse, dropTrailing_of_name hname.ne_empty hname.not_current hname.noSlash,
    dropWhile_of_name hname.noSlash, hkept, Workspace.isAbsolute_path, Bool.and_true]
  cases place with
  | nil => rfl
  | cons first rest =>
      rw [if_neg (by simp), List.reverse_reverse, String.ofList_toList]
      rfl

theorem join_path (hplace : ∀ n ∈ place, IsEntryName n) (hname : IsEntryName name) :
    join (Location.path place) name = Location.path (place ++ [name]) := by
  rw [join, isAbsolute_of_isPiece hname.toIsPiece, if_neg Bool.false_ne_true, path_concat]
  rcases List.eq_nil_or_concat place with rfl | ⟨init, inner, rfl⟩
  · rfl
  · have hinner := hplace inner (by simp)
    have hend : inner.toList.getLast? ≠ some '/' := fun hslash =>
      hinner.noSlash (List.mem_of_getLast? hslash)
    have hne : inner.toList ≠ [] := by simpa using hinner.ne_empty
    rw [List.concat_eq_append, path_concat, Workspace.join_concat, if_neg]
    rw [String.toList_append, List.getLast?_append_of_ne_nil _ hne]
    simp [hend]

end Localization.Path

namespace Localization

open FileTree (IsEntryName HasNames)

/-- The places that a place lies in, from itself up to the root. -/
def Location.upward (place : Location) : List Location :=
  place.inits.reverse

theorem Location.upward_concat (place : Location) (name : String) :
    upward (place ++ [name]) = (place ++ [name]) :: upward place := by
  simp [upward, List.inits_append]

theorem FileTree.shapeAt?_of_mem_upward {t : FileTree} {place above : Location}
    (h : t.shapeAt? place = some .directory) (habove : above ∈ place.upward) :
    t.shapeAt? above = some .directory := by
  rw [Location.upward, List.mem_reverse, List.mem_inits] at habove
  obtain ⟨more, rfl⟩ := habove
  rcases eq_or_ne more [] with rfl | hmore
  · rwa [List.append_nil] at h
  · exact shapeAt?_of_append h hmore

theorem Path.ancestors_path {place : Location} (h : ∀ n ∈ place, IsEntryName n) :
    ancestors place.path = place.upward.map Location.path := by
  induction place using List.reverseRecOn with
  | nil => exact ancestors_of_parent?_eq_none rfl
  | append_singleton place name ih =>
      have hplace : ∀ n ∈ place, IsEntryName n := fun n hn => h n (List.mem_append_left _ hn)
      rw [ancestors_of_parent?_eq_some (parent?_path_concat hplace (h name (by simp))), ih hplace,
        Location.upward_concat, List.map_cons]

namespace Workspace

variable {w : Workspace} {place : Location} {name : String}

/-- Something stands in a directory under a name. A link counts only if it leads somewhere. -/
def Holds (w : Workspace) (directory : Location) (name : String) : Prop :=
  ∃ t, w.tree.at? (directory ++ [name]) = some t ∧
    ∀ target, t = .link target → w.exists (Location.path (directory ++ [name])) = true

theorem not_holds_of_none {directory : Location} (h : w.tree.at? (directory ++ [name]) = none) :
    ¬ w.Holds directory name := by
  rintro ⟨t, ht, -⟩
  rw [h] at ht
  contradiction

/-- The path of a directory, joined with a name, leads to something. -/
def Finds (w : Workspace) (directory name : String) : Prop :=
  w.exists (Path.join directory name) = true

theorem resolve_place (hnames : w.tree.HasNames) {s : FileTree.Shape} (links : Nat)
    (h : w.tree.shapeAt? place = some s) (hlink : ∀ target, s ≠ .link target) :
    resolve w.tree links [] place = .ok place := by
  have hnil : resolve w.tree links [] [] = .ok [] := by cases links <;> rfl
  exact resolve_append hnames hnil h hlink

theorem locate_path_concat (hplace : ∀ n ∈ place, IsEntryName n) (hname : IsEntryName name)
    {found : Location} : w.locate (Location.path (place ++ [name])) = .ok found ↔
      resolve w.tree linkLimit [] (place ++ [name]) = .ok found := by
  have hall : ∀ n ∈ place ++ [name], IsEntryName n := by
    intro n hn
    rcases List.mem_append.mp hn with hn | hn
    · exact hplace n hn
    · rwa [List.mem_singleton.mp hn]
  have hlast : (Location.path (place ++ [name])).toList.getLast? ≠ some '/' := by
    rw [Path.path_concat, String.toList_append,
      List.getLast?_append_of_ne_nil _ (by simpa using hname.ne_empty)]
    exact fun hslash => hname.noSlash (List.mem_of_getLast? hslash)
  have hzero : '\x00' ∉ (Location.path (place ++ [name])).toList := by
    rw [Path.path_concat, ← join_concat]
    rw [String.toList_join, List.flatMap_map, List.mem_flatMap]
    rintro ⟨n, hn, hmem⟩
    rw [String.toList_append, List.mem_append] at hmem
    exact hmem.elim (by decide) (hall n hn).noZero
  have hne : Location.path (place ++ [name]) ≠ "" := by
    simp [Path.path_concat, hname.ne_empty]
  have hchecked : checked (Location.path (place ++ [name])) = .ok () := by
    simp [checked, hzero, hne]
  have hslash : endsWithSlash (Location.path (place ++ [name])) = false := by
    simpa [endsWithSlash] using hlast
  rw [locate_eq_ok_iff, and_iff_right hchecked, stepsTo_of_plain hslash,
    steps_path fun n hn => (hall n hn).toIsPiece, start, if_pos (isAbsolute_path _)]

/-- A path to a name in a directory leads to something exactly if the directory holds the name. -/
theorem finds_path_iff (hnames : w.tree.HasNames) (hplace : w.tree.shapeAt? place = some .directory)
    (hname : IsEntryName name) : w.Finds place.path name ↔ w.Holds place name := by
  have hentries := hnames.isEntryName_of_shapeAt? hplace
  have hway : resolve w.tree linkLimit [] place = .ok place := resolve_place hnames _ hplace nofun
  rw [Finds, Path.join_path hentries hname]
  constructor
  · intro hexists
    obtain ⟨found, s, hfound, hs⟩ := exists_iff.mp hexists
    obtain ⟨above, habove, hends⟩ := exists_above_of_resolve ((locate_path_concat hentries hname).mp hfound)
    obtain rfl : place = above := Except.ok.inj (hway.symm.trans habove)
    have hthere : ∃ s, w.tree.shapeAt? (place ++ [name]) = some s := by
      rcases hends with hgoes | ⟨source, target, hlinks⟩
      · cases hgoes with
        | current => exact absurd rfl hname.not_current
        | parent => exact absurd rfl hname.not_parent
        | inside _ _ hinside => exact ⟨_, hinside⟩
      · exact ⟨_, hlinks.link⟩
    obtain ⟨s, hs⟩ := hthere
    obtain ⟨t, ht, -⟩ := Option.map_eq_some_iff.mp hs
    exact ⟨t, ht, fun _ _ => hexists⟩
  · rintro ⟨t, ht, hlink⟩
    have hshape : w.tree.shapeAt? (place ++ [name]) = some t.shape := by
      rw [FileTree.shapeAt?, ht, Option.map_some]
    cases t with
    | link target => exact hlink target rfl
    | file c =>
        have hfound := resolve_place hnames linkLimit hshape nofun
        exact exists_iff.mpr ⟨_, _, (locate_path_concat hentries hname).mpr hfound, hshape⟩
    | directory entries =>
        have hfound := resolve_place hnames linkLimit hshape nofun
        exact exists_iff.mpr ⟨_, _, (locate_path_concat hentries hname).mpr hfound, hshape⟩

end Workspace

end Localization

/-! ## The nearest configuration -/

namespace Localization.Config

open FileTree (IsEntryName HasNames)

variable {α β : Type} {holds : α → String → Prop} {directory nearest : α} {rest : List α}

/-- Of directories from below upwards, the first with a configuration file, with no repository ending below
it. -/
def IsNearest (holds : α → String → Prop) (directories : List α) (nearest : α) : Prop :=
  ∃ nearer further, directories = nearer ++ nearest :: further ∧ holds nearest fileName ∧
    ∀ d ∈ nearer, ¬ holds d fileName ∧ ¬ holds d repositoryMark

namespace IsNearest

theorem not_nil : ¬ IsNearest holds [] nearest := by
  rintro ⟨nearer, further, h, -⟩
  simp at h

theorem mem {directories : List α} (h : IsNearest holds directories nearest) : nearest ∈ directories := by
  obtain ⟨nearer, further, rfl, -⟩ := h
  simp

theorem head (h : holds directory fileName) : IsNearest holds (directory :: rest) directory :=
  ⟨[], rest, rfl, h, nofun⟩

/-- A configuration file hides all those above it. -/
theorem cons_iff_of_file (h : holds directory fileName) :
    IsNearest holds (directory :: rest) nearest ↔ nearest = directory := by
  refine ⟨?_, ?_⟩
  · rintro ⟨_ | ⟨first, nearer⟩, further, heq, -, hnearer⟩
    · exact (List.cons.inj heq).1.symm
    · obtain ⟨rfl, -⟩ := List.cons.inj heq
      exact absurd h (hnearer directory List.mem_cons_self).1
  · rintro rfl
    exact head h

/-- So does the top of a repository. -/
theorem not_cons_of_mark (hfile : ¬ holds directory fileName) (hmark : holds directory repositoryMark) :
    ¬ IsNearest holds (directory :: rest) nearest := by
  rintro ⟨_ | ⟨first, nearer⟩, further, heq, hholds, hnearer⟩
  · obtain ⟨rfl, -⟩ := List.cons.inj heq
    exact hfile hholds
  · obtain ⟨rfl, -⟩ := List.cons.inj heq
    exact (hnearer directory List.mem_cons_self).2 hmark

theorem cons_iff_of_neither (hfile : ¬ holds directory fileName)
    (hmark : ¬ holds directory repositoryMark) :
    IsNearest holds (directory :: rest) nearest ↔ IsNearest holds rest nearest := by
  constructor
  · rintro ⟨_ | ⟨first, nearer⟩, further, heq, hholds, hnearer⟩
    · obtain ⟨rfl, -⟩ := List.cons.inj heq
      exact absurd hholds hfile
    · exact ⟨nearer, further, (List.cons.inj heq).2, hholds, fun d hd => hnearer d (.tail _ hd)⟩
  · rintro ⟨nearer, further, rfl, hholds, hnearer⟩
    exact ⟨directory :: nearer, further, rfl, hholds, List.forall_mem_cons.mpr ⟨⟨hfile, hmark⟩, hnearer⟩⟩

/-- Directories under other names, with the same in them. -/
theorem map_iff {rename : α → β} {held : β → String → Prop} {directories : List α} {named : β}
    (h : ∀ d ∈ directories, ∀ name ∈ [fileName, repositoryMark], held (rename d) name ↔ holds d name) :
    IsNearest held (directories.map rename) named ↔
      ∃ nearest, IsNearest holds directories nearest ∧ named = rename nearest := by
  induction directories with
  | nil =>
      refine iff_of_false not_nil ?_
      rintro ⟨nearest, hnearest, -⟩
      exact not_nil hnearest
  | cons directory rest ih =>
      have hsame := h directory List.mem_cons_self
      have hfile := hsame fileName (by simp)
      have hmark := hsame repositoryMark (by simp)
      rw [List.map_cons]
      by_cases hf : holds directory fileName
      · rw [cons_iff_of_file (hfile.mpr hf)]
        simp only [cons_iff_of_file hf, exists_eq_left]
      by_cases hm : holds directory repositoryMark
      · refine iff_of_false (not_cons_of_mark (mt hfile.mp hf) (hmark.mpr hm)) ?_
        rintro ⟨nearest, hnearest, -⟩
        exact not_cons_of_mark hf hm hnearest
      rw [cons_iff_of_neither (mt hfile.mp hf) (mt hmark.mp hm), ih fun d hd => h d (.tail _ hd)]
      simp only [cons_iff_of_neither hf hm]

end IsNearest

theorem isEntryName_of_mem {name : String} (h : name ∈ [fileName, repositoryMark]) : IsEntryName name := by
  have hboth : ∀ name ∈ [fileName, repositoryMark], IsEntryName name := by decide
  exact hboth name h

/-- With more levels to go than the directory has characters, the search ends for its own reasons. -/
theorem findFrom_eq_some_iff {w : Workspace} {levels : Nat} {directory path : String}
    (h : directory.length < levels) : findFrom w levels directory = some path ↔
      ∃ nearest, IsNearest w.Finds (Path.ancestors directory) nearest ∧ path = Path.join nearest fileName := by
  induction levels generalizing directory with
  | zero => exact absurd h (Nat.not_lt_zero _)
  | succ levels ih =>
      obtain ⟨further, hupward⟩ : ∃ further, Path.ancestors directory = directory :: further := by
        rw [Path.ancestors]
        exact ⟨_, rfl⟩
      rw [findFrom]
      split
      · next hfile =>
          have hfile : w.Finds directory fileName := hfile
          rw [hupward]
          simp only [IsNearest.cons_iff_of_file hfile, exists_eq_left, Option.some.injEq]
          exact eq_comm
      next hfile =>
      have hfile : ¬ w.Finds directory fileName := hfile
      split
      · next hmark =>
          have hmark : w.Finds directory repositoryMark := hmark
          rw [hupward]
          refine iff_of_false nofun ?_
          rintro ⟨nearest, hnearest, -⟩
          exact IsNearest.not_cons_of_mark hfile hmark hnearest
      next hmark =>
      have hmark : ¬ w.Finds directory repositoryMark := hmark
      split
      · next htop =>
          rw [Path.ancestors_of_parent?_eq_none htop]
          refine iff_of_false nofun ?_
          rintro ⟨nearest, hnearest, -⟩
          rw [IsNearest.cons_iff_of_neither hfile hmark] at hnearest
          exact IsNearest.not_nil hnearest
      · next above habove =>
          have hshorter := Path.length_lt_of_parent? habove
          rw [ih (by omega), Path.ancestors_of_parent?_eq_some habove]
          simp only [IsNearest.cons_iff_of_neither hfile hmark]

/-- From any path upwards the configuration file of the nearest directory is found, and none if a repository
ends below it. From a directory of a tree, these are the places that it lies in. -/
theorem find?_nearest (w : Workspace) :
    (∀ directory path, find? w directory = some path ↔
      ∃ nearest, IsNearest w.Finds (Path.ancestors directory) nearest ∧
        path = Path.join nearest fileName) ∧
    (w.tree.HasNames → ∀ place path, w.tree.shapeAt? place = some .directory →
      (find? w place.path = some path ↔
        ∃ nearest, IsNearest w.Holds place.upward nearest ∧ path = Location.path (nearest ++ [fileName]))) := by
  have hpaths (directory path : String) : find? w directory = some path ↔
      ∃ nearest, IsNearest w.Finds (Path.ancestors directory) nearest ∧ path = Path.join nearest fileName :=
    findFrom_eq_some_iff (Nat.lt_succ_self directory.length)
  refine ⟨hpaths, fun hnames place path hplace => ?_⟩
  have hupward : ∀ d ∈ place.upward, w.tree.shapeAt? d = some .directory := fun d hd =>
    FileTree.shapeAt?_of_mem_upward hplace hd
  have hmap (named : String) : IsNearest w.Finds (place.upward.map Location.path) named ↔
      ∃ nearest, IsNearest w.Holds place.upward nearest ∧ named = nearest.path :=
    IsNearest.map_iff fun d hd name hname =>
      Workspace.finds_path_iff hnames (hupward d hd) (isEntryName_of_mem hname)
  have hjoin {d : Location} (hd : IsNearest w.Holds place.upward d) :
      Path.join d.path fileName = Location.path (d ++ [fileName]) :=
    Path.join_path (hnames.isEntryName_of_shapeAt? (hupward d hd.mem)) (isEntryName_of_mem (by simp))
  rw [hpaths, Path.ancestors_path (hnames.isEntryName_of_shapeAt? hplace)]
  simp only [hmap]
  constructor
  · rintro ⟨-, ⟨d, hd, rfl⟩, rfl⟩
    exact ⟨d, hd, hjoin hd⟩
  · rintro ⟨d, hd, rfl⟩
    exact ⟨d.path, ⟨d, hd, rfl⟩, (hjoin hd).symm⟩

/-- A project with the top of its repository beside its configuration, below another configuration. -/
def configuredProject : Workspace where
  tree := .directory
    [ (fileName, .file (.text [])),
      ("p", .directory
        [ (fileName, .file (.text [])), (repositoryMark, .directory []), ("src", .directory []) ]),
      ("q", .directory [(repositoryMark, .directory []), ("src", .directory [])]) ]
  current := ["p"]

theorem hasNames_configuredProject : configuredProject.tree.HasNames := by
  have hnames : ∀ n ∈ [fileName, repositoryMark, "src", "p", "q"], IsEntryName n := by decide
  simp only [List.forall_mem_cons] at hnames
  obtain ⟨hfileName, hmark, hsrc, hp, hq, -⟩ := hnames
  have hfile := FileTree.isPlain_file (.text [])
  have hempty : (FileTree.directory []).IsPlain := FileTree.isPlain_directory (by decide) nofun
  have hother : (FileTree.directory [(repositoryMark, .directory []), ("src", .directory [])]).IsPlain :=
    FileTree.isPlain_directory (by decide) (by simp [hempty, hmark, hsrc])
  have hproject : (FileTree.directory [(fileName, .file (.text [])), (repositoryMark, .directory []),
      ("src", .directory [])]).IsPlain :=
    FileTree.isPlain_directory (by decide) (by simp [hfile, hempty, hfileName, hmark, hsrc])
  refine (FileTree.isPlain_directory (by decide) ?_).hasNames
  simp [hfile, hproject, hother, hfileName, hp, hq]

/-- What marks the top of a repository does not hide the configuration beside it, but the one above it. -/
theorem find?_nearest_configured : find? configuredProject "/p/src" = some "/p/.i18nexusrc.json" ∧
    find? configuredProject "/q/src" = none := by
  obtain ⟨-, hplaces⟩ := find?_nearest configuredProject
  have hlevel : ∀ d ∈ [["p", "src"], ["q", "src"]], ∀ name ∈ [fileName, repositoryMark],
      ¬ configuredProject.Holds d name :=
    fun d hd name hname => Workspace.not_holds_of_none
      ((by decide : ∀ d ∈ [["p", "src"], ["q", "src"]], ∀ name ∈ [fileName, repositoryMark],
        configuredProject.tree.at? (d ++ [name]) = none) d hd name hname)
  constructor
  · refine (hplaces hasNames_configuredProject ["p", "src"] _ (by decide)).mpr ⟨["p"], ?_, rfl⟩
    refine ⟨[["p", "src"]], [[]], rfl, ⟨_, rfl, nofun⟩, List.forall_mem_singleton.mpr ⟨?_, ?_⟩⟩
    · exact hlevel _ (by simp) _ (by simp)
    · exact hlevel _ (by simp) _ (by simp)
  · refine Option.eq_none_iff_forall_ne_some.mpr fun path hpath => ?_
    obtain ⟨nearest, hnearest, -⟩ :=
      (hplaces hasNames_configuredProject ["q", "src"] path (by decide)).mp hpath
    have hupward : Location.upward ["q", "src"] = [["q", "src"], ["q"], []] := rfl
    rw [hupward, IsNearest.cons_iff_of_neither (hlevel _ (by simp) _ (by simp))
      (hlevel _ (by simp) _ (by simp))] at hnearest
    have hmark : configuredProject.Holds ["q"] repositoryMark := ⟨.directory [], rfl, by simp⟩
    exact IsNearest.not_cons_of_mark (Workspace.not_holds_of_none rfl) hmark hnearest

end Localization.Config
