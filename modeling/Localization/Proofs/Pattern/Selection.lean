import Localization.Proofs.Pattern.Literal
import Localization.Proofs.Results
import Localization.Proofs.Text.Order
import Localization.Proofs.Tree.Plain

/-!
Which files a pattern selects. In a tree without links these are the files below the plain directories of
a glob, apart from those in skipped directories, whose joined names the glob accepts. Main statement:
`selectFiles_eq_matching`.
-/

namespace Localization

open FileTree (IsPlain)

variable {w : Workspace} {base path : String} {place root : Location} {g : Glob}

/-! ## Files below a path -/

/-- No directory is skipped on the way from a path down to a file below it. -/
def Unskipped (path : String) (below : Location) : Prop :=
  ∀ name ∈ (lastName path :: below).dropLast, isSkipped name = false

theorem mem_filesBelow (hplain : w.tree.IsPlain) (h : w.locate path = .ok root) {below : Location} :
    below ∈ w.filesBelow path ↔
      w.tree.shapeAt? (root ++ below) = some .file ∧ Unskipped path below := by
  rw [Workspace.filesBelow, Workspace.entry?_eq_at? hplain h]
  cases ht : w.tree.at? root with
  | none => simp [FileTree.shapeAt?, FileTree.at?_append, ht]
  | some t =>
      have hinner := hplain.of_at? ht
      have hshape : w.tree.shapeAt? (root ++ below) = t.shapeAt? below := by
        rw [FileTree.shapeAt?, FileTree.at?_append, ht, Option.bind_some, FileTree.shapeAt?]
      have hway : t.shapeAt? below = some .file ∧ Unskipped path below ↔
          (t.isDirectory && isSkipped (lastName path)) = false ∧ below ∈ t.filesOutside isSkipped := by
        rw [FileTree.mem_filesOutside hinner.hasNames]
        constructor
        · rintro ⟨hfile, hskips⟩
          obtain ⟨hlast, hrest⟩ := (FileTree.skips_cons_iff hfile).mp hskips
          exact ⟨hlast, hfile, hrest⟩
        · rintro ⟨hlast, hfile, hrest⟩
          exact ⟨hfile, (FileTree.skips_cons_iff hfile).mpr ⟨hlast, hrest⟩⟩
      rw [hshape, hway]
      cases t with
      | link target => exact absurd rfl (hinner.noLinks [] target)
      | file c => simp [FileTree.isDirectory, FileTree.filesOutside]
      | directory entries =>
          cases hskip : isSkipped (lastName path) <;>
            simp [FileTree.isDirectory, FileTree.filesOutside]

/-! ## Paths of files -/

open Path (IsPiece IsInside pieces partOf? join)

theorem mem_of_mem_plainParts {ps : List Path.Part} {part : Path.Part} (h : part ∈ plainParts ps) : part ∈ ps := by
  induction ps with
  | nil => simp [plainParts] at h
  | cons first rest ih =>
      cases rest with
      | nil => simp [plainParts] at h
      | cons second rest =>
          rw [plainParts] at h
          · split at h
            · simp at h
            · rcases List.mem_cons.mp h with rfl | hrest
              · exact List.mem_cons_self
              · exact List.mem_cons_of_mem first (ih hrest)
          · simp

theorem filterMap_partOf? {ps : List Path.Part} (h : ∀ part ∈ ps, IsInside part) :
    (ps.map Path.Part.text).filterMap partOf? = ps.filter (· ≠ .current) := by
  induction ps with
  | nil => rfl
  | cons part rest ih =>
      rw [List.map_cons, List.filterMap_cons, (h part List.mem_cons_self).again,
        ih fun q hq => h q (List.mem_cons_of_mem part hq)]
      by_cases hcurrent : part = .current <;> simp [hcurrent]

namespace Glob

theorem isInside_of_mem_rootParts (hrelative : g.text.head? ≠ some '/') :
    ∀ part ∈ g.rootParts, IsInside part := by
  intro part hpart
  have hrooted : Path.isAbsolute (String.ofList g.text) = false := by
    simpa [Path.isAbsolute] using hrelative
  exact Path.isInside_of_mem_parts hrooted (mem_of_mem_plainParts hpart)

theorem isPiece_of_mem_rootParts (hrelative : g.text.head? ≠ some '/') :
    ∀ n ∈ g.rootParts.map Path.Part.text, IsPiece n := by
  intro n hn
  obtain ⟨part, hpart, rfl⟩ := List.mem_map.mp hn
  exact (isInside_of_mem_rootParts hrelative part hpart).isPiece

theorem startPath_eq (hrelative : g.text.head? ≠ some '/') :
    g.startPath = "/".intercalate (g.rootParts.map Path.Part.text) :=
  Path.foldl_join Path.Part.text fun part hpart => (isInside_of_mem_rootParts hrelative part hpart).isPiece

theorem filterMap_startPath (hrelative : g.text.head? ≠ some '/') :
    (pieces g.startPath).filterMap partOf? = g.rootParts.filter (· ≠ .current) := by
  have hinside := isInside_of_mem_rootParts hrelative
  rw [startPath_eq hrelative, ← filterMap_partOf? hinside]
  by_cases hne : g.rootParts = []
  · rw [hne]
    rfl
  · rw [Path.pieces_intercalate (by simpa using hne) (isPiece_of_mem_rootParts hrelative)]

theorem isAbsolute_startPath (hrelative : g.text.head? ≠ some '/') :
    Path.isAbsolute g.startPath = false := by
  rw [startPath_eq hrelative]
  exact Path.isAbsolute_intercalate (isPiece_of_mem_rootParts hrelative)

/-- The parts of the directory that files are looked for in, seen from the base directory. -/
theorem exists_parts_join (hrelative : g.text.head? ≠ some '/') (base : String) :
    ∃ inside, Path.parts (join base g.startPath) = Path.parts base ++ inside ∧
      inside.filter (· ≠ .current) = g.rootParts.filter (· ≠ .current) ∧
      ∀ part ∈ inside, IsInside part := by
  have hstart := isAbsolute_startPath hrelative
  have hmap := filterMap_startPath hrelative
  by_cases hbase : base = ""
  · subst hbase
    have hjoin : join "" g.startPath = g.startPath := by
      simp [join, hstart]
    refine ⟨Path.parts g.startPath, by rw [hjoin]; rfl, ?_, fun part => Path.isInside_of_mem_parts hstart⟩
    rw [Path.parts_eq, Path.lead, hstart, if_neg Bool.false_ne_true, hmap, List.filter_append,
      List.filter_filter]
    split <;> simp
  · refine ⟨g.rootParts.filter (· ≠ .current), ?_, ?_, ?_⟩
    · rw [Path.parts_join hbase hstart, hmap]
    · simp [List.filter_filter]
    · exact fun part hpart => isInside_of_mem_rootParts hrelative part (List.mem_filter.mp hpart).1

/-- Under which path a file is matched: the plain names of the glob, except single dots, and the names
below, joined by slashes. -/
theorem candidate?_eq (hrelative : g.text.head? ≠ some '/') (base : String) {below : Location}
    (hbelow : ∀ n ∈ below, IsPiece n) :
    g.candidate? (Path.parts base) (Path.parts (join base g.startPath) ++ below.map .name) =
      some ("/".intercalate (g.rootNames ++ below)) := by
  obtain ⟨inside, hparts, hfilter, hinside⟩ := exists_parts_join hrelative base
  have hnames : (below.map Path.Part.name).filter (· ≠ .current) = below.map .name := by
    rw [List.filter_eq_self]
    intro part hpart
    obtain ⟨name, -, rfl⟩ := List.mem_map.mp hpart
    simp
  have htexts : (below.map Path.Part.name).map Path.Part.text = below := by
    rw [List.map_map]
    exact List.map_id below
  rw [candidate?, if_neg hrelative, hparts, List.append_assoc, Path.relativeParts?_append,
    Option.map_some, Path.render_eq_intercalate]
  · rw [List.filter_append, hfilter, hnames, List.map_append, htexts, rootNames]
  · intro part hpart
    rcases List.mem_append.mp hpart with hpart | hpart
    · exact ⟨(hinside part hpart).ne_root, (hinside part hpart).isPiece⟩
    · obtain ⟨name, hname, rfl⟩ := List.mem_map.mp hpart
      exact ⟨by simp, hbelow name hname⟩

/-- A file that a glob selects: it lies below the directory of the plain names, no directory from there
on is skipped, and its path is accepted. -/
def Finds (g : Glob) (w : Workspace) (base path : String) : Prop :=
  ∃ root below, w.locate (join base g.startPath) = .ok root ∧
    w.tree.shapeAt? (root ++ below) = some .file ∧ Unskipped (join base g.startPath) below ∧
    path = "/".intercalate (g.rootNames ++ below) ∧ g.accepts path = true

theorem mem_select_iff (hplain : w.tree.IsPlain) (hrelative : g.text.head? ≠ some '/') :
    path ∈ g.select w base ↔ g.Finds w base path := by
  have hcandidate : ∀ root below, w.tree.shapeAt? (root ++ below) = some .file →
      g.candidate? (Path.parts base) (Path.parts (join base g.startPath) ++ below.map .name) =
        some ("/".intercalate (g.rootNames ++ below)) := fun root below hfile =>
    candidate?_eq hrelative base fun n hn => (hplain.hasNames.isEntryName_of_mem hfile n hn).toIsPiece
  rw [select]
  cases hroot : w.locate (join base g.startPath) with
  | error e => simp [Finds, hroot, Workspace.exists, Workspace.find?, Except.toOption]
  | ok root =>
      constructor
      · intro h
        split at h
        · obtain ⟨hmem, haccepts⟩ := List.mem_filter.mp h
          obtain ⟨below, hbelow, hpath⟩ := List.mem_filterMap.mp hmem
          obtain ⟨hfile, hskips⟩ := (mem_filesBelow hplain hroot).mp hbelow
          rw [hcandidate root below hfile] at hpath
          exact ⟨root, below, hroot, hfile, hskips, (Option.some.inj hpath).symm, haccepts⟩
        · simp at h
      · rintro ⟨root', below, hroot', hfile, hskips, hpath, haccepts⟩
        obtain rfl : root = root' := Except.ok.inj (hroot.symm.trans hroot')
        have hexists : w.exists (join base g.startPath) = true := by
          rw [Workspace.exists, Workspace.find?, hroot]
          cases hat : w.tree.at? root with
          | none => simp [FileTree.shapeAt?, FileTree.at?_append, hat] at hfile
          | some t => simp [Except.toOption, hat]
        rw [if_pos hexists]
        refine List.mem_filter.mpr ⟨List.mem_filterMap.mpr ⟨below, ?_, ?_⟩, haccepts⟩
        · exact (mem_filesBelow hplain hroot).mpr ⟨hfile, hskips⟩
        · rw [hcandidate root below hfile, hpath]

/-- No file that a glob accepts is lost by looking for it below the plain names only. -/
theorem locate_join_of_accepts (hplain : w.tree.IsPlain) {pattern : List Char}
    (hparse : parse? pattern = .ok g) (hrelative : g.text.head? ≠ some '/')
    (hplace : w.locate base = .ok place) (hdirectory : w.tree.shapeAt? place = some .directory)
    {names : Location} (hfile : w.tree.shapeAt? (place ++ names) = some .file)
    (haccepts : g.accepts ("/".intercalate names) = true) :
    ∃ below, names = g.rootNames ++ below ∧
      w.locate (join base g.startPath) = .ok (place ++ g.rootNames) := by
  have hentry := hplain.hasNames.isEntryName_of_mem hfile
  have hne : names ≠ [] := by
    rintro rfl
    rw [List.append_nil, hdirectory] at hfile
    contradiction
  obtain ⟨below, hbelow, hstart⟩ := exists_below_of_accepts hparse hrelative hne
    (fun n hn => ⟨(hentry n hn).toIsPiece, (hentry n hn).not_current, (hentry n hn).not_parent⟩) haccepts
  refine ⟨below, hbelow, ?_⟩
  rw [hbelow, ← List.append_assoc] at hfile
  have hroot : ∃ s, w.tree.shapeAt? (place ++ g.rootNames) = some s := by
    by_cases hbelow' : below = []
    · rw [hbelow', List.append_nil] at hfile
      exact ⟨.file, hfile⟩
    · exact ⟨.directory, FileTree.shapeAt?_of_append hfile hbelow'⟩
  obtain ⟨s, hs⟩ := hroot
  rw [hstart]
  exact Workspace.locate_join hplain hplace hdirectory hs

end Glob

/-! ## Patterns -/

theorem exists_parse?_of_mem {pattern : String} {globs : List Glob}
    (hglobs : globsOf pattern = .ok globs) (hg : g ∈ globs) :
    ∃ cs ∈ alternativesOf pattern, Glob.parse? cs = .ok g := by
  obtain ⟨cs, hcs, hparse⟩ := exists_mem_of_mapM hglobs hg
  refine ⟨cs, hcs, ?_⟩
  cases h : Glob.parse? cs with
  | error f => simp [h, Except.mapError] at hparse
  | ok g' => simpa [h, Except.mapError] using hparse

/-- A pattern of relative globs selects exactly the files that one of its globs finds. No file that a
glob accepts is lost by looking for it only below the plain names of the glob: its path begins with these
names. The selected paths are in strictly increasing order. -/
theorem selectFiles_eq_matching (base : String) {pattern : String} {globs : List Glob} (hplain : w.tree.IsPlain)
    (hglobs : globsOf pattern = .ok globs) (hrelative : ∀ g ∈ globs, g.text.head? ≠ some '/') :
    ∃ files, selectFiles w base pattern = .ok files ∧
      (∀ path, path ∈ files ↔ ∃ g ∈ globs, g.Finds w base path) ∧
      (∀ place, w.locate base = .ok place → w.tree.shapeAt? place = some .directory →
        ∀ g ∈ globs, ∀ names, w.tree.shapeAt? (place ++ names) = some .file →
          g.accepts ("/".intercalate names) = true → ∃ below, names = g.rootNames ++ below ∧
            (Unskipped (join base g.startPath) below → "/".intercalate names ∈ files)) ∧
      files.Pairwise (· < ·) := by
  have hmem : ∀ path, path ∈ Text.sortedSet (globs.flatMap fun g => g.select w base) ↔
      ∃ g ∈ globs, g.Finds w base path := by
    intro path
    rw [Text.mem_sortedSet, List.mem_flatMap]
    exact exists_congr fun g => and_congr_right fun hg => Glob.mem_select_iff hplain (hrelative g hg)
  refine ⟨_, ?_, hmem, ?_, Text.pairwise_sortedSet _⟩
  · rw [selectFiles, hglobs]
    rfl
  · intro place hplace hdirectory g hg names hfile haccepts
    obtain ⟨cs, -, hparse⟩ := exists_parse?_of_mem hglobs hg
    obtain ⟨below, rfl, hroot⟩ := Glob.locate_join_of_accepts hplain hparse (hrelative g hg) hplace
      hdirectory hfile haccepts
    refine ⟨below, rfl, fun hskips => (hmem _).mpr ⟨g, hg, ?_⟩⟩
    refine ⟨place ++ g.rootNames, below, hroot, ?_, hskips, rfl, haccepts⟩
    rwa [List.append_assoc]

/-- A project in a directory of its own, with a source and an installed package. -/
def nestedProject : Workspace where
  tree := .directory [("p", .directory
    [ ("src", .directory
        [ ("a.tsx", .file (.text [])),
          ("node_modules", .directory [("b.tsx", .file (.text []))]) ]) ])]
  current := ["p"]

theorem isPlain_nestedProject : nestedProject.tree.IsPlain := by
  have hempty := FileTree.isPlain_file (.text [])
  refine FileTree.isPlain_directory (by decide) (List.forall_mem_singleton.mpr ⟨by decide, ?_⟩)
  refine FileTree.isPlain_directory (by decide) (List.forall_mem_singleton.mpr ⟨by decide, ?_⟩)
  refine FileTree.isPlain_directory (by decide) (List.forall_mem_cons.mpr ⟨⟨by decide, hempty⟩, ?_⟩)
  refine List.forall_mem_singleton.mpr ⟨by decide, ?_⟩
  exact FileTree.isPlain_directory (by decide) (List.forall_mem_singleton.mpr ⟨by decide, hempty⟩)

theorem selectFiles_eq_matching_nested :
    ∃ files, selectFiles nestedProject "/p" "src/**/*.tsx" = .ok files ∧ "src/a.tsx" ∈ files := by
  have hglobs : globsOf "src/**/*.tsx" = .ok [⟨"src/**/*.tsx".toList, ['s', 'r', 'c', '/'].map .literal ++
      [.anyDirectories, .anyName] ++ ['.', 't', 's', 'x'].map .literal⟩] := by
    decide
  obtain ⟨files, hfiles, -, hlost, -⟩ :=
    selectFiles_eq_matching "/p" isPlain_nestedProject hglobs (by decide)
  obtain ⟨below, hbelow, hmem⟩ := hlost ["p"] (by decide) (by decide) _ List.mem_cons_self
    ["src", "a.tsx"] (by decide) (by decide)
  refine ⟨files, hfiles, hmem ?_⟩
  have hnames : ["src"] ++ ["a.tsx"] = ["src"] ++ below := hbelow
  obtain rfl := List.append_cancel_left hnames
  unfold Unskipped
  decide

/-- The paths that a relative pattern selects are not always relative: behind the current directory in
front of it a pattern may go on with a slash. -/
theorem selectFiles_not_always_relative :
    ¬ ∀ (w : Workspace) (base pattern : String) (files : List String), w.tree.IsPlain →
      Path.isAbsolute pattern = false → selectFiles w base pattern = .ok files →
        ∀ path ∈ files, ∃ names : Location, (∀ n ∈ names, IsPiece n) ∧ path = "/".intercalate names := by
  intro hrelative
  have hfiles : selectFiles nestedProject "/p" ".//p/src/*.tsx" = .ok ["/p/src/a.tsx"] := by
    decide +kernel
  obtain ⟨names, hnames, hpath⟩ := hrelative _ _ _ _ isPlain_nestedProject (by decide) hfiles _
    List.mem_cons_self
  have hrooted := Path.isAbsolute_intercalate hnames
  rw [← hpath] at hrooted
  revert hrooted
  decide

end Localization
