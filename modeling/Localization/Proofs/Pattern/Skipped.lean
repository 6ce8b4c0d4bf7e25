import Localization.Proofs.Pattern.Removed

/-!
Selected files in directories that are not looked into. The search for files leaves such directories out from
where it begins, but nothing looks at the plain names of a glob that lead there. Main statements:
`Glob.SelectsAt.skips_iff`, `selectFiles_skips_iff`.
-/

namespace Localization

open FileTree (IsEntryName HasNames)
open Workspace (dotless steps)
open Path (partOf IsPiece)

/-- The names of the directories in a path. -/
def Path.directories (path : String) : List String :=
  (steps path).dropLast

/-- The names that every path begins with under which a glob selects a file: those of the directory in which
it looks for files, seen from the root for an absolute pattern and from the base directory otherwise. -/
def Glob.shownNames (g : Glob) (base : String) : List String :=
  if g.text.head? = some '/' then dotless (steps (Path.join base g.startPath))
  else dotless (steps g.startPath)

/-- The plain names of a glob lead through a directory of a skipped name, or to a link of such a name, which is
followed. -/
def Glob.PassesSkipped (g : Glob) (w : Workspace) (base : String) : Prop :=
  (∃ n ∈ (g.shownNames base).dropLast, isSkipped n = true) ∨
    (∃ n, (g.shownNames base).getLast? = some n ∧ isSkipped n = true) ∧
      ∃ target, w.entry? (Path.join base g.startPath) = some (.link target)

/-! ## The names of a selected path -/

theorem Path.IsInside.text_eq_dot_iff {part : Path.Part} (h : Path.IsInside part) :
    part.text = "." ↔ part = .current := by
  constructor
  · intro htext
    by_contra hne
    have hagain := h.again
    rw [htext, if_neg hne] at hagain
    simp [Path.partOf?] at hagain
  · rintro rfl
    rfl

/-- The parts of a path and some names behind them are written with these steps. -/
theorem Path.steps_render (path : String) {below : Location} (h : ∀ n ∈ below, IsEntryName n) :
    steps (render (parts path ++ below.map .name)) = dotless (steps path) ++ below := by
  have hall := isPiece_of_mem_append path h
  rw [parts_eq, filterMap_pieces, ← map_partOf_of_names h, List.append_assoc, ← List.map_append, lead]
  split
  · rw [List.singleton_append, render_absolute hall, steps_absolute hall]
  split
  · have hdot (ps : List Part) : render (.current :: ps) = render ps := rfl
    rw [List.singleton_append, hdot, render_map_partOf hall, Workspace.steps_intercalate hall]
  · rw [List.nil_append, render_map_partOf hall, Workspace.steps_intercalate hall]

theorem lastName_of_getLast? {path name : String} (h : (dotless (steps path)).getLast? = some name)
    (hparent : name ≠ "..") : lastName path = name := by
  have hlast : (Path.parts path).getLast? = some (.name name) := by
    rw [Path.parts_eq, Path.filterMap_pieces, List.getLast?_append, List.getLast?_map, h, Option.map_some,
      Option.some_or, partOf, if_neg hparent]
  rw [lastName, Path.fileName?, hlast]
  rfl

namespace Glob

variable {g : Glob} {w : Workspace} {base path : String} {root below : Location}

theorem dotless_startPath (hrelative : g.text.head? ≠ some '/') :
    dotless (steps g.startPath) = g.rootNames := by
  rw [startPath_eq hrelative, Workspace.steps_intercalate (isPiece_of_mem_rootParts hrelative), rootNames,
    dotless, List.filter_map]
  congr 1
  refine List.filter_congr fun part hpart => ?_
  simp [(isInside_of_mem_rootParts hrelative part hpart).text_eq_dot_iff]

/-- The directory from which the files of a glob are looked for has the last of the shown names. -/
theorem lastName_of_shownNames {name : String} (h : (g.shownNames base).getLast? = some name)
    (hparent : name ≠ "..") : lastName (Path.join base g.startPath) = name := by
  refine lastName_of_getLast? ?_ hparent
  rw [shownNames] at h
  split at h
  · exact h
  · next hrelative =>
      rw [Workspace.steps_join base (isAbsolute_startPath hrelative), dotless, List.filter_append,
        List.getLast?_append, ← dotless, ← dotless, h, Option.some_or]

/-- A selected path has the shown names of the glob and, behind them, those below. -/
theorem SelectsAt.steps_eq (h : g.SelectsAt w base path root below) (hbelow : ∀ n ∈ below, IsEntryName n) :
    steps path = g.shownNames base ++ below := by
  have hcandidate := h.candidate
  by_cases hrooted : g.text.head? = some '/'
  · rw [candidate?, if_pos hrooted] at hcandidate
    rw [shownNames, if_pos hrooted, ← Option.some.inj hcandidate, Path.steps_render _ hbelow]
  · have hnames : ∀ n ∈ g.rootNames ++ below, IsPiece n := by
      rw [← dotless_startPath hrooted]
      exact Path.isPiece_of_mem_append _ hbelow
    rw [candidate?_eq hrooted base fun n hn => (hbelow n hn).toIsPiece] at hcandidate
    rw [shownNames, if_neg hrooted, ← Option.some.inj hcandidate, Workspace.steps_intercalate hnames,
      dotless_startPath hrooted]

/-! ## Skipped directories -/

/-- With no skipped directory among those behind, such a directory is one in front. -/
theorem exists_skipped_iff {names below : Location} (hne : below ≠ [])
    (hinside : ∀ n ∈ below.dropLast, isSkipped n = false) :
    (∃ n ∈ (names ++ below).dropLast, isSkipped n = true) ↔
      (∃ n ∈ names.dropLast, isSkipped n = true) ∨ ∃ n, names.getLast? = some n ∧ isSkipped n = true := by
  have hnone : ¬ ∃ n ∈ below.dropLast, isSkipped n = true := by
    rintro ⟨n, hn, hskips⟩
    rw [hinside n hn] at hskips
    contradiction
  rw [List.dropLast_append_of_ne_nil hne]
  simp only [List.mem_append, or_and_right, exists_or, hnone, or_false]
  rcases List.eq_nil_or_concat names with rfl | ⟨init, last, rfl⟩
  · simp
  · simp [or_and_right, exists_or]

/-- A selected file lies in a skipped directory exactly if the plain names of the glob lead through one. -/
theorem SelectsAt.skips_iff (h : g.SelectsAt w base path root below) (hnames : w.tree.HasNames) :
    (∃ n ∈ Path.directories path, isSkipped n = true) ↔ g.PassesSkipped w base := by
  rw [Path.directories, h.steps_eq (hnames.isEntryName_of_mem h.file), PassesSkipped]
  rcases h.looks with ⟨hlink, hne, hinside⟩ | ⟨hnoLink, hunskipped⟩
  · rw [exists_skipped_iff hne hinside, and_iff_left hlink]
  · have hnoTarget : ¬ ∃ target, w.entry? (Path.join base g.startPath) = some (.link target) :=
      not_exists.mpr hnoLink
    simp only [hnoTarget, and_false, or_false]
    by_cases hne : below = []
    · rw [hne, List.append_nil]
    · obtain ⟨hfirst, hinside⟩ := (Workspace.unskipped_iff hne).mp hunskipped
      rw [exists_skipped_iff hne hinside, or_iff_left]
      -- The search begins at the directory of the last plain name, which has been looked into.
      rintro ⟨n, hlast, hskips⟩
      have hparent : n ≠ ".." := by
        rintro rfl
        exact absurd hskips (by decide)
      rw [lastName_of_shownNames hlast hparent, hskips] at hfirst
      contradiction

end Glob

/-- Of the files that a pattern selects, those lie in a skipped directory that are selected by a glob whose plain
names lead through one. So none lies there exactly if no such glob selects anything. -/
theorem selectFiles_skips_iff {w : Workspace} (base : String) {pattern : String} {globs : List Glob}
    (hnames : w.tree.HasNames) (hglobs : globsOf pattern = .ok globs) :
    ∃ files, selectFiles w base pattern = .ok files ∧
      (∀ path ∈ files, (∃ n ∈ Path.directories path, isSkipped n = true) ↔
        ∃ g ∈ globs, path ∈ g.select w base ∧ g.PassesSkipped w base) ∧
      ((∀ path ∈ files, ∀ n ∈ Path.directories path, isSkipped n = false) ↔
        ∀ g ∈ globs, g.PassesSkipped w base → g.select w base = []) := by
  have hskips {g : Glob} {path : String} (hpath : path ∈ g.select w base) :
      (∃ n ∈ Path.directories path, isSkipped n = true) ↔ g.PassesSkipped w base := by
    obtain ⟨root, below, hat⟩ := (Glob.mem_select_iff_exists hnames).mp hpath
    exact hat.skips_iff hnames
  have hmem {path : String} : path ∈ Text.sortedSet (globs.flatMap fun g => g.select w base) ↔
      ∃ g ∈ globs, path ∈ g.select w base := by
    rw [Text.mem_sortedSet, List.mem_flatMap]
  refine ⟨Text.sortedSet (globs.flatMap fun g => g.select w base), by rw [selectFiles, hglobs]; rfl, ?_, ?_⟩
  · intro path hpath
    constructor
    · intro hskipped
      obtain ⟨g, hg, hselects⟩ := hmem.mp hpath
      exact ⟨g, hg, hselects, (hskips hselects).mp hskipped⟩
    · rintro ⟨g, -, hselects, hpasses⟩
      exact (hskips hselects).mpr hpasses
  · constructor
    · intro hnone g hg hpasses
      refine List.eq_nil_iff_forall_not_mem.mpr fun path hselects => ?_
      obtain ⟨n, hn, hskipped⟩ := (hskips hselects).mpr hpasses
      exact Bool.eq_false_iff.mp (hnone path (hmem.mpr ⟨g, hg, hselects⟩) n hn) hskipped
    · intro hnone path hpath n hn
      obtain ⟨g, hg, hselects⟩ := hmem.mp hpath
      rw [← Bool.not_eq_true]
      intro hskipped
      rw [hnone g hg ((hskips hselects).mp ⟨n, hn, hskipped⟩)] at hselects
      exact absurd hselects List.not_mem_nil

/-- A project with an installed package. -/
def packagedProject : Workspace where
  tree := .directory [("p", .directory [("node_modules", .directory
    [("index.js", .file (.text [])), ("lib", .directory [("index.js", .file (.text []))])])])]
  current := ["p"]

theorem isPlain_packagedProject : packagedProject.tree.IsPlain := by
  have hfile := FileTree.isPlain_file (.text [])
  refine FileTree.isPlain_directory (by decide) (List.forall_mem_singleton.mpr ⟨by decide, ?_⟩)
  refine FileTree.isPlain_directory (by decide) (List.forall_mem_singleton.mpr ⟨by decide, ?_⟩)
  refine FileTree.isPlain_directory (by decide) (List.forall_mem_cons.mpr ⟨⟨by decide, hfile⟩, ?_⟩)
  refine List.forall_mem_singleton.mpr ⟨by decide, ?_⟩
  exact FileTree.isPlain_directory (by decide) (List.forall_mem_singleton.mpr ⟨by decide, hfile⟩)

/-- A skipped directory of the last plain name is not looked into, one in front of it is passed through. -/
theorem selectFiles_skips_packaged :
    (∃ files, selectFiles packagedProject "/p" "node_modules/*.js" = .ok files ∧
      ∀ path ∈ files, ∀ n ∈ Path.directories path, isSkipped n = false) ∧
    ∃ files, selectFiles packagedProject "/p" "node_modules/lib/*.js" = .ok files ∧
      ¬ ∀ path ∈ files, ∀ n ∈ Path.directories path, isSkipped n = false := by
  have hshallow : globsOf "node_modules/*.js" = .ok [⟨"node_modules/*.js".toList,
      "node_modules/".toList.map .literal ++ [.anyName] ++ ".js".toList.map .literal⟩] := by
    decide
  have hdeep : globsOf "node_modules/lib/*.js" = .ok [⟨"node_modules/lib/*.js".toList,
      "node_modules/lib/".toList.map .literal ++ [.anyName] ++ ".js".toList.map .literal⟩] := by
    decide
  have hplain := isPlain_packagedProject
  obtain ⟨files, hfiles, -, hnone⟩ := selectFiles_skips_iff "/p" hplain.hasNames hshallow
  obtain ⟨others, hothers, -, hnone'⟩ := selectFiles_skips_iff "/p" hplain.hasNames hdeep
  refine ⟨⟨files, hfiles, hnone.mpr ?_⟩, others, hothers, mt hnone'.mp ?_⟩
  · rintro g hg -
    rw [List.mem_singleton.mp hg]
    decide +kernel
  · intro hempty
    have hpasses := hempty _ List.mem_cons_self (.inl ⟨"node_modules", by decide +kernel, by decide⟩)
    revert hpasses
    decide +kernel

/-- Selected files can lie in a skipped directory. -/
theorem selectFiles_not_always_avoids_skipped :
    ¬ ∀ (w : Workspace) (base pattern : String) (files : List String), w.tree.HasNames →
      selectFiles w base pattern = .ok files → ∀ path ∈ files, ∀ n ∈ Path.directories path,
        isSkipped n = false := by
  intro hskips
  have hfiles : selectFiles packagedProject "/p" "node_modules/lib/*.js" =
      .ok ["node_modules/lib/index.js"] := by
    decide +kernel
  have hfirst : isSkipped "node_modules" = false := by
    refine hskips _ _ _ _ isPlain_packagedProject.hasNames hfiles _ List.mem_cons_self _ ?_
    decide +kernel
  exact absurd hfirst (by decide)

end Localization
