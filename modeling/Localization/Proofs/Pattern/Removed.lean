import Localization.Proofs.Pattern.Selection
import Localization.Proofs.Tree.Removed
import Mathlib.Data.List.Induction

/-!
Where the selected paths lead. A path is selected for a file that is found below the directory of a glob; seen
from the current directory it leads to this file. In a tree without one of its files the same paths are selected,
apart from those that lead to the file. Main statements: `Glob.place_of_mem_select`, `selectFiles_without`.
-/

namespace Localization

open FileTree (HasNames IsEntryName)

/-! ## Single dots -/

namespace Workspace

variable {tree : FileTree} {source place : Location}

theorem walk_drop_dot {follow : Location → List String → Except FileError Location} {back : List String}
    (hfollow : ∀ base front, follow base (front ++ "." :: back) = .ok place →
      follow base (front ++ back) = .ok place)
    {front : List String} (h : walk tree follow source (front ++ "." :: back) = .ok place) :
    walk tree follow source (front ++ back) = .ok place := by
  induction front generalizing source with
  | nil =>
      rw [List.nil_append] at h ⊢
      generalize hdot : "." = name at h
      rcases walk_cons_eq_ok_iff.mp h with ⟨next, hgoes, hnext⟩ | ⟨base, target, hlinks, -⟩
      · cases hgoes with
        | current => exact hnext
        | parent => simp at hdot
        | inside _ hname => exact absurd hdot.symm hname.not_current
      · exact absurd hdot.symm hlinks.isName.not_current
  | cons first rest ih =>
      rw [List.cons_append, walk_cons_eq_ok_iff] at h ⊢
      rcases h with ⟨next, hgoes, hnext⟩ | ⟨base, target, hlinks, hnext⟩
      · exact .inl ⟨next, hgoes, ih hnext⟩
      · refine .inr ⟨base, target, hlinks, ?_⟩
        rw [← List.append_assoc] at hnext ⊢
        exact hfollow _ _ hnext

theorem resolve_drop_dot {links : Nat} {front back : List String}
    (h : resolve tree links source (front ++ "." :: back) = .ok place) :
    resolve tree links source (front ++ back) = .ok place := by
  induction links generalizing source front with
  | zero =>
      refine walk_drop_dot ?_ h
      intro _ _ hfound
      contradiction
  | succ links ih => exact walk_drop_dot (fun _ _ hfound => ih hfound) h

/-- The steps that matter. -/
def dotless (steps : List String) : List String :=
  steps.filter (· ≠ ".")

theorem resolve_append_dotless {links : Nat} (front : List String) {back : List String}
    (h : resolve tree links source (front ++ back) = .ok place) :
    resolve tree links source (front ++ dotless back) = .ok place := by
  induction back generalizing front with
  | nil => exact h
  | cons name rest ih =>
      by_cases hdot : name = "."
      · subst hdot
        exact ih front (resolve_drop_dot h)
      · have hcons : dotless (name :: rest) = name :: dotless rest := by simp [dotless, hdot]
        rw [List.append_cons] at h
        rw [hcons, List.append_cons]
        exact ih (front ++ [name]) h

theorem resolve_dotless {links : Nat} {all : List String} (h : resolve tree links source all = .ok place) :
    resolve tree links source (dotless all) = .ok place :=
  resolve_append_dotless [] h

theorem dotless_stepsTo (path : String) : dotless (stepsTo path) = dotless (steps path) := by
  rcases stepsTo_eq path with hplain | hslashed
  · rw [hplain]
  · rw [hslashed]
    simp [dotless]

theorem isPiece_of_mem_steps {path name : String} (h : name ∈ steps path) : Path.IsPiece name := by
  obtain ⟨hpiece, hne⟩ := List.mem_filter.mp h
  exact ⟨by simpa using hne, Path.noSlash_of_mem_pieces hpiece⟩

theorem isPiece_of_mem_dotless {path name : String} (h : name ∈ dotless (steps path)) :
    Path.IsPiece name ∧ name ≠ "." := by
  obtain ⟨hsteps, hdot⟩ := List.mem_filter.mp h
  exact ⟨isPiece_of_mem_steps hsteps, by simpa using hdot⟩

end Workspace

/-! ## Paths from the root -/

namespace Path

open Workspace (steps dotless isPiece_of_mem_dotless)

variable {path base start : String} {names : List String}

/-- The part that a name is. -/
def partOf (name : String) : Part :=
  if name = ".." then .parent else .name name

theorem text_partOf (name : String) : (partOf name).text = name := by
  rw [partOf]
  split
  · next hparent => exact hparent.symm
  · rfl

theorem map_text_partOf (names : List String) : (names.map partOf).map Part.text = names := by
  rw [List.map_map]
  exact List.map_id'' text_partOf names

theorem partOf_ne (name : String) : partOf name ≠ .root ∧ partOf name ≠ .current := by
  rw [partOf]
  split
  · exact ⟨nofun, nofun⟩
  · exact ⟨nofun, nofun⟩

theorem partOf?_eq (piece : String) :
    partOf? piece = if piece = "" ∨ piece = "." then none else some (partOf piece) := by
  by_cases hempty : piece = ""
  · simp [partOf?, hempty]
  · by_cases hdot : piece = "."
    · simp [partOf?, hdot]
    · by_cases hparent : piece = ".." <;> simp [partOf?, partOf, hempty, hdot, hparent]

theorem filterMap_pieces (path : String) :
    (pieces path).filterMap partOf? = (dotless (steps path)).map partOf := by
  rw [steps, dotless]
  generalize pieces path = all
  induction all with
  | nil => rfl
  | cons piece rest ih =>
      rw [List.filterMap_cons, partOf?_eq, ih]
      by_cases hempty : piece = ""
      · simp [hempty]
      · by_cases hdot : piece = "."
        · simp [hdot]
        · simp [hempty, hdot]

theorem parts_of_isAbsolute (h : isAbsolute path = true) :
    parts path = .root :: (dotless (steps path)).map partOf := by
  rw [parts_eq, lead, if_pos h, filterMap_pieces, List.singleton_append]

theorem append_slash (out : String) {part : Part} (h : part ≠ .root) :
    render.append ("/" ++ out) part = "/" ++ render.append out part := by
  have hends : (("/" ++ out).isEmpty || ("/" ++ out).toList.getLast? == some '/') =
      (out.isEmpty || out.toList.getLast? == some '/') := by
    by_cases hout : out = ""
    · subst hout
      rfl
    · have hlist : out.toList ≠ [] := mt String.toList_eq_nil_iff.mp hout
      have hempty : out.isEmpty = false := by simp [hout]
      have hempty' : ("/" ++ out).isEmpty = false := by simp
      rw [String.toList_append, List.getLast?_append_of_ne_nil _ hlist, hempty, hempty']
  cases part with
  | root => contradiction
  | current => rfl
  | parent =>
      simp only [render.append, hends]
      split <;> simp only [String.append_assoc]
  | name text =>
      simp only [render.append, hends]
      split <;> simp only [String.append_assoc]

theorem render_root {ps : List Part} (h : ∀ part ∈ ps, part ≠ .root) :
    render (.root :: ps) = "/" ++ render ps := by
  have hall : ∀ out, ps.foldl render.append ("/" ++ out) = "/" ++ ps.foldl render.append out := by
    induction ps with
    | nil => exact fun out => rfl
    | cons part rest ih =>
        intro out
        obtain ⟨hpart, hrest⟩ := List.forall_mem_cons.mp h
        rw [List.foldl_cons, List.foldl_cons, append_slash out hpart]
        exact ih hrest _
  exact hall ""

theorem render_map_partOf (h : ∀ n ∈ names, IsPiece n) : render (names.map partOf) = "/".intercalate names := by
  rw [render_eq_intercalate, List.filter_eq_self.mpr, map_text_partOf]
  · intro part hpart
    obtain ⟨name, -, rfl⟩ := List.mem_map.mp hpart
    simpa using (partOf_ne name).2
  · intro part hpart
    obtain ⟨name, hname, rfl⟩ := List.mem_map.mp hpart
    rw [text_partOf]
    exact ⟨(partOf_ne name).1, h name hname⟩

theorem render_absolute (h : ∀ n ∈ names, IsPiece n) :
    render (.root :: names.map partOf) = "/" ++ "/".intercalate names := by
  rw [render_root, render_map_partOf h]
  intro part hpart
  obtain ⟨name, -, rfl⟩ := List.mem_map.mp hpart
  exact (partOf_ne name).1

theorem steps_absolute (h : ∀ n ∈ names, IsPiece n) : steps ("/" ++ "/".intercalate names) = names := by
  have hsteps := Workspace.steps_append_slash "" ("/".intercalate names)
  rw [String.empty_append] at hsteps
  rw [hsteps, Workspace.steps_intercalate h]
  rfl

theorem eq_append_of_relativeParts? {base rest path : List Part} (h : relativeParts? base path = some rest) :
    path = base ++ rest := by
  induction base generalizing path with
  | nil =>
      rw [relativeParts?] at h
      exact Option.some.inj h
  | cons part base ih =>
      cases path with
      | nil => simp [relativeParts?] at h
      | cons first path =>
          rw [relativeParts?] at h
          split at h
          · next hsame =>
              rw [hsame, ih h]
              rfl
          · contradiction

theorem partOf_injective : Function.Injective partOf := by
  intro a b hab
  rw [← text_partOf a, hab, text_partOf]

theorem isAbsolute_join (h : isAbsolute base = true) (name : String) :
    isAbsolute (join base name) = true := by
  by_cases hname : isAbsolute name = true
  · rw [join, if_pos hname]
    exact hname
  · obtain ⟨between, hjoin, -⟩ := exists_between base (Bool.eq_false_iff.mpr hname)
    have hne : base ≠ "" := by
      rintro rfl
      contradiction
    have hprefix : base.toList <+: (join base name).toList := by
      rw [hjoin, String.append_assoc, String.toList_append]
      exact List.prefix_append _ _
    exact (isAbsolute_of_isPrefix hne hprefix).symm.trans h

theorem map_partOf_of_names {below : Location} (h : ∀ n ∈ below, IsEntryName n) :
    below.map partOf = below.map .name :=
  List.map_congr_left fun n hn => if_neg (h n hn).not_parent

theorem isPiece_of_mem_append (path : String) {below : Location} (h : ∀ n ∈ below, IsEntryName n) :
    ∀ n ∈ dotless (steps path) ++ below, IsPiece n := by
  intro n hn
  rcases List.mem_append.mp hn with hn | hn
  · exact (isPiece_of_mem_dotless hn).1
  · exact (h n hn).toIsPiece

/-- The steps of the path under which something is matched are those of the directory that it was found
below and its names there. -/
theorem steps_candidate? {g : Glob} {below : Location} {found : String} (hbase : isAbsolute base = true)
    (hdots : "." ∉ steps base) (hstart : isAbsolute start = true) (hbelow : ∀ n ∈ below, IsEntryName n)
    (h : g.candidate? (parts base) (parts start ++ below.map .name) = some found) :
    steps (join base found) = dotless (steps start) ++ below := by
  have hall := isPiece_of_mem_append start hbelow
  rw [Glob.candidate?, ← map_partOf_of_names hbelow, parts_of_isAbsolute hstart, List.cons_append, ← List.map_append] at h
  generalize dotless (steps start) ++ below = names at h hall
  split at h
  · rw [render_absolute hall, Option.some.injEq] at h
    subst h
    have hrooted : isAbsolute ("/" ++ "/".intercalate names) = true := by simp [isAbsolute]
    rw [join, if_pos hrooted, steps_absolute hall]
  · obtain ⟨rest, hrest, rfl⟩ := Option.map_eq_some_iff.mp h
    have heq := eq_append_of_relativeParts? hrest
    rw [parts_of_isAbsolute hbase, List.cons_append, List.cons.injEq] at heq
    obtain ⟨front, back, hsplit, hfront, hback⟩ := List.map_eq_append_iff.mp heq.2
    have hfront' : front = steps base := by
      rw [partOf_injective.list_map hfront, dotless, List.filter_eq_self]
      intro n hn
      simpa using fun hdot : n = "." => hdots (hdot ▸ hn)
    have hpieces : ∀ n ∈ back, IsPiece n := fun n hn => hall n (hsplit ▸ List.mem_append_right front hn)
    rw [← hback, render_map_partOf hpieces]
    have hrelative := isAbsolute_intercalate hpieces
    rw [Workspace.steps_join _ hrelative, Workspace.steps_intercalate hpieces, hsplit, hfront']

end Path

/-! ## The current directory -/

namespace Workspace

open Path (IsPiece isAbsolute)

variable {w : Workspace} {path base : String} {place root below : Location} {g : Glob}

theorem join_concat (names : List String) (name : String) :
    String.join ((names ++ [name]).map ("/" ++ ·)) = String.join (names.map ("/" ++ ·)) ++ "/" ++ name := by
  simp [String.join, List.foldl_append, String.append_assoc]

theorem steps_join_names {names : List String} (h : ∀ n ∈ names, IsPiece n) :
    steps (String.join (names.map ("/" ++ ·))) = names := by
  induction names using List.reverseRecOn with
  | nil => rfl
  | append_singleton names name ih =>
      have hname := h name (by simp)
      rw [join_concat, steps_append_slash, ih fun n hn => h n (by simp [hn]),
        steps_of_notMem hname.ne_empty hname.noSlash]

theorem steps_path (h : ∀ n ∈ place, IsPiece n) : steps place.path = place := by
  cases place with
  | nil => rfl
  | cons first rest => exact steps_join_names h

theorem isAbsolute_path (place : Location) : isAbsolute place.path = true := by
  cases place with
  | nil => rfl
  | cons first rest =>
      change isAbsolute (String.join ((first :: rest).map ("/" ++ ·))) = true
      induction rest using List.reverseRecOn with
      | nil => simp [String.join, isAbsolute]
      | append_singleton names name ih =>
          have hne : String.join ((first :: names).map ("/" ++ ·)) ≠ "" := by
            intro hempty
            rw [hempty] at ih
            contradiction
          rw [← List.cons_append, join_concat, ← ih]
          refine (Path.isAbsolute_of_isPrefix hne ?_).symm
          rw [String.append_assoc, String.toList_append]
          exact List.prefix_append _ _

/-! ## Files below a path -/

theorem mem_entryFiles_of_at? (hnames : w.tree.HasNames) {entries : List (String × FileTree)}
    (hroot : w.tree.at? root = some (.directory entries)) :
    below ∈ FileTree.entryFiles isSkipped entries ↔
      w.tree.shapeAt? (root ++ below) = some .file ∧ ∀ n ∈ below.dropLast, isSkipped n = false := by
  have hinside : below ∈ (FileTree.directory entries).filesOutside isSkipped ↔ _ :=
    FileTree.mem_filesOutside (hnames.of_at? hroot)
  rw [FileTree.filesOutside] at hinside
  rw [hinside, FileTree.shapeAt?, FileTree.shapeAt?, FileTree.at?_append, hroot, Option.bind_some]

/-- Whether the files below a path are looked for as far as a place below it. A directory that a link leads
to is looked into in any case. -/
def LooksTo (w : Workspace) (path : String) (below : Location) : Prop :=
  (∃ target, w.entry? path = some (.link target)) ∧ below ≠ [] ∧
      (∀ n ∈ below.dropLast, isSkipped n = false) ∨
    (∀ target, w.entry? path ≠ some (.link target)) ∧ Unskipped path below

theorem unskipped_iff (hne : below ≠ []) : Unskipped path below ↔
    isSkipped (lastName path) = false ∧ ∀ n ∈ below.dropLast, isSkipped n = false := by
  rw [Unskipped, List.dropLast_cons_of_ne_nil hne, List.forall_mem_cons]

theorem ne_nil_of_directory {entries : List (String × FileTree)}
    (hroot : w.tree.at? root = some (.directory entries))
    (hfile : w.tree.shapeAt? (root ++ below) = some .file) : below ≠ [] := by
  rintro rfl
  simp [FileTree.shapeAt?, FileTree.shape, hroot] at hfile

theorem mem_filesBelow_iff (hnames : w.tree.HasNames) : below ∈ w.filesBelow path ↔
    ∃ root, w.locate path = .ok root ∧ w.tree.shapeAt? (root ++ below) = some .file ∧
      w.LooksTo path below := by
  rw [filesBelow]
  cases hentry : w.entry? path with
  | none =>
      simp only [List.not_mem_nil, false_iff]
      rintro ⟨root, hroot, hfile, -⟩
      -- What is found there without following a link is found there at all.
      rcases entry?_of_locate hroot with hsame | ⟨target, hlink⟩
      · rw [FileTree.shapeAt?, FileTree.at?_append, ← hsame, hentry] at hfile
        contradiction
      · rw [hentry] at hlink
        contradiction
  | some t =>
      cases t with
      | file c =>
          obtain ⟨root, hroot, hat⟩ := locate_of_entry? hnames hentry (by simp)
          rw [List.mem_singleton]
          constructor
          · rintro rfl
            refine ⟨root, hroot, ?_, .inr ⟨by simp [hentry], by simp [Unskipped]⟩⟩
            rw [List.append_nil, FileTree.shapeAt?, hat]
            rfl
          · rintro ⟨other, hother, hfile, -⟩
            obtain rfl : root = other := Except.ok.inj (hroot.symm.trans hother)
            by_contra hne
            have hdirectory := FileTree.shapeAt?_of_append hfile hne
            simp [FileTree.shapeAt?, FileTree.shape, hat] at hdirectory
      | directory entries =>
          obtain ⟨root, hroot, hat⟩ := locate_of_entry? hnames hentry (by simp)
          have hlooks (hne : below ≠ []) : w.LooksTo path below ↔
              isSkipped (lastName path) = false ∧ ∀ n ∈ below.dropLast, isSkipped n = false := by
            simp [LooksTo, hentry, unskipped_iff hne]
          dsimp only
          constructor
          · intro h
            split at h
            · simp at h
            · next hskips =>
                obtain ⟨hfile, hinside⟩ := (mem_entryFiles_of_at? hnames hat).mp h
                refine ⟨root, hroot, hfile, (hlooks (ne_nil_of_directory hat hfile)).mpr ⟨?_, hinside⟩⟩
                exact Bool.eq_false_iff.mpr hskips
          · rintro ⟨other, hother, hfile, hlook⟩
            obtain rfl : root = other := Except.ok.inj (hroot.symm.trans hother)
            obtain ⟨hskips, hinside⟩ := (hlooks (ne_nil_of_directory hat hfile)).mp hlook
            rw [if_neg (Bool.eq_false_iff.mp hskips)]
            exact (mem_entryFiles_of_at? hnames hat).mpr ⟨hfile, hinside⟩
      | link target =>
          have hlooks : w.LooksTo path below ↔
              below ≠ [] ∧ ∀ n ∈ below.dropLast, isSkipped n = false := by
            simp [LooksTo, hentry]
          rw [hlooks]
          dsimp only
          constructor
          · intro h
            split at h
            · next entries hfind =>
                obtain ⟨root, hroot, hat⟩ := find?_eq_some_iff.mp hfind
                obtain ⟨hfile, hinside⟩ := (mem_entryFiles_of_at? hnames hat).mp h
                exact ⟨root, hroot, hfile, ne_nil_of_directory hat hfile, hinside⟩
            · simp at h
          · rintro ⟨root, hroot, hfile, hne, hinside⟩
            obtain ⟨entries, hat⟩ :=
              FileTree.shapeAt?_eq_directory.mp (FileTree.shapeAt?_of_append hfile hne)
            rw [find?_eq_some_iff.mpr ⟨root, hroot, hat⟩]
            exact (mem_entryFiles_of_at? hnames hat).mpr ⟨hfile, hinside⟩

end Workspace

/-! ## Selected paths -/

open Workspace (dotless steps)

variable {w : Workspace} {path : String} {place : Location} {g : Glob}

/-- A glob selects the file in a place under a path. -/
structure Glob.SelectsAt (g : Glob) (w : Workspace) (base path : String) (root below : Location) : Prop where
  located : w.locate (Path.join base g.startPath) = .ok root
  file : w.tree.shapeAt? (root ++ below) = some .file
  looks : w.LooksTo (Path.join base g.startPath) below
  candidate : g.candidate? (Path.parts base)
    (Path.parts (Path.join base g.startPath) ++ below.map .name) = some path
  accepts : g.accepts path = true

theorem Glob.mem_select_iff_exists (hnames : w.tree.HasNames) {base : String} :
    path ∈ g.select w base ↔ ∃ root below, g.SelectsAt w base path root below := by
  rw [Glob.select]
  constructor
  · intro h
    split at h
    · obtain ⟨hmem, haccepts⟩ := List.mem_filter.mp h
      obtain ⟨below, hbelow, hpath⟩ := List.mem_filterMap.mp hmem
      obtain ⟨root, hroot, hfile, hlooks⟩ := (Workspace.mem_filesBelow_iff hnames).mp hbelow
      exact ⟨root, below, hroot, hfile, hlooks, hpath, haccepts⟩
    · simp at h
  · rintro ⟨root, below, hroot, hfile, hlooks, hpath, haccepts⟩
    have hthere : ∃ s, w.tree.shapeAt? root = some s := by
      by_cases hne : below = []
      · exact ⟨.file, by simpa [hne] using hfile⟩
      · exact ⟨.directory, FileTree.shapeAt?_of_append hfile hne⟩
    obtain ⟨s, hs⟩ := hthere
    rw [if_pos (Workspace.exists_iff.mpr ⟨root, s, hroot, hs⟩)]
    refine List.mem_filter.mpr ⟨List.mem_filterMap.mpr ⟨below, ?_, hpath⟩, haccepts⟩
    exact (Workspace.mem_filesBelow_iff hnames).mpr ⟨root, hroot, hfile, hlooks⟩

/-- Seen from the current directory, a selected path that leads somewhere leads to its file. -/
theorem Glob.SelectsAt.place_eq {root below : Location} (h : g.SelectsAt w w.currentPath path root below)
    (hnames : w.tree.HasNames) (hcurrent : w.tree.shapeAt? w.current = some .directory)
    (hplace : w.locate (Path.join w.currentPath path) = .ok place) : place = root ++ below := by
  have hentries := hnames.isEntryName_of_shapeAt? hcurrent
  have hpieces : ∀ n ∈ w.current, Path.IsPiece n := fun n hn => (hentries n hn).toIsPiece
  have hsteps : steps w.currentPath = w.current := Workspace.steps_path hpieces
  have hbase : Path.isAbsolute w.currentPath = true := Workspace.isAbsolute_path w.current
  have hdots : "." ∉ steps w.currentPath := by
    rw [hsteps]
    exact fun hdot => (hentries "." hdot).not_current rfl
  have hstart := Path.isAbsolute_join hbase g.startPath
  have hroot : ∀ other, Path.isAbsolute other = true → w.start other = [] :=
    fun other hother => if_pos hother
  -- The way to the directory of the glob, and on by the names of the file.
  have hfound : Workspace.resolve w.tree Workspace.linkLimit []
      (dotless (steps (Path.join w.currentPath g.startPath)) ++ below) = .ok (root ++ below) := by
    obtain ⟨-, hlocated⟩ := Workspace.locate_eq_ok_iff.mp h.located
    rw [hroot _ hstart] at hlocated
    have hway : Workspace.resolve w.tree Workspace.linkLimit []
        (dotless (Workspace.stepsTo (Path.join w.currentPath g.startPath))) = .ok root :=
      Workspace.resolve_dotless hlocated
    rw [Workspace.dotless_stepsTo] at hway
    exact Workspace.resolve_append hnames hway h.file nofun
  have hbelow := hnames.isEntryName_of_mem h.file
  obtain ⟨-, hplace⟩ := Workspace.locate_eq_ok_iff.mp hplace
  rw [hroot _ (Path.isAbsolute_join hbase path)] at hplace
  rcases Workspace.stepsTo_eq (Path.join w.currentPath path) with hplain | hslashed
  · rw [hplain, Path.steps_candidate? hbase hdots hstart hbelow h.candidate, hfound] at hplace
    exact (Except.ok.inj hplace).symm
  · rw [hslashed, Path.steps_candidate? hbase hdots hstart hbelow h.candidate] at hplace
    obtain ⟨above, habove, hends⟩ := Workspace.exists_above_of_resolve hplace
    rw [hfound] at habove
    have hdirectory := hends.directory
    rw [← Except.ok.inj habove, h.file, Option.some.injEq] at hdirectory
    exact absurd hdirectory nofun

end Localization

/-! ## A tree without a file -/

namespace Localization

open Workspace (stepsTo)

variable {w less : Workspace} {gone root below : Location} {path base : String} {g : Glob}

theorem Workspace.Without.entry?_eq_link_iff (h : w.Without less gone) {target : String} :
    less.entry? path = some (.link target) ↔ w.entry? path = some (.link target) := by
  have hlink : ∀ place, less.tree.at? place = some (.link target) ↔ w.tree.at? place = some (.link target) := by
    intro place
    rw [← FileTree.shapeAt?_eq_link, ← FileTree.shapeAt?_eq_link]
    exact ⟨h.tree.growsTo place _, h.tree.link⟩
  rw [Workspace.entry?_eq_some_iff, Workspace.entry?_eq_some_iff]
  constructor
  · rintro (⟨place, hplace, hat, hlast⟩ | ⟨name, above, hchecked, hlast, hname, habove, hat⟩)
    · exact .inl ⟨place, (h.locate_iff.mp hplace).1, (hlink place).mp hat, hlast⟩
    · refine .inr ⟨name, above, hchecked, hlast, hname, ?_, (hlink _).mp hat⟩
      rw [h.start_eq] at habove
      exact Workspace.resolve_of_growsTo h.tree.growsTo habove
  · rintro (⟨place, hplace, hat, hlast⟩ | ⟨name, above, hchecked, hlast, hname, habove, hat⟩)
    · have hne := h.tree.ne_of_link (FileTree.shapeAt?_eq_link.mpr hat)
      exact .inl ⟨place, h.locate_iff.mpr ⟨hplace, hne⟩, (hlink place).mpr hat, hlast⟩
    · have hdirectory := FileTree.shapeAt?_of_append (FileTree.shapeAt?_eq_link.mpr hat)
        (List.cons_ne_nil name [])
      exact .inr ⟨name, above, hchecked, hlast, hname,
        h.resolve habove (h.tree.ne_of_directory hdirectory), (hlink _).mpr hat⟩

theorem Workspace.Without.looksTo_iff (h : w.Without less gone) :
    less.LooksTo path below ↔ w.LooksTo path below := by
  simp only [Workspace.LooksTo, ne_eq, h.entry?_eq_link_iff]

/-- A glob selects the same files, apart from the one that is not there. -/
theorem Glob.selectsAt_without (h : w.Without less gone) :
    g.SelectsAt less base path root below ↔ g.SelectsAt w base path root below ∧ root ++ below ≠ gone := by
  constructor
  · rintro ⟨hroot, hfile, hlooks, hcandidate, haccepts⟩
    have hne : root ++ below ≠ gone := by
      intro heq
      rw [heq, h.tree.notThere] at hfile
      exact Option.some_ne_none _ hfile.symm
    exact ⟨⟨(h.locate_iff.mp hroot).1, (h.tree.shapes _ hne).symm.trans hfile, h.looksTo_iff.mp hlooks,
      hcandidate, haccepts⟩, hne⟩
  · rintro ⟨⟨hroot, hfile, hlooks, hcandidate, haccepts⟩, hne⟩
    have hrootNe : root ≠ gone := by
      intro heq
      by_cases hbelow : below = []
      · exact hne (by rw [hbelow, List.append_nil, heq])
      · exact h.tree.ne_of_directory (FileTree.shapeAt?_of_append hfile hbelow) heq
    exact ⟨h.locate_iff.mpr ⟨hroot, hrootNe⟩, (h.tree.shapes _ hne).trans hfile, h.looksTo_iff.mpr hlooks,
      hcandidate, haccepts⟩

/-- Whether a path, seen from the current directory, does not lead to a place. -/
def Workspace.avoids (w : Workspace) (gone : Location) (path : String) : Bool :=
  w.locate (Path.join w.currentPath path) ≠ .ok gone

theorem Workspace.avoids_iff :
    w.avoids gone path = true ↔ w.locate (Path.join w.currentPath path) ≠ .ok gone :=
  decide_eq_true_iff

/-- Of the selected paths, which all lead somewhere, those remain that do not lead to the file. -/
theorem selectFiles_without (h : w.Without less gone) (hnames : w.tree.HasNames)
    (hless : less.tree.HasNames) (hcurrent : w.tree.shapeAt? w.current = some .directory)
    {pattern : String} {paths : List String} (hpaths : selectFiles w w.currentPath pattern = .ok paths)
    (hlead : ∀ path ∈ paths, ∃ place, w.locate (Path.join w.currentPath path) = .ok place) :
    selectFiles less w.currentPath pattern = .ok (paths.filter (w.avoids gone)) := by
  rw [selectFiles] at hpaths ⊢
  cases hglobs : globsOf pattern with
  | error f => simp [hglobs, bind, Except.bind] at hpaths
  | ok globs =>
      simp only [hglobs, bind, Except.bind, Except.ok.injEq] at hpaths ⊢
      have hmem : ∀ path, path ∈ paths ↔ ∃ g ∈ globs, ∃ root below,
          g.SelectsAt w w.currentPath path root below := by
        intro path
        rw [← hpaths, Text.mem_sortedSet, List.mem_flatMap]
        exact exists_congr fun g => and_congr_right fun _ => Glob.mem_select_iff_exists hnames
      have hsorted : paths.Pairwise (· < ·) := hpaths ▸ Text.pairwise_sortedSet _
      have hstrict : ∀ {l : List String}, l.Pairwise (· < ·) → l.Nodup :=
        fun hl => hl.imp fun hlt => ne_of_lt hlt
      have hfiltered := hsorted.filter (w.avoids gone)
      refine List.Perm.eq_of_pairwise (fun a b _ _ hab hba => absurd (lt_trans hab hba) (lt_irrefl a))
        (Text.pairwise_sortedSet _) hfiltered ?_
      refine (List.perm_ext_iff_of_nodup (hstrict (Text.pairwise_sortedSet _)) (hstrict hfiltered)).mpr ?_
      intro path
      rw [Text.mem_sortedSet, List.mem_flatMap, List.mem_filter, hmem, Workspace.avoids_iff]
      constructor
      · rintro ⟨g, hg, hselect⟩
        obtain ⟨root, below, hat⟩ := (Glob.mem_select_iff_exists hless).mp hselect
        obtain ⟨hat, hne⟩ := (Glob.selectsAt_without h).mp hat
        have hall : ∃ g ∈ globs, ∃ root below, g.SelectsAt w w.currentPath path root below :=
          ⟨g, hg, root, below, hat⟩
        refine ⟨hall, fun hgone => hne ?_⟩
        exact (hat.place_eq hnames hcurrent hgone).symm
      · rintro ⟨⟨g, hg, root, below, hat⟩, hne⟩
        obtain ⟨place, hplace⟩ := hlead path ((hmem path).mpr ⟨g, hg, root, below, hat⟩)
        have hsame := hat.place_eq hnames hcurrent hplace
        refine ⟨g, hg, (Glob.mem_select_iff_exists hless).mpr ⟨root, below, ?_⟩⟩
        refine (Glob.selectsAt_without h).mpr ⟨hat, fun heq => hne ?_⟩
        rw [hplace, hsame, heq]

end Localization
