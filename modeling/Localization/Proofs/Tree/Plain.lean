import Localization.Proofs.OrderedMap
import Localization.Proofs.Tree.Path
import Localization.Proofs.Tree.Saved

/-!
Trees as file systems have them, and such trees without links. The files below a directory are the places
of files that are reached without entering a skipped directory. Without links a path leads to the place that
its steps spell.
-/

namespace Localization

namespace FileTree

variable {t : FileTree} {place : Location} {name : String}

/-- What a name in a directory is on a file system. -/
structure IsEntryName (name : String) : Prop extends Path.IsPiece name, Workspace.IsName name where
  noZero : '\x00' ∉ name.toList

/-- A tree as file systems have it, without links: every directory has each name once. -/
structure IsPlain (t : FileTree) : Prop where
  noLinks : ∀ place target, t.shapeAt? place ≠ some (.link target)
  entryNames : ∀ place name s, t.shapeAt? (place ++ [name]) = some s → IsEntryName name
  unique : ∀ place entries, t.at? place = some (.directory entries) → (entries.map Prod.fst).Nodup

/-- A tree as file systems have it, perhaps with links. -/
structure HasNames (t : FileTree) : Prop where
  entryNames : ∀ place name s, t.shapeAt? (place ++ [name]) = some s → IsEntryName name
  unique : ∀ place entries, t.at? place = some (.directory entries) → (entries.map Prod.fst).Nodup

theorem IsPlain.hasNames (h : t.IsPlain) : t.HasNames :=
  ⟨h.entryNames, h.unique⟩

/-- What stands at a place of a tree has names as the tree has. -/
theorem HasNames.of_at? {u : FileTree} (h : t.HasNames) (hu : t.at? place = some u) : u.HasNames := by
  have hat : ∀ q, t.at? (place ++ q) = u.at? q := by
    intro q
    rw [at?_append, hu, Option.bind_some]
  refine ⟨fun q n s hs => ?_, fun q entries hentries => ?_⟩
  · refine h.entryNames (place ++ q) n s ?_
    rw [List.append_assoc, shapeAt?, hat]
    exact hs
  · exact h.unique (place ++ q) entries ((hat q).trans hentries)

/-- What stands at a place of a plain tree is plain. -/
theorem IsPlain.of_at? {u : FileTree} (h : t.IsPlain) (hu : t.at? place = some u) : u.IsPlain := by
  have hnames := h.hasNames.of_at? hu
  refine ⟨fun q target => ?_, hnames.entryNames, hnames.unique⟩
  have hlink := h.noLinks (place ++ q) target
  rwa [shapeAt?, at?_append, hu, Option.bind_some] at hlink

instance : DecidablePred IsEntryName := fun name =>
  decidable_of_iff (name ≠ "" ∧ '/' ∉ name.toList ∧ name ≠ "." ∧ name ≠ ".." ∧
      name.utf8ByteSize ≤ Workspace.nameLimit ∧ '\x00' ∉ name.toList)
    ⟨fun ⟨hempty, hslash, hcurrent, hparent, hfits, hzero⟩ =>
        ⟨⟨hempty, hslash⟩, ⟨hcurrent, hparent, hfits⟩, hzero⟩,
      fun h => ⟨h.ne_empty, h.noSlash, h.not_current, h.not_parent, h.fits, h.noZero⟩⟩

variable {skips : String → Bool}

theorem shapeAt?_cons {entries : List (String × FileTree)} (rest : Location) :
    (directory entries).shapeAt? (name :: rest) = (entries.lookup name).bind (·.shapeAt? rest) := by
  simp only [shapeAt?, at?_cons]
  cases entries.lookup name <;> rfl

theorem isPlain_file (c : Contents) : IsPlain (.file c) where
  noLinks place target := by cases place <;> simp [shapeAt?, shape, at?_cons]
  entryNames place name s hs := by cases place <;> simp [shapeAt?, at?_cons] at hs
  unique place entries h := by cases place <;> simp [at?_cons] at h

/-- A directory is plain if all that stands in it is. -/
theorem isPlain_directory {entries : List (String × FileTree)} (hunique : (entries.map Prod.fst).Nodup)
    (h : ∀ e ∈ entries, IsEntryName e.1 ∧ e.2.IsPlain) : IsPlain (.directory entries) := by
  have hinner : ∀ name t, entries.lookup name = some t → IsEntryName name ∧ t.IsPlain :=
    fun name t ht => h (name, t) ((OrderedMap.lookup_eq_some_iff_mem hunique).mp ht)
  refine ⟨fun place target hs => ?_, fun place name s hs => ?_, fun place found hfound => ?_⟩
  · cases place with
    | nil => simp [shapeAt?, shape] at hs
    | cons name rest =>
        rw [shapeAt?_cons] at hs
        obtain ⟨t, ht, hs⟩ := Option.bind_eq_some_iff.mp hs
        exact (hinner name t ht).2.noLinks rest target hs
  · cases place with
    | nil =>
        rw [List.nil_append, shapeAt?_cons] at hs
        obtain ⟨t, ht, -⟩ := Option.bind_eq_some_iff.mp hs
        exact (hinner name t ht).1
    | cons first rest =>
        rw [List.cons_append, shapeAt?_cons] at hs
        obtain ⟨t, ht, hs⟩ := Option.bind_eq_some_iff.mp hs
        exact (hinner first t ht).2.entryNames rest name s hs
  · cases place with
    | nil =>
        obtain rfl : entries = found := by simpa using hfound
        exact hunique
    | cons name rest =>
        rw [at?_cons] at hfound
        obtain ⟨t, ht, hat⟩ := Option.bind_eq_some_iff.mp hfound
        exact (hinner name t ht).2.unique rest found hat

/-- Of the names on the way to a file all but the last one are those of directories. -/
theorem skips_cons_iff {rest : Location} (h : t.shapeAt? rest = some .file) :
    (∀ n ∈ (name :: rest).dropLast, skips n = false) ↔
      (t.isDirectory && skips name) = false ∧ ∀ n ∈ rest.dropLast, skips n = false := by
  cases rest with
  | nil =>
      cases t with
      | file c => simp [isDirectory]
      | link target => simp [shapeAt?, shape] at h
      | directory entries => simp [shapeAt?, shape] at h
  | cons second rest =>
      have hdirectory : t.shapeAt? [] = some .directory :=
        shapeAt?_of_append h (List.cons_ne_nil second rest)
      cases t with
      | file c => simp [shapeAt?, shape] at hdirectory
      | link target => simp [shapeAt?, shape] at hdirectory
      | directory entries => simp [isDirectory]

mutual

/-- The files that are reached without entering a skipped directory. -/
theorem mem_filesOutside : ∀ {t : FileTree} {place : Location}, t.HasNames →
    (place ∈ t.filesOutside skips ↔
      t.shapeAt? place = some .file ∧ ∀ name ∈ place.dropLast, skips name = false)
  | .file c, place, h => by
      cases place with
      | nil => simp [filesOutside, shapeAt?, shape]
      | cons name rest => simp [filesOutside, shapeAt?, at?_cons]
  | .link target, place, h => by
      cases place with
      | nil => simp [filesOutside, shapeAt?, shape]
      | cons name rest => simp [filesOutside, shapeAt?, at?_cons]
  | .directory entries, place, h => by
      have hunique := h.unique [] entries (at?_nil _)
      have hinner : ∀ name t, (name, t) ∈ entries → t.HasNames := by
        intro name t ht
        rw [← OrderedMap.lookup_eq_some_iff_mem hunique] at ht
        exact h.of_at? ((at?_snoc_of_directory (at?_nil _) name).trans ht)
      rw [filesOutside, mem_entryFiles hunique hinner]
      constructor
      · rintro ⟨name, t, rest, rfl, hmem, hname, hfile, hrest⟩
        rw [shapeAt?_cons, (OrderedMap.lookup_eq_some_iff_mem hunique).mpr hmem]
        exact ⟨hfile, (skips_cons_iff hfile).mpr ⟨hname, hrest⟩⟩
      · rintro ⟨hfile, hskips⟩
        cases place with
        | nil => simp [shapeAt?, shape] at hfile
        | cons name rest =>
            rw [shapeAt?_cons] at hfile
            obtain ⟨t, ht, hfile⟩ := Option.bind_eq_some_iff.mp hfile
            obtain ⟨hname, hrest⟩ := (skips_cons_iff hfile).mp hskips
            exact ⟨name, t, rest, rfl, (OrderedMap.lookup_eq_some_iff_mem hunique).mp ht, hname, hfile, hrest⟩

theorem mem_entryFiles : ∀ {entries : List (String × FileTree)} {place : Location},
    (entries.map Prod.fst).Nodup → (∀ name t, (name, t) ∈ entries → t.HasNames) →
    (place ∈ entryFiles skips entries ↔ ∃ name t rest, place = name :: rest ∧ (name, t) ∈ entries ∧
      (t.isDirectory && skips name) = false ∧ t.shapeAt? rest = some .file ∧
        ∀ name ∈ rest.dropLast, skips name = false)
  | [], place, _, _ => by simp [entryFiles]
  | (first, inner) :: entries, place, hunique, hnames => by
      rw [List.map_cons, List.nodup_cons] at hunique
      have hinner (place : Location) : place ∈ inner.filesOutside skips ↔
          inner.shapeAt? place = some .file ∧ ∀ name ∈ place.dropLast, skips name = false :=
        mem_filesOutside (hnames first inner List.mem_cons_self)
      rw [entryFiles, List.mem_append, mem_entryFiles hunique.2 fun n u hu =>
        hnames n u (List.mem_cons_of_mem _ hu)]
      constructor
      · rintro (hfirst | ⟨name, t, rest, rfl, hmem, hname, hfile, hrest⟩)
        · split at hfirst
          · simp at hfirst
          · next hname =>
              obtain ⟨rest, hrest, rfl⟩ := List.mem_map.mp hfirst
              obtain ⟨hfile, hskips⟩ := (hinner rest).mp hrest
              exact ⟨first, inner, rest, rfl, List.mem_cons_self, by simpa using hname, hfile, hskips⟩
        · exact ⟨name, t, rest, rfl, List.mem_cons_of_mem _ hmem, hname, hfile, hrest⟩
      · rintro ⟨name, t, rest, rfl, hmem, hname, hfile, hrest⟩
        rcases List.mem_cons.mp hmem with heq | hmem
        · obtain ⟨rfl, rfl⟩ := Prod.mk.inj heq
          refine .inl ?_
          rw [hname, if_neg Bool.false_ne_true]
          exact List.mem_map_of_mem ((hinner rest).mpr ⟨hfile, hrest⟩)
        · exact .inr ⟨name, t, rest, rfl, hmem, hname, hfile, hrest⟩

end

theorem HasNames.isEntryName_of_mem {below : Location} {s : Shape} (h : t.HasNames)
    (hbelow : t.shapeAt? (place ++ below) = some s) : ∀ n ∈ below, IsEntryName n := by
  intro n hn
  obtain ⟨before, behind, rfl⟩ := List.append_of_mem hn
  have hsplit : place ++ (before ++ n :: behind) = place ++ before ++ [n] ++ behind := by simp
  rw [hsplit] at hbelow
  by_cases hbehind : behind = []
  · rw [hbehind, List.append_nil] at hbelow
    exact h.entryNames _ n s hbelow
  · exact h.entryNames _ n _ (shapeAt?_of_append hbelow hbehind)

theorem HasNames.isEntryName_of_shapeAt? {s : Shape} (h : t.HasNames) (hplace : t.shapeAt? place = some s) :
    ∀ n ∈ place, IsEntryName n := by
  rw [← List.nil_append place] at hplace
  exact h.isEntryName_of_mem hplace

end FileTree

namespace Workspace

variable {w : Workspace} {path name : String} {place above : Location}

/-- There is only one way to go on in a plain tree. -/
theorem Ends.goes {tree : FileTree} (hplain : tree.IsPlain) (h : Ends tree above name place) :
    Goes tree above name place := by
  rcases h with hgoes | ⟨base, target, hlinks⟩
  · exact hgoes
  · exact absurd hlinks.link (hplain.noLinks _ target)

theorem find?_eq_some_iff {t : FileTree} : w.find? path = some t ↔
    ∃ place, w.locate path = .ok place ∧ w.tree.at? place = some t := by
  rw [find?]
  cases w.locate path with
  | error e => simp [Except.toOption]
  | ok place => simp [Except.toOption]

/-- What a path shows stands where the path leads to or, if it ends with a name, in the directory that the
steps in front of the name lead to. -/
theorem entry?_eq_some_iff {t : FileTree} : w.entry? path = some t ↔
    (∃ place, w.locate path = .ok place ∧ w.tree.at? place = some t ∧
      ∀ name, (stepsTo path).getLast? = some name → name = "." ∨ name = "..") ∨
    ∃ name above, checked path = .ok () ∧ (stepsTo path).getLast? = some name ∧
      ¬ (name = "." ∨ name = "..") ∧
      resolve w.tree linkLimit (w.start path) (stepsTo path).dropLast = .ok above ∧
      w.tree.at? (above ++ [name]) = some t := by
  rw [ entry?]
  cases hchecked : checked path with
  | error e => simp [Except.toOption, locate, hchecked, bind, Except.bind]
  | ok u =>
      simp only [Except.toOption, Option.bind_eq_bind, Option.bind_some]
      cases (stepsTo path).getLast? with
      | none => simp [find?_eq_some_iff]
      | some name =>
          dsimp only
          split
          · next hdots =>
              rw [find?_eq_some_iff]
              refine (or_iff_left ?_).symm.trans (or_congr_left ?_)
              · rintro ⟨other, above, -, hother, hnot, -⟩
                exact hnot (Option.some.inj hother ▸ hdots)
              · simp [hdots]
          · next hname =>
              cases resolve w.tree linkLimit (w.start path) (stepsTo path).dropLast with
              | error e => simp [hname]
              | ok above => simpa [hname] using fun _ => not_or.mp hname

/-- What a path shows stands somewhere. -/
theorem exists_at?_of_entry? {t : FileTree} (h : w.entry? path = some t) :
    ∃ place, w.tree.at? place = some t := by
  rcases entry?_eq_some_iff.mp h with ⟨place, -, hat, -⟩ | ⟨name, above, -, -, -, -, hat⟩
  · exact ⟨place, hat⟩
  · exact ⟨_, hat⟩

/-- A path leads to what it shows, unless that is a link. -/
theorem locate_of_entry? (hnames : w.tree.HasNames) {t : FileTree} (h : w.entry? path = some t)
    (hlink : ∀ target, t ≠ .link target) :
    ∃ place, w.locate path = .ok place ∧ w.tree.at? place = some t := by
  rcases entry?_eq_some_iff.mp h with
    ⟨place, hplace, hat, -⟩ | ⟨name, above, hchecked, hlast, -, habove, hat⟩
  · exact ⟨place, hplace, hat⟩
  · have hshape : w.tree.shapeAt? (above ++ [name]) = some t.shape := by
      rw [FileTree.shapeAt?, hat, Option.map_some]
    have hdirectory := FileTree.shapeAt?_of_append hshape (List.cons_ne_nil name [])
    have hnotLink : ∀ target, t.shape ≠ .link target := by
      rintro target hshape
      cases t with
      | file c => contradiction
      | link other => exact hlink other rfl
      | directory entries => contradiction
    have hgoes : Goes w.tree above name (above ++ [name]) :=
      .inside hdirectory (hnames.entryNames above name _ hshape).toIsName hshape hnotLink
    refine ⟨above ++ [name], locate_eq_ok_iff.mpr ⟨hchecked, ?_⟩, hat⟩
    rw [← List.dropLast_append_getLast? _ hlast]
    exact resolve_snoc hgoes habove

/-- A path shows what stands at the place that it leads to, or a link. -/
theorem entry?_of_locate (h : w.locate path = .ok place) :
    w.entry? path = w.tree.at? place ∨ ∃ target, w.entry? path = some (.link target) := by
  obtain ⟨hchecked, hresolve⟩ := locate_eq_ok_iff.mp h
  have hfind : w.find? path = w.tree.at? place := by simp [find?, h, Except.toOption]
  rw [ entry?, hchecked]
  simp only [Except.toOption, Option.bind_eq_bind, Option.bind_some]
  rcases List.eq_nil_or_concat (stepsTo path) with hnil | ⟨init, name, hsteps⟩
  · rw [hnil]
    exact .inl hfind
  · rw [List.concat_eq_append] at hsteps
    rw [hsteps] at hresolve ⊢
    obtain ⟨above, habove, hends⟩ := exists_above_of_resolve hresolve
    rw [List.getLast?_concat, List.dropLast_concat]
    simp only [habove, hfind, Option.bind_some]
    rcases hends with hgoes | ⟨base, target, hlinks⟩
    · cases hgoes with
      | current => simp
      | parent => simp
      | inside _ hname => simp [hname.not_current, hname.not_parent]
    · have hname := hlinks.isName
      rw [if_neg (not_or.mpr ⟨hname.not_current, hname.not_parent⟩)]
      exact .inr ⟨target, FileTree.shapeAt?_eq_link.mp hlinks.link⟩

theorem entry?_eq_at? (hplain : w.tree.IsPlain) (h : w.locate path = .ok place) :
    w.entry? path = w.tree.at? place := by
  rcases entry?_of_locate h with hentry | ⟨target, hentry⟩
  · exact hentry
  · obtain ⟨other, hother⟩ := exists_at?_of_entry? hentry
    exact absurd (FileTree.shapeAt?_eq_link.mpr hother) (hplain.noLinks other target)

/-- A path to a directory, followed by names that lead on in the tree. -/
theorem resolve_append {tree : FileTree} {links : Nat} {source : Location} {steps names : List String}
    {s : FileTree.Shape} (hall : tree.HasNames)
    (h : resolve tree links source steps = .ok place)
    (hnames : tree.shapeAt? (place ++ names) = some s) (hlink : ∀ target, s ≠ .link target) :
    resolve tree links source (steps ++ names) = .ok (place ++ names) := by
  induction names generalizing place steps with
  | nil => simpa using h
  | cons name rest ih =>
      have hdirectory := FileTree.shapeAt?_of_append hnames (List.cons_ne_nil name rest)
      have hinside : ∃ s, tree.shapeAt? (place ++ [name]) = some s ∧ ∀ target, s ≠ .link target := by
        cases rest with
        | nil => exact ⟨s, hnames, hlink⟩
        | cons second rest =>
            have hrest : tree.shapeAt? (place ++ [name] ++ second :: rest) = some s := by
              simpa using hnames
            exact ⟨.directory, FileTree.shapeAt?_of_append hrest (List.cons_ne_nil second rest), nofun⟩
      obtain ⟨s', hs', hlink'⟩ := hinside
      have hgoes : Goes tree place name (place ++ [name]) :=
        .inside hdirectory (hall.entryNames place name s' hs').toIsName hs' hlink'
      have hstep := ih (resolve_snoc hgoes h) (by simpa using hnames)
      simpa using hstep

/-- The place of something below a directory, by the path of the directory and the names below. -/
theorem locate_join (hplain : w.tree.IsPlain) (h : w.locate path = .ok place)
    (hdirectory : w.tree.shapeAt? place = some .directory) {names : Location} {s : FileTree.Shape}
    (hnames : w.tree.shapeAt? (place ++ names) = some s) :
    w.locate (Path.join path ("/".intercalate names)) = .ok (place ++ names) := by
  have hentry := hplain.hasNames.isEntryName_of_mem hnames
  have hpiece : ∀ n ∈ names, Path.IsPiece n := fun n hn => (hentry n hn).toIsPiece
  have hrelative := Path.isAbsolute_intercalate hpiece
  obtain ⟨hchecked, hresolve⟩ := locate_eq_ok_iff.mp h
  have hpath : path ≠ "" := by
    rintro rfl
    simp [checked] at hchecked
  obtain ⟨between, hjoin, hbetween⟩ := Path.exists_between path hrelative
  -- A slash behind the path adds a step that stays at the directory.
  have hplace : resolve w.tree linkLimit (w.start path) (steps path) = .ok place := by
    rcases stepsTo_eq path with hsteps | hsteps
    · exact hsteps ▸ hresolve
    · rw [hsteps] at hresolve
      obtain ⟨above, habove, hends⟩ := exists_above_of_resolve hresolve
      have hgoes := hends.goes hplain
      generalize hdot : "." = name at hgoes
      cases hgoes with
      | current => exact habove
      | parent => simp at hdot
      | inside _ hname => exact absurd hdot.symm hname.not_current
  have hall : resolve w.tree linkLimit (w.start path) (steps (Path.join path ("/".intercalate names))) =
      .ok (place ++ names) := by
    rw [steps_join path hrelative, steps_intercalate hpiece]
    refine resolve_append hplain.hasNames hplace hnames ?_
    rintro target rfl
    exact hplain.noLinks _ target hnames
  have hstart : w.start (Path.join path ("/".intercalate names)) = w.start path := by
    have hprefix : path.toList <+: (Path.join path ("/".intercalate names)).toList := by
      rw [hjoin, String.append_assoc, String.toList_append]
      exact List.prefix_append _ _
    rw [start, start, Path.isAbsolute_of_isPrefix hpath hprefix]
  have hzero : '\x00' ∉ (Path.join path ("/".intercalate names)).toList := by
    intro hmem
    rw [hjoin, String.toList_append, String.toList_append, List.mem_append, List.mem_append] at hmem
    rcases hmem with (hmem | hmem) | hmem
    · simp [checked, hmem] at hchecked
    · rcases hbetween with rfl | rfl <;> simp at hmem
    · rcases Path.mem_toList_intercalate hmem with hslash | ⟨n, hn, hmem⟩
      · simp at hslash
      · exact (hentry n hn).noZero hmem
  refine locate_eq_ok_iff.mpr ⟨?_, ?_⟩
  · have hne : Path.join path ("/".intercalate names) ≠ "" := by
      rw [hjoin]
      simp [hpath]
    simp [checked, hzero, hne]
  · rw [hstart]
    by_cases hne : names = []
    · rcases stepsTo_eq (Path.join path ("/".intercalate names)) with hsteps | hsteps
      · rw [hsteps]
        exact hall
      · rw [hsteps]
        exact resolve_snoc (.current (by simpa [hne] using hdirectory)) hall
    · have hslash : endsWithSlash (Path.join path ("/".intercalate names)) = false := by
        have hlast := Path.getLast?_intercalate hpiece
        have hrest := Path.intercalate_ne_empty hne hpiece
        rw [endsWithSlash, hjoin, String.toList_append,
          List.getLast?_append_of_ne_nil _ (mt String.toList_eq_nil_iff.mp hrest)]
        simpa using hlast
      rw [stepsTo_of_plain hslash]
      exact hall

end Workspace

end Localization
