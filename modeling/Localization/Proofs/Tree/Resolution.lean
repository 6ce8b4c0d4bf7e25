import Localization.Proofs.Tree.Growth

/-!
Where paths lead in a tree that has grown. A path that leads somewhere still leads there, and a path to
which a file was written leads to that file. Main statement: `exists_place_of_writeText`.
-/

namespace Localization.Workspace

open FileTree (Shape shape shapeAt?_eq_directory shapeAt?_eq_file)

variable {tree grown : FileTree}

/-- What a name in a path has to be in order to name something in a directory. -/
structure IsName (name : String) : Prop where
  not_current : name ≠ "."
  not_parent : name ≠ ".."
  fits : name.utf8ByteSize ≤ nameLimit

/-- A step of a path that leads from a place to another one. -/
inductive Goes (tree : FileTree) (place : Location) : String → Location → Prop where
  | current (h : tree.shapeAt? place = some .directory) : Goes tree place "." place
  | parent (h : tree.shapeAt? place = some .directory) : Goes tree place ".." place.dropLast
  | inside {name : String} {s : Shape} (h : tree.shapeAt? place = some .directory)
      (hname : IsName name) (hs : tree.shapeAt? (place ++ [name]) = some s)
      (hlink : ∀ target, s ≠ .link target) : Goes tree place name (place ++ [name])

/-- A step of a path that comes to a link, which is followed from a place. -/
structure Links (tree : FileTree) (place : Location) (name : String) (source : Location)
    (target : String) : Prop where
  directory : tree.shapeAt? place = some .directory
  isName : IsName name
  link : tree.shapeAt? (place ++ [name]) = some (.link target)
  source_eq : source = if Path.isAbsolute target then [] else place

/-- A link is followed from a directory. -/
theorem Links.base_directory {place source : Location} {name target : String}
    (h : Links tree place name source target) : tree.shapeAt? source = some .directory := by
  rw [h.source_eq]
  split
  · exact FileTree.shapeAt?_of_append h.link (by simp)
  · exact h.directory

theorem Goes.of_growsTo (hgrows : tree.GrowsTo grown) {place next : Location} {name : String}
    (h : Goes tree place name next) : Goes grown place name next := by
  cases h with
  | current h => exact .current (hgrows _ _ h)
  | parent h => exact .parent (hgrows _ _ h)
  | inside h hname hs hlink => exact .inside (hgrows _ _ h) hname (hgrows _ _ hs) hlink

theorem Links.of_growsTo (hgrows : tree.GrowsTo grown) {place source : Location}
    {name target : String} (h : Links tree place name source target) :
    Links grown place name source target :=
  ⟨hgrows _ _ h.directory, h.isName, hgrows _ _ h.link, h.source_eq⟩

/-- What a step does: `go` continues from another place, and `follow` goes through a link. -/
theorem step_eq_ok_iff (go : Location → Except FileError Location)
    (follow : Location → String → Except FileError Location) {place found : Location}
    {name : String} :
    (match tree.at? place with
      | some (.directory entries) =>
        if name = "." then go place
        else if name = ".." then go place.dropLast
        else if nameLimit < name.utf8ByteSize then .error .nameTooLong
        else
          match entries.lookup name with
          | none => .error .notFound
          | some (.link target) => follow (if Path.isAbsolute target then [] else place) target
          | some _ => go (place ++ [name])
      | some _ => .error .notDirectory
      | none => .error .notFound) = Except.ok found ↔
      (∃ next, Goes tree place name next ∧ go next = .ok found) ∨
        ∃ source target, Links tree place name source target ∧ follow source target = .ok found := by
  constructor
  · intro h
    split at h
    · next entries hplace =>
        have hdirectory := shapeAt?_eq_directory.mpr ⟨entries, hplace⟩
        split at h
        · next hname => exact .inl ⟨_, hname ▸ .current hdirectory, h⟩
        split at h
        · next hname => exact .inl ⟨_, hname ▸ .parent hdirectory, h⟩
        split at h
        · contradiction
        next hcurrent hparent hlimit =>
        have hname : IsName name := ⟨hcurrent, hparent, Nat.not_lt.mp hlimit⟩
        have hshape : ∀ t, entries.lookup name = some t →
            tree.shapeAt? (place ++ [name]) = some t.shape := fun t ht => by
          rw [FileTree.shapeAt?, FileTree.at?_snoc_of_directory hplace, ht, Option.map_some]
        split at h
        · contradiction
        · next target htarget =>
            exact .inr ⟨_, target, ⟨hdirectory, hname, hshape _ htarget, rfl⟩, h⟩
        · next t hlink ht =>
            refine .inl ⟨_, .inside hdirectory hname (hshape _ ht) ?_, h⟩
            intro target htarget
            cases t with
            | link other => exact hlink other rfl
            | file c => simp [shape] at htarget
            | directory inner => simp [shape] at htarget
    · contradiction
    · contradiction
  · rintro (⟨next, hgoes, h⟩ | ⟨source, target, ⟨hdirectory, hname, hlink, rfl⟩, h⟩)
    · cases hgoes with
      | current hdirectory =>
          obtain ⟨entries, hplace⟩ := shapeAt?_eq_directory.mp hdirectory
          simpa [hplace] using h
      | parent hdirectory =>
          obtain ⟨entries, hplace⟩ := shapeAt?_eq_directory.mp hdirectory
          simpa [hplace] using h
      | inside hdirectory hname hs hlink =>
          obtain ⟨entries, hplace⟩ := shapeAt?_eq_directory.mp hdirectory
          rw [FileTree.shapeAt?, FileTree.at?_snoc_of_directory hplace] at hs
          obtain ⟨t, ht, rfl⟩ := Option.map_eq_some_iff.mp hs
          simp only [hplace, ht, hname.not_current, hname.not_parent, Nat.not_lt.mpr hname.fits,
            if_false]
          cases t with
          | link target => exact absurd rfl (hlink target)
          | file c => exact h
          | directory inner => exact h
    · obtain ⟨entries, hplace⟩ := shapeAt?_eq_directory.mp hdirectory
      rw [FileTree.shapeAt?, FileTree.at?_snoc_of_directory hplace] at hlink
      obtain ⟨t, ht, hshape⟩ := Option.map_eq_some_iff.mp hlink
      simp only [hplace, ht, hname.not_current, hname.not_parent, Nat.not_lt.mpr hname.fits, if_false]
      cases t with
      | link other =>
          obtain rfl : other = target := by simpa [shape] using hshape
          exact h
      | file c => simp [shape] at hshape
      | directory inner => simp [shape] at hshape

theorem walk_cons_eq_ok_iff {follow : Location → List String → Except FileError Location}
    {place found : Location} {name : String} {rest : List String} :
    walk tree follow place (name :: rest) = .ok found ↔
      (∃ next, Goes tree place name next ∧ walk tree follow next rest = .ok found) ∨
        ∃ source target, Links tree place name source target ∧
          follow source (stepsTo target ++ rest) = .ok found :=
  step_eq_ok_iff (walk tree follow · rest) fun source target => follow source (stepsTo target ++ rest)

theorem walk_of_growsTo (hgrows : tree.GrowsTo grown)
    {follow follow' : Location → List String → Except FileError Location}
    (hfollow : ∀ place steps found, follow place steps = .ok found → follow' place steps = .ok found)
    {place found : Location} {steps : List String} (h : walk tree follow place steps = .ok found) :
    walk grown follow' place steps = .ok found := by
  induction steps generalizing place with
  | nil => exact h
  | cons name rest ih =>
      rw [walk_cons_eq_ok_iff] at h ⊢
      rcases h with ⟨next, hgoes, h⟩ | ⟨source, target, hlinks, h⟩
      · exact .inl ⟨next, hgoes.of_growsTo hgrows, ih h⟩
      · exact .inr ⟨source, target, hlinks.of_growsTo hgrows, hfollow _ _ _ h⟩

theorem resolve_of_growsTo (hgrows : tree.GrowsTo grown) {links : Nat} {place found : Location}
    {steps : List String} (h : resolve tree links place steps = .ok found) :
    resolve grown links place steps = .ok found := by
  induction links generalizing place steps found with
  | zero => exact walk_of_growsTo hgrows (fun _ _ _ hfound => hfound) h
  | succ links ih => exact walk_of_growsTo hgrows (fun _ _ _ hfound => ih hfound) h

/-- A workspace whose tree has grown, seen from the same directory. -/
structure GrowsTo (w grown : Workspace) : Prop where
  tree : w.tree.GrowsTo grown.tree
  current : grown.current = w.current

variable {w after last : Workspace} {path : String} {text : List Char} {place : Location}

theorem GrowsTo.refl (w : Workspace) : w.GrowsTo w :=
  ⟨.refl w.tree, rfl⟩

theorem GrowsTo.trans (h : w.GrowsTo after) (hlast : after.GrowsTo last) : w.GrowsTo last :=
  ⟨h.tree.trans hlast.tree, hlast.current.trans h.current⟩

theorem GrowsTo.start_eq (h : w.GrowsTo after) (path : String) : after.start path = w.start path := by
  rw [start, start, h.current]

theorem locate_eq_ok_iff : w.locate path = .ok place ↔
    checked path = .ok () ∧ resolve w.tree linkLimit (w.start path) (stepsTo path) = .ok place := by
  rw [locate]
  cases hchecked : checked path with
  | error e => simp [bind, Except.bind]
  | ok u => simp [bind, Except.bind]

theorem locate_of_growsTo (hgrows : w.GrowsTo after) (h : w.locate path = .ok place) :
    after.locate path = .ok place := by
  rw [locate_eq_ok_iff] at h ⊢
  rw [hgrows.start_eq]
  exact ⟨h.1, resolve_of_growsTo hgrows.tree h.2⟩

/-! ## Places to which files are written -/

/-- A file can be put at a place: nothing stands there, or a file. -/
structure TakesFile (tree : FileTree) (place : Location) : Prop where
  room : tree.HasRoom place
  free : ∀ s, tree.shapeAt? place = some s → s = .file

theorem TakesFile.not_directory (h : TakesFile tree place) : tree.shapeAt? place ≠ some .directory :=
  fun hdirectory => nomatch h.free _ hdirectory

theorem TakesFile.of_growsTo (h : TakesFile tree place) (hgrows : tree.GrowsTo grown)
    (hfile : grown.shapeAt? place = some .file) : TakesFile grown place := by
  obtain ⟨above, name, hplace, habove⟩ := h.room
  refine ⟨⟨above, name, hplace, hgrows _ _ habove⟩, ?_⟩
  intro s hs
  rw [hfile] at hs
  exact (Option.some.inj hs).symm

/-- The last step to the place of a file. -/
theorem walkToFile_singleton_eq_ok_iff
    {follow : Location → List String → Bool → Except FileError Location} {isSlashed : Bool}
    {source found : Location} {name : String} :
    walkToFile tree follow isSlashed source [name] = .ok found ↔ isSlashed = false ∧
      ((tree.shapeAt? source = some .directory ∧ IsName name ∧ found = source ++ [name] ∧
          TakesFile tree found) ∨
        ∃ base target, Links tree source name base target ∧
          follow base (steps target) (endsWithSlash target) = .ok found) := by
  rw [walkToFile]
  constructor
  · intro h
    split at h
    · next entries hsource =>
        have hdirectory := shapeAt?_eq_directory.mpr ⟨entries, hsource⟩
        split at h
        · contradiction
        next hplain =>
        simp only [Bool.or_eq_true, decide_eq_true_eq, not_or, Bool.not_eq_true] at hplain
        obtain ⟨⟨hslash, hcurrent⟩, hparent⟩ := hplain
        split at h
        · contradiction
        next hlimit =>
        have hname : IsName name := ⟨hcurrent, hparent, Nat.not_lt.mp hlimit⟩
        refine ⟨hslash, ?_⟩
        have hshape : tree.shapeAt? (source ++ [name]) = (entries.lookup name).map shape := by
          rw [FileTree.shapeAt?, FileTree.at?_snoc_of_directory hsource]
        split at h
        · contradiction
        · next target htarget =>
            rw [htarget] at hshape
            exact .inr ⟨_, target, ⟨hdirectory, hname, hshape, rfl⟩, h⟩
        · next hnotDirectory hnotLink =>
            obtain rfl := Except.ok.inj h
            refine .inl ⟨hdirectory, hname, rfl, ⟨source, name, rfl, hdirectory⟩, ?_⟩
            -- Nothing stands at the place, or a file.
            intro s hs
            rw [hshape] at hs
            obtain ⟨t, ht, rfl⟩ := Option.map_eq_some_iff.mp hs
            cases t with
            | file c => rfl
            | directory inner => exact absurd ht (hnotDirectory inner)
            | link target => exact absurd ht (hnotLink target)
    · contradiction
    · contradiction
  · rintro ⟨rfl, ⟨hdirectory, hname, rfl, htakes⟩ | ⟨base, target, ⟨hdirectory, hname, hlink, rfl⟩, h⟩⟩
    · obtain ⟨entries, hsource⟩ := shapeAt?_eq_directory.mp hdirectory
      have hfree := htakes.free
      rw [FileTree.shapeAt?, FileTree.at?_snoc_of_directory hsource] at hfree
      simp only [hsource, hname.not_current, hname.not_parent, Nat.not_lt.mpr hname.fits, decide_false,
        Bool.or_false, Bool.false_eq_true, if_false]
      cases hlookup : entries.lookup name with
      | none => rfl
      | some t =>
          rw [hlookup] at hfree
          cases t with
          | file c => rfl
          | directory inner => exact absurd (hfree _ rfl) (by simp [shape])
          | link target => exact absurd (hfree _ rfl) (by simp [shape])
    · obtain ⟨entries, hsource⟩ := shapeAt?_eq_directory.mp hdirectory
      rw [FileTree.shapeAt?, FileTree.at?_snoc_of_directory hsource] at hlink
      obtain ⟨t, ht, hshape⟩ := Option.map_eq_some_iff.mp hlink
      simp only [hsource, ht, hname.not_current, hname.not_parent, Nat.not_lt.mpr hname.fits,
        decide_false, Bool.or_false, Bool.false_eq_true, if_false]
      cases t with
      | link other =>
          obtain rfl : other = target := by simpa [shape] using hshape
          exact h
      | file c => simp [shape] at hshape
      | directory inner => simp [shape] at hshape

theorem walkToFile_cons_eq_ok_iff
    {follow : Location → List String → Bool → Except FileError Location} {isSlashed : Bool}
    {source found : Location} {name : String} {rest : List String} (hrest : rest ≠ []) :
    walkToFile tree follow isSlashed source (name :: rest) = .ok found ↔
      (∃ next, Goes tree source name next ∧ walkToFile tree follow isSlashed next rest = .ok found) ∨
        ∃ base target, Links tree source name base target ∧
          follow base (stepsTo target ++ rest) isSlashed = .ok found := by
  rw [walkToFile]
  · exact step_eq_ok_iff (walkToFile tree follow isSlashed · rest) fun base target =>
      follow base (stepsTo target ++ rest) isSlashed
  · exact hrest

theorem stepsTo_of_plain (h : endsWithSlash path = false) : stepsTo path = steps path := by
  simp [stepsTo, h]

/-- Steps lead to a place at which a file can be written. In a tree that has grown, with a file there,
they lead to that file when they are followed, and are the way to write to it. -/
structure LeadsToFile (tree : FileTree) (isSlashed : Bool) (place : Location)
    (followed written : FileTree → Except FileError Location) : Prop where
  plain : isSlashed = false
  takes : TakesFile tree place
  again : ∀ grown, tree.GrowsTo grown → grown.shapeAt? place = some .file →
    followed grown = .ok place ∧ written grown = .ok place

/-- One round of steps, up to a link or to the end. -/
theorem leadsToFile_of_walkToFile {follow : Location → List String → Bool → Except FileError Location}
    (next : FileTree → Location → List String → Except FileError Location)
    (nextToFile : FileTree → Location → List String → Bool → Except FileError Location)
    (hfollow : ∀ source steps isSlashed, follow source steps isSlashed = .ok place →
      LeadsToFile tree isSlashed place (next · source steps) (nextToFile · source steps isSlashed))
    {isSlashed : Bool} {source : Location} {steps : List String}
    (h : walkToFile tree follow isSlashed source steps = .ok place) :
    LeadsToFile tree isSlashed place (fun grown => walk grown (next grown) source steps)
      (fun grown => walkToFile grown (nextToFile grown) isSlashed source steps) := by
  induction steps generalizing source with
  | nil => simp [walkToFile] at h
  | cons name rest ih =>
      cases rest with
      | nil =>
          obtain ⟨hslash, ⟨hdirectory, hname, rfl, htakes⟩ | ⟨base, target, hlinks, h⟩⟩ :=
            walkToFile_singleton_eq_ok_iff.mp h
          · refine ⟨hslash, htakes, fun grown hgrows hfile => ⟨?_, ?_⟩⟩
            · refine walk_cons_eq_ok_iff.mpr (.inl ⟨_, .inside (hgrows _ _ hdirectory) hname hfile ?_, ?_⟩)
              · exact fun target => nofun
              · rfl
            · exact walkToFile_singleton_eq_ok_iff.mpr ⟨hslash,
                .inl ⟨hgrows _ _ hdirectory, hname, rfl, htakes.of_growsTo hgrows hfile⟩⟩
          · have hleads := hfollow _ _ _ h
            refine ⟨hslash, hleads.takes, fun grown hgrows hfile => ?_⟩
            obtain ⟨hnext, hnextToFile⟩ := hleads.again grown hgrows hfile
            -- A path that is followed ends at the target as one that is written does: it has no slash behind.
            refine ⟨walk_cons_eq_ok_iff.mpr (.inr ⟨base, target, hlinks.of_growsTo hgrows, ?_⟩),
              walkToFile_singleton_eq_ok_iff.mpr
                ⟨hslash, .inr ⟨base, target, hlinks.of_growsTo hgrows, hnextToFile⟩⟩⟩
            rw [List.append_nil, stepsTo_of_plain hleads.plain]
            exact hnext
      | cons second rest =>
          have hmore : second :: rest ≠ [] := List.cons_ne_nil second rest
          rcases (walkToFile_cons_eq_ok_iff hmore).mp h with
            ⟨middle, hgoes, h⟩ | ⟨base, target, hlinks, h⟩
          · have hleads := ih h
            refine ⟨hleads.plain, hleads.takes, fun grown hgrows hfile => ?_⟩
            obtain ⟨hnext, hnextToFile⟩ := hleads.again grown hgrows hfile
            exact ⟨walk_cons_eq_ok_iff.mpr (.inl ⟨middle, hgoes.of_growsTo hgrows, hnext⟩),
              (walkToFile_cons_eq_ok_iff hmore).mpr
                (.inl ⟨middle, hgoes.of_growsTo hgrows, hnextToFile⟩)⟩
          · have hleads := hfollow _ _ _ h
            refine ⟨hleads.plain, hleads.takes, fun grown hgrows hfile => ?_⟩
            obtain ⟨hnext, hnextToFile⟩ := hleads.again grown hgrows hfile
            exact ⟨walk_cons_eq_ok_iff.mpr (.inr ⟨base, target, hlinks.of_growsTo hgrows, hnext⟩),
              (walkToFile_cons_eq_ok_iff hmore).mpr
                (.inr ⟨base, target, hlinks.of_growsTo hgrows, hnextToFile⟩)⟩

theorem leadsToFile_of_resolveToFile {links : Nat} {source : Location} {steps : List String}
    {isSlashed : Bool} (h : resolveToFile tree links source steps isSlashed = .ok place) :
    LeadsToFile tree isSlashed place (resolve · links source steps)
      (resolveToFile · links source steps isSlashed) := by
  induction links generalizing source steps isSlashed with
  | zero =>
      refine leadsToFile_of_walkToFile (fun _ _ _ => .error .tooManyLinks)
        (fun _ _ _ _ => .error .tooManyLinks) ?_ h
      intro _ _ _ hfound
      contradiction
  | succ links ih =>
      exact leadsToFile_of_walkToFile (fun grown => resolve grown links)
        (fun grown => resolveToFile grown links) (fun _ _ _ hfound => ih hfound) h

/-- A file that is written stands at one place, and only there. Its path leads there as long as the tree
grows. -/
structure Wrote (w after : Workspace) (path : String) (text : List Char) (place : Location) : Prop where
  grows : w.GrowsTo after
  file : after.tree.at? place = some (.file (.text text))
  others : ∀ other c, w.tree.at? other = some (.file c) → other ≠ place →
    after.tree.at? other = some (.file c)
  leads : ∀ last, after.GrowsTo last → last.locate path = .ok place ∧
    placeToWrite last.tree linkLimit (last.start path) path = .ok place

theorem writeText_eq_ok_iff : w.writeText path text = .ok after ↔ checked path = .ok () ∧
    ∃ place, placeToWrite w.tree linkLimit (w.start path) path = .ok place ∧
      after = { w with tree := w.tree.put place (.file (.text text)) } := by
  rw [writeText]
  cases hchecked : checked path with
  | error e => simp [bind, Except.bind]
  | ok u =>
      cases hplace : placeToWrite w.tree linkLimit (w.start path) path with
      | error e => simp [bind, Except.bind]
      | ok place => simp [bind, Except.bind, eq_comm]

theorem wrote_of_placeToWrite (hchecked : checked path = .ok ())
    (hplace : placeToWrite w.tree linkLimit (w.start path) path = .ok place) (text : List Char) :
    Wrote w { w with tree := w.tree.put place (.file (.text text)) } path text place := by
  have hleads := leadsToFile_of_resolveToFile hplace
  obtain ⟨above, name, rfl, habove⟩ := hleads.takes.room
  have hput : (w.tree.put (above ++ [name]) (.file (.text text))).at? (above ++ [name]) =
      some (.file (.text text)) := (FileTree.at?_put habove _).1
  have hgrows : w.tree.GrowsTo (w.tree.put (above ++ [name]) (.file (.text text))) :=
    FileTree.growsTo_put hleads.takes.room fun s hs => ⟨hleads.takes.free s hs, rfl⟩
  have hafter : w.GrowsTo
      { w with tree := w.tree.put (above ++ [name]) (.file (.text text)) } := ⟨hgrows, rfl⟩
  refine ⟨hafter, hput, ?_, ?_⟩
  · exact fun other c hother hne => FileTree.at?_put_of_file hleads.takes.room
      hleads.takes.not_directory _ hother hne
  · intro last hlast
    have hfile : last.tree.shapeAt? (above ++ [name]) = some .file :=
      hlast.tree _ _ (shapeAt?_eq_file.mpr ⟨_, hput⟩)
    obtain ⟨hfollowed, hwritten⟩ := hleads.again last.tree (hgrows.trans hlast.tree) hfile
    rw [locate_eq_ok_iff, (hafter.trans hlast).start_eq, stepsTo_of_plain hleads.plain]
    exact ⟨⟨hchecked, hfollowed⟩, hwritten⟩

theorem exists_place_of_writeText (h : w.writeText path text = .ok after) :
    ∃ place, Wrote w after path text place := by
  obtain ⟨hchecked, place, hplace, rfl⟩ := writeText_eq_ok_iff.mp h
  exact ⟨place, wrote_of_placeToWrite hchecked hplace text⟩

end Localization.Workspace
