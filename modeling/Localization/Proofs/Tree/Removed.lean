import Localization.Proofs.Tree.Rewritten

/-!
Trees without one of their files. A path that does not lead to the file, or on from there, leads to the same
place without it, and writing elsewhere keeps the trees apart by this file only. Main statements:
`misses_resolve` and `Without.save`.
-/

namespace Localization

namespace FileTree

variable {t less : FileTree} {gone place : Location}

/-- A tree and the same tree without the file in some place. -/
structure Without (t less : FileTree) (gone : Location) : Prop where
  there : t.shapeAt? gone = some .file
  notThere : less.shapeAt? gone = none
  shapes : ∀ place, place ≠ gone → less.shapeAt? place = t.shapeAt? place
  files : ∀ place c, place ≠ gone → (less.at? place = some (.file c) ↔ t.at? place = some (.file c))

theorem Without.ne_of_directory (h : t.Without less gone) (hplace : t.shapeAt? place = some .directory) :
    place ≠ gone := by
  rintro rfl
  rw [h.there] at hplace
  contradiction

theorem Without.ne_of_link (h : t.Without less gone) {target : String}
    (hplace : t.shapeAt? place = some (.link target)) : place ≠ gone := by
  rintro rfl
  simp [h.there] at hplace

theorem Without.nil_ne (h : t.Without less gone) : [] ≠ gone := by
  rintro rfl
  simpa [shapeAt?] using h.notThere

theorem Without.directory (h : t.Without less gone) (hplace : t.shapeAt? place = some .directory) :
    less.shapeAt? place = some .directory :=
  (h.shapes place (h.ne_of_directory hplace)).trans hplace

theorem Without.link (h : t.Without less gone) {target : String}
    (hplace : t.shapeAt? place = some (.link target)) : less.shapeAt? place = some (.link target) :=
  (h.shapes place (h.ne_of_link hplace)).trans hplace

theorem Without.growsTo (h : t.Without less gone) : less.GrowsTo t := by
  intro place s hs
  have hne : place ≠ gone := by
    rintro rfl
    rw [h.notThere] at hs
    contradiction
  exact (h.shapes place hne).symm.trans hs

/-- What stands in a place of two trees that only differ inside of it. -/
inductive Alike : Option FileTree → Option FileTree → Prop where
  | nothing : Alike none none
  | file (c : Contents) : Alike (some (.file c)) (some (.file c))
  | link (target : String) : Alike (some (.link target)) (some (.link target))
  | directory (entries others : List (String × FileTree)) :
      Alike (some (.directory entries)) (some (.directory others))

theorem Without.alike (h : t.Without less gone) (hne : place ≠ gone) :
    Alike (t.at? place) (less.at? place) := by
  have hshape := h.shapes place hne
  have hfiles := h.files place
  rw [shapeAt?, shapeAt?] at hshape
  cases hu : t.at? place with
  | none =>
      rw [hu, Option.map_none, Option.map_eq_none_iff] at hshape
      rw [hshape]
      exact .nothing
  | some u =>
      rw [hu] at hfiles
      rw [hu, Option.map_some, Option.map_eq_some_iff] at hshape
      obtain ⟨v, hv, hsame⟩ := hshape
      rw [hv] at hfiles ⊢
      cases u with
      | file c =>
          rw [(hfiles c hne).mpr rfl]
          exact .file c
      | link target =>
          cases v with
          | link other =>
              obtain rfl : other = target := by simpa [shape] using hsame
              exact .link other
          | file d => simp [shape] at hsame
          | directory others => simp [shape] at hsame
      | directory entries =>
          cases v with
          | directory others => exact .directory entries others
          | file d => simp [shape] at hsame
          | link other => simp [shape] at hsame

/-- A tree and the tree before a file was put into it. -/
theorem without_put (hroom : t.HasRoom place) (hnone : t.shapeAt? place = none) (c : Contents) :
    (t.put place (.file c)).Without t place := by
  obtain ⟨above, name, rfl, habove⟩ := hroom
  have hput : (t.put (above ++ [name]) (.file c)).at? (above ++ [name]) = some (.file c) :=
    (at?_put habove _).1
  have hthere : (t.put (above ++ [name]) (.file c)).shapeAt? (above ++ [name]) = some .file :=
    shapeAt?_eq_file.mpr ⟨c, hput⟩
  have hbelow : ∀ other, (above ++ [name]) <+: other → other ≠ above ++ [name] →
      t.at? other = none ∧ (t.put (above ++ [name]) (.file c)).at? other = none := by
    intro other hprefix hne
    refine ⟨at?_eq_none_of_isPrefix hprefix hne ?_, at?_eq_none_of_isPrefix hprefix hne ?_⟩
    · rw [hnone]
      nofun
    · rw [hthere]
      nofun
  refine ⟨hthere, hnone, fun other hne => ?_, fun other d hne => ?_⟩
  · by_cases hprefix : (above ++ [name]) <+: other
    · obtain ⟨hbefore, hafter⟩ := hbelow other hprefix hne
      rw [shapeAt?, shapeAt?, hbefore, hafter]
    · exact ((at?_put habove _).2 other hprefix).1.symm
  · by_cases hprefix : (above ++ [name]) <+: other
    · obtain ⟨hbefore, hafter⟩ := hbelow other hprefix hne
      rw [hbefore, hafter]
    · exact (at?_put_eq_file_iff habove _ hprefix).symm

/-- Putting the same into both trees, in another place. -/
theorem Without.put (h : t.Without less gone) {above : Location} {name : String}
    (habove : t.shapeAt? above = some .directory) (hne : above ++ [name] ≠ gone)
    (hfree : t.shapeAt? (above ++ [name]) ≠ some .directory) (new : FileTree) :
    (t.put (above ++ [name]) new).Without (less.put (above ++ [name]) new) gone := by
  have hless := h.directory habove
  have hgone : ¬ (above ++ [name]) <+: gone := by
    rintro ⟨more, hmore⟩
    have hrest : more ≠ [] := by
      rintro rfl
      exact hne ((List.append_nil _).symm.trans hmore)
    exact hfree (shapeAt?_of_append (hmore ▸ h.there) hrest)
  have hinside : ∀ other, (above ++ [name]) <+: other →
      (less.put (above ++ [name]) new).at? other = (t.put (above ++ [name]) new).at? other := by
    rintro other ⟨more, rfl⟩
    rw [at?_append _ (above ++ [name]), at?_append _ (above ++ [name]), (at?_put hless new).1,
      (at?_put habove new).1]
  refine ⟨?_, ?_, fun other hother => ?_, fun other c hother => ?_⟩
  · rw [((at?_put habove new).2 gone hgone).1]
    exact h.there
  · rw [((at?_put hless new).2 gone hgone).1]
    exact h.notThere
  · by_cases hprefix : (above ++ [name]) <+: other
    · rw [shapeAt?, shapeAt?, hinside other hprefix]
    · rw [((at?_put hless new).2 other hprefix).1, ((at?_put habove new).2 other hprefix).1]
      exact h.shapes other hother
  · by_cases hprefix : (above ++ [name]) <+: other
    · rw [hinside other hprefix]
    · rw [at?_put_eq_file_iff hless new hprefix, at?_put_eq_file_iff habove new hprefix]
      exact h.files other c hother

end FileTree

namespace Workspace

open FileTree (shapeAt?_eq_directory shapeAt?_eq_file)

/-! ## Paths -/

variable {tree lessTree : FileTree} {gone source place next : Location} {name : String}

/-- What steps lead to without a file: the same, unless they lead to the file or on from there. -/
inductive Misses (gone : Location) : Except FileError Location → Except FileError Location → Prop where
  | same {r : Except FileError Location} (h : r ≠ .ok gone) : Misses gone r r
  | lost : Misses gone (.ok gone) (.error .notFound)
  | behind : Misses gone (.error .notDirectory) (.error .notFound)

theorem misses_walk (h : tree.Without lessTree gone)
    {follow follow' : Location → List String → Except FileError Location}
    (hfollow : ∀ base steps, base ≠ gone → Misses gone (follow base steps) (follow' base steps))
    {steps : List String} (hsource : source ≠ gone) :
    Misses gone (walk tree follow source steps) (walk lessTree follow' source steps) := by
  induction steps generalizing source with
  | nil => exact .same fun heq => hsource (Except.ok.inj heq)
  | cons name rest ih =>
      rw [walk, walk]
      have halike := h.alike hsource
      generalize hat : tree.at? source = here, hless : lessTree.at? source = hereLess at halike
      cases halike with
      | nothing => exact .same nofun
      | file c => exact .same nofun
      | link target => exact .same nofun
      | directory entries others =>
          have hdirectory := shapeAt?_eq_directory.mpr ⟨entries, hat⟩
          have hlookup := FileTree.at?_snoc_of_directory hat name
          have hlookupLess := FileTree.at?_snoc_of_directory hless name
          dsimp only
          split
          · exact ih hsource
          split
          · exact ih (h.ne_of_directory (FileTree.shapeAt?_dropLast hdirectory))
          split
          · exact .same nofun
          rw [← hlookup, ← hlookupLess]
          by_cases hgone : source ++ [name] = gone
          · -- A step to the file ends the way, or cannot go on.
            obtain ⟨c, hc⟩ := shapeAt?_eq_file.mp h.there
            have hnone : lessTree.at? gone = none := Option.map_eq_none_iff.mp h.notThere
            rw [hgone, hc, hnone]
            cases rest with
            | nil => exact .lost
            | cons second more =>
                dsimp only
                rw [walk, hc]
                exact .behind
          · have hnext := h.alike hgone
            generalize tree.at? (source ++ [name]) = there, lessTree.at? (source ++ [name]) = thereLess
              at hnext
            cases hnext with
            | nothing => exact .same nofun
            | file c => exact ih hgone
            | directory inner inner' => exact ih hgone
            | link target =>
                refine hfollow _ _ ?_
                split
                · exact h.nil_ne
                · exact hsource

theorem misses_resolve (h : tree.Without lessTree gone) (links : Nat) (steps : List String)
    (hsource : source ≠ gone) :
    Misses gone (resolve tree links source steps) (resolve lessTree links source steps) := by
  induction links generalizing source steps with
  | zero =>
      refine misses_walk h (fun _ _ _ => ?_) hsource
      exact .same nofun
  | succ links ih => exact misses_walk h (fun _ _ hbase => ih _ hbase) hsource

theorem Misses.ok {r : Except FileError Location} (h : Misses gone (.ok place) r) (hne : place ≠ gone) :
    r = .ok place := by
  cases h with
  | same => rfl
  | lost => contradiction

theorem Misses.notFound {r : Except FileError Location} (h : Misses gone (.error .notFound) r) :
    r = .error .notFound := by
  cases h with
  | same => rfl

theorem Misses.ne_gone {r r' : Except FileError Location} (h : Misses gone r r') : r' ≠ .ok gone := by
  cases h with
  | same hne => exact hne
  | lost => nofun
  | behind => nofun

/-- A workspace and the same workspace without a file. -/
structure Without (w less : Workspace) (gone : Location) : Prop where
  tree : w.tree.Without less.tree gone
  current : less.current = w.current
  current_ne : w.current ≠ gone

variable {w less after : Workspace} {path : String} {text : List Char}

theorem Without.start_eq (h : w.Without less gone) (path : String) : less.start path = w.start path := by
  rw [start, start, h.current]

theorem Without.start_ne (h : w.Without less gone) (path : String) : w.start path ≠ gone := by
  rw [start]
  split
  · exact h.tree.nil_ne
  · exact h.current_ne

theorem Without.resolve (h : w.Without less gone) {path : String} {links : Nat} {steps : List String}
    (hplace : resolve w.tree links (w.start path) steps = .ok place) (hne : place ≠ gone) :
    resolve less.tree links (less.start path) steps = .ok place := by
  have hmisses := misses_resolve h.tree links steps (h.start_ne path)
  rw [hplace] at hmisses
  rw [h.start_eq]
  exact hmisses.ok hne

theorem Without.growsTo (h : w.Without less gone) : less.GrowsTo w :=
  ⟨h.tree.growsTo, h.current.symm⟩

theorem Without.locate_iff (h : w.Without less gone) :
    less.locate path = .ok place ↔ w.locate path = .ok place ∧ place ≠ gone := by
  constructor
  · intro hplace
    refine ⟨locate_of_growsTo h.growsTo hplace, ?_⟩
    rintro rfl
    have hmisses := misses_resolve h.tree linkLimit (stepsTo path) (h.start_ne path)
    rw [← h.start_eq, (locate_eq_ok_iff.mp hplace).2] at hmisses
    exact hmisses.ne_gone rfl
  · rintro ⟨hplace, hne⟩
    obtain ⟨hchecked, hresolve⟩ := locate_eq_ok_iff.mp hplace
    exact locate_eq_ok_iff.mpr ⟨hchecked, h.resolve hresolve hne⟩

theorem Without.exists_iff (h : w.Without less gone) :
    less.exists path = true ↔ w.exists path = true ∧ w.locate path ≠ .ok gone := by
  rw [Workspace.exists_iff, Workspace.exists_iff]
  constructor
  · rintro ⟨place, s, hplace, hs⟩
    obtain ⟨hold, hne⟩ := h.locate_iff.mp hplace
    refine ⟨⟨place, s, hold, (h.tree.shapes place hne).symm.trans hs⟩, ?_⟩
    rw [hold]
    exact fun heq => hne (Except.ok.inj heq)
  · rintro ⟨⟨place, s, hplace, hs⟩, hgone⟩
    have hne : place ≠ gone := fun heq => hgone (heq ▸ hplace)
    exact ⟨place, s, h.locate_iff.mpr ⟨hplace, hne⟩, (h.tree.shapes place hne).trans hs⟩

theorem Without.readText (h : w.Without less gone) (hread : w.readText path = .ok text)
    (hgone : w.locate path ≠ .ok gone) : less.readText path = .ok text := by
  obtain ⟨place, hplace, hfile⟩ := readText_eq_ok_iff.mp hread
  have hne : place ≠ gone := fun heq => hgone (heq ▸ hplace)
  exact readText_eq_ok_iff.mpr ⟨place, h.locate_iff.mpr ⟨hplace, hne⟩, (h.tree.files place _ hne).mpr hfile⟩

theorem Without.hasDirectory (h : w.Without less gone) (hthere : w.hasDirectory path = true) :
    less.hasDirectory path = true := by
  obtain ⟨place, hplace, hdirectory⟩ := hasDirectory_iff.mp hthere
  have hne := h.tree.ne_of_directory hdirectory
  exact hasDirectory_iff.mpr ⟨place, h.locate_iff.mpr ⟨hplace, hne⟩, h.tree.directory hdirectory⟩

/-! ## Writing -/

theorem Without.put (h : w.Without less gone) {above : Location} {name : String}
    (habove : w.tree.shapeAt? above = some .directory) (hne : above ++ [name] ≠ gone)
    (hfree : w.tree.shapeAt? (above ++ [name]) ≠ some .directory) (new : FileTree) :
    Without { w with tree := w.tree.put (above ++ [name]) new }
      { less with tree := less.tree.put (above ++ [name]) new } gone :=
  ⟨h.tree.put habove hne hfree new, h.current, h.current_ne⟩

theorem Goes.without (h : tree.Without lessTree gone) (hgoes : Goes tree place name next)
    (hne : next ≠ gone) : Goes lessTree place name next := by
  cases hgoes with
  | current hdirectory => exact .current (h.directory hdirectory)
  | parent hdirectory => exact .parent (h.directory hdirectory)
  | inside hdirectory hname hs hlink =>
      exact .inside (h.directory hdirectory) hname ((h.shapes _ hne).trans hs) hlink

theorem Links.without (h : tree.Without lessTree gone) {target : String}
    (hlinks : Links tree place name source target) : Links lessTree place name source target :=
  ⟨h.directory hlinks.directory, hlinks.isName, h.link hlinks.link, hlinks.source_eq⟩

theorem directory_of_walkToFile {follow : Location → List String → Bool → Except FileError Location}
    {isSlashed : Bool} {steps : List String}
    (h : walkToFile tree follow isSlashed source (name :: steps) = .ok place) :
    tree.shapeAt? source = some .directory := by
  cases steps with
  | nil =>
      obtain ⟨-, ⟨hdirectory, -⟩ | ⟨base, target, hlinks, -⟩⟩ := walkToFile_singleton_eq_ok_iff.mp h
      · exact hdirectory
      · exact hlinks.directory
  | cons second rest =>
      rcases (walkToFile_cons_eq_ok_iff (List.cons_ne_nil second rest)).mp h with
        ⟨next, hgoes, -⟩ | ⟨base, target, hlinks, -⟩
      · exact Ends.directory (.inl hgoes)
      · exact hlinks.directory

theorem walkToFile_of_without (h : tree.Without lessTree gone)
    {follow follow' : Location → List String → Bool → Except FileError Location}
    (hfollow : ∀ base steps isSlashed, follow base steps isSlashed = .ok place →
      follow' base steps isSlashed = .ok place)
    (hne : place ≠ gone) {isSlashed : Bool} {steps : List String}
    (hplace : walkToFile tree follow isSlashed source steps = .ok place) :
    walkToFile lessTree follow' isSlashed source steps = .ok place := by
  induction steps generalizing source with
  | nil => simp [walkToFile] at hplace
  | cons name rest ih =>
      cases rest with
      | nil =>
          rw [walkToFile_singleton_eq_ok_iff] at hplace ⊢
          obtain ⟨hslash, ⟨hdirectory, hname, rfl, htakes⟩ | ⟨base, target, hlinks, hplace⟩⟩ := hplace
          · refine ⟨hslash, .inl ⟨h.directory hdirectory, hname, rfl, ?_⟩⟩
            refine ⟨⟨source, name, rfl, h.directory hdirectory⟩, fun s hs => ?_⟩
            exact htakes.free s ((h.shapes _ hne).symm.trans hs)
          · exact ⟨hslash, .inr ⟨base, target, hlinks.without h, hfollow _ _ _ hplace⟩⟩
      | cons second rest =>
          have hmore : second :: rest ≠ [] := List.cons_ne_nil second rest
          rw [walkToFile_cons_eq_ok_iff hmore] at hplace ⊢
          rcases hplace with ⟨next, hgoes, hplace⟩ | ⟨base, target, hlinks, hplace⟩
          · refine .inl ⟨next, hgoes.without h ?_, ih hplace⟩
            exact h.ne_of_directory (directory_of_walkToFile hplace)
          · exact .inr ⟨base, target, hlinks.without h, hfollow _ _ _ hplace⟩

theorem resolveToFile_of_without (h : tree.Without lessTree gone) {links : Nat} (hne : place ≠ gone)
    {isSlashed : Bool} {steps : List String}
    (hplace : resolveToFile tree links source steps isSlashed = .ok place) :
    resolveToFile lessTree links source steps isSlashed = .ok place := by
  induction links generalizing source steps isSlashed with
  | zero =>
      refine walkToFile_of_without h ?_ hne hplace
      intro _ _ _ hfound
      contradiction
  | succ links ih => exact walkToFile_of_without h (fun _ _ _ hfound => ih hfound) hne hplace

/-- A file that is written outside of the place in which the workspaces differ. -/
theorem Without.writeText (h : w.Without less gone) (hwrite : w.writeText path text = .ok after)
    (hgone : after.locate path ≠ .ok gone) :
    ∃ lessAfter, less.writeText path text = .ok lessAfter ∧ after.Without lessAfter gone ∧
      after.tree.at? gone = w.tree.at? gone := by
  obtain ⟨hchecked, place, hplace, rfl⟩ := writeText_eq_ok_iff.mp hwrite
  have hwrote := wrote_of_placeToWrite hchecked hplace text
  have hne : place ≠ gone := by
    rintro rfl
    exact hgone (hwrote.leads _ (.refl _)).1
  have hless : placeToWrite less.tree linkLimit (less.start path) path = .ok place := by
    rw [h.start_eq]
    exact resolveToFile_of_without h.tree hne hplace
  have htakes := (leadsToFile_of_resolveToFile hplace).takes
  obtain ⟨c, hc⟩ := shapeAt?_eq_file.mp h.tree.there
  refine ⟨_, writeText_eq_ok_iff.mpr ⟨hchecked, place, hless, rfl⟩, ?_, ?_⟩
  · obtain ⟨above, name, rfl, habove⟩ := htakes.room
    exact h.put habove hne htakes.not_directory _
  · rw [hwrote.others gone c hc hne.symm, hc]

theorem Without.makeDirectory (h : w.Without less gone) (hmake : w.makeDirectory path = .ok after) :
    ∃ lessAfter, less.makeDirectory path = .ok lessAfter ∧ after.Without lessAfter gone := by
  obtain ⟨hchecked, above, name, hlast, hname, habove, hdirectory, hnone, rfl⟩ :=
    makeDirectory_eq_ok_iff.mp hmake
  have hne : above ++ [name] ≠ gone := by
    rintro rfl
    rw [h.tree.there] at hnone
    contradiction
  refine ⟨_, makeDirectory_eq_ok_iff.mpr ⟨hchecked, above, name, hlast, hname, ?_, h.tree.directory hdirectory,
    (h.tree.shapes _ hne).trans hnone, rfl⟩, h.put hdirectory hne (by rw [hnone]; nofun) _⟩
  exact h.resolve habove (h.tree.ne_of_directory hdirectory)

/-- A directory cannot be made where nothing stands above it, with or without the file. -/
theorem Without.makeDirectory_notFound (h : w.Without less gone)
    (hmake : w.makeDirectory path = .error .notFound) : less.makeDirectory path = .error .notFound := by
  rw [Workspace.makeDirectory] at hmake ⊢
  cases hchecked : checked path with
  | error e =>
      rw [hchecked] at hmake
      exact hmake
  | ok u =>
      have hmisses := misses_resolve h.tree linkLimit (steps path).dropLast (h.start_ne path)
      rw [hchecked] at hmake
      rw [h.start_eq]
      simp only [bind, Except.bind] at hmake ⊢
      cases habove : Workspace.resolve w.tree linkLimit (w.start path) (steps path).dropLast with
      | error e =>
          simp only [habove, Except.error.injEq] at hmake
          rw [habove, hmake] at hmisses
          rw [hmisses.notFound]
      | ok above =>
          simp only [habove] at hmake
          split at hmake
          · simp at hmake
          · split at hmake
            · simp at hmake
            split at hmake
            · simp at hmake
            split at hmake
            · simp at hmake
            · simp at hmake
          · simp at hmake

theorem Without.ensureDirectory (h : w.Without less gone) (hmake : w.ensureDirectory path = .ok after) :
    ∃ lessAfter, less.ensureDirectory path = .ok lessAfter ∧ after.Without lessAfter gone := by
  rw [Workspace.ensureDirectory] at hmake
  split at hmake
  · split at hmake
    · next hthere =>
        obtain rfl := Except.ok.inj hmake
        exact ⟨less, ensureDirectory_of_hasDirectory (h.hasDirectory hthere), h⟩
    · contradiction
  · obtain ⟨lessAfter, hless, hafter⟩ := h.makeDirectory hmake
    refine ⟨lessAfter, ?_, hafter⟩
    rw [Workspace.ensureDirectory, hless]

theorem Without.ensureDirectory_notFound (h : w.Without less gone)
    (hmake : w.ensureDirectory path = .error .notFound) :
    less.ensureDirectory path = .error .notFound := by
  rw [Workspace.ensureDirectory] at hmake
  split at hmake
  · split at hmake
    · contradiction
    · simp at hmake
  · rw [Workspace.ensureDirectory, h.makeDirectory_notFound hmake]

theorem Without.ensureDirectories (h : w.Without less gone) {depth : Nat}
    (hmake : w.ensureDirectories depth path = .ok after) :
    ∃ lessAfter, less.ensureDirectories depth path = .ok lessAfter ∧ after.Without lessAfter gone := by
  induction depth generalizing w less after path with
  | zero =>
      obtain rfl := Except.ok.inj hmake
      exact ⟨less, rfl, h⟩
  | succ depth ih =>
      rw [Workspace.ensureDirectories] at hmake
      simp only [Workspace.ensureDirectories]
      cases hparent : Path.parent? path with
      | none =>
          simp only [hparent, Except.ok.injEq] at hmake
          subst hmake
          exact ⟨less, rfl, h⟩
      | some parent =>
          simp only [hparent] at hmake ⊢
          split at hmake
          · next hnone =>
              rw [h.ensureDirectory_notFound hnone]
              cases habove : w.ensureDirectories depth parent with
              | error e => simp [habove, bind, Except.bind] at hmake
              | ok above =>
                  simp only [habove, bind, Except.bind] at hmake
                  obtain ⟨lessAbove, hlessAbove, hwithout⟩ := ih h habove
                  obtain ⟨lessAfter, hlessAfter, hafter⟩ := hwithout.ensureDirectory hmake
                  refine ⟨lessAfter, ?_, hafter⟩
                  simp only [hlessAbove, bind, Except.bind, hlessAfter]
          · obtain ⟨lessAfter, hlessAfter, hafter⟩ := h.ensureDirectory hmake
            exact ⟨lessAfter, by rw [hlessAfter], hafter⟩

theorem Without.directoriesFor (h : w.Without less gone) (hmake : w.directoriesFor path = .ok after) :
    ∃ lessAfter, less.directoriesFor path = .ok lessAfter ∧ after.Without lessAfter gone := by
  rw [Workspace.directoriesFor] at hmake
  simp only [Workspace.directoriesFor]
  cases hparent : Path.parent? path with
  | none =>
      simp only [hparent, Except.ok.injEq] at hmake
      subst hmake
      exact ⟨less, rfl, h⟩
  | some parent =>
      simp only [hparent] at hmake ⊢
      split at hmake
      · next hempty =>
          obtain rfl := Except.ok.inj hmake
          exact ⟨less, by simp [hempty], h⟩
      · next hempty =>
          obtain ⟨lessAfter, hlessAfter, hafter⟩ := h.ensureDirectories hmake
          refine ⟨lessAfter, ?_, hafter⟩
          rw [if_neg hempty]
          exact hlessAfter

/-- A file is saved in the same way without a file that is not the saved one. -/
theorem Without.save (h : w.Without less gone) (hsave : w.save path text = (after, .ok ()))
    (hgone : after.locate path ≠ .ok gone) :
    ∃ lessAfter, less.save path text = (lessAfter, .ok ()) ∧ after.Without lessAfter gone ∧
      after.tree.at? gone = w.tree.at? gone := by
  obtain ⟨ready, hready, hwrite⟩ := save_eq_ok_iff.mp hsave
  obtain ⟨lessReady, hlessReady, hwithout⟩ := h.directoriesFor hready
  obtain ⟨lessAfter, hlessWrite, hafter, hkept⟩ := hwithout.writeText hwrite hgone
  refine ⟨lessAfter, save_eq_ok_iff.mpr ⟨lessReady, hlessReady, hlessWrite⟩, hafter, ?_⟩
  obtain ⟨c, hc⟩ := shapeAt?_eq_file.mp h.tree.there
  rw [hkept, hc]
  exact (keepsFiles_directoriesFor hready).1.files gone c hc

end Workspace

end Localization
