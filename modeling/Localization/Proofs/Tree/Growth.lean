import Localization.Tree.Workspace
import Localization.Proofs.OrderedMap

/-!
What writing does to a tree. A tree grows: what stands somewhere stays there, only files may hold
something else. A path that leads somewhere leads to the same place in every tree that has grown out of
the first one.
-/

namespace Localization

namespace FileTree

/-- What something in a tree is, apart from what it holds. -/
inductive Shape where
  | file
  | link (target : String)
  | directory
  deriving DecidableEq, Repr

def shape : FileTree → Shape
  | .file _ => .file
  | .link target => .link target
  | .directory _ => .directory

def shapeAt? (t : FileTree) (place : Location) : Option Shape :=
  (t.at? place).map shape

@[simp]
theorem at?_nil (t : FileTree) : t.at? [] = some t := by
  cases t <;> rfl

theorem at?_cons (t : FileTree) (name : String) (rest : Location) :
    t.at? (name :: rest) =
      match t with
      | .directory entries => (entries.lookup name).bind (·.at? rest)
      | _ => none := by
  cases t with
  | directory entries =>
      simp only [at?]
      cases entries.lookup name <;> rfl
  | file c => rfl
  | link target => rfl

theorem at?_append (t : FileTree) (place more : Location) :
    t.at? (place ++ more) = (t.at? place).bind (·.at? more) := by
  induction place generalizing t with
  | nil => simp
  | cons name rest ih =>
      rw [List.cons_append, at?_cons, at?_cons]
      cases t with
      | directory entries =>
          cases hlookup : entries.lookup name with
          | none => simp [hlookup]
          | some inner => simpa [hlookup] using ih inner
      | file c => rfl
      | link target => rfl

theorem at?_snoc_of_directory {t : FileTree} {place : Location} {entries : List (String × FileTree)}
    (h : t.at? place = some (.directory entries)) (name : String) :
    t.at? (place ++ [name]) = entries.lookup name := by
  rw [at?_append, h, Option.bind_some, at?_cons]
  cases hlookup : entries.lookup name with
  | none => simp [hlookup]
  | some inner => simp [hlookup]

theorem shapeAt?_eq_directory {t : FileTree} {place : Location} :
    t.shapeAt? place = some .directory ↔ ∃ entries, t.at? place = some (.directory entries) := by
  rw [shapeAt?]
  cases t.at? place with
  | none => simp
  | some inner => cases inner <;> simp [shape]

theorem shapeAt?_eq_file {t : FileTree} {place : Location} :
    t.shapeAt? place = some .file ↔ ∃ c, t.at? place = some (.file c) := by
  rw [shapeAt?]
  cases t.at? place with
  | none => simp
  | some inner => cases inner <;> simp [shape]

theorem shapeAt?_eq_link {t : FileTree} {place : Location} {target : String} :
    t.shapeAt? place = some (.link target) ↔ t.at? place = some (.link target) := by
  rw [shapeAt?]
  cases t.at? place with
  | none => simp
  | some inner => cases inner <;> simp [shape]

/-- Only in a directory something can stand. -/
theorem shapeAt?_of_append {t : FileTree} {place more : Location} {s : Shape}
    (h : t.shapeAt? (place ++ more) = some s) (hmore : more ≠ []) :
    t.shapeAt? place = some .directory := by
  obtain ⟨name, rest, rfl⟩ := List.exists_cons_of_ne_nil hmore
  rw [shapeAt?, at?_append, Option.map_eq_some_iff] at h
  obtain ⟨inner, hinner, -⟩ := h
  obtain ⟨outer, houter, hinner⟩ := Option.bind_eq_some_iff.mp hinner
  rw [at?_cons] at hinner
  cases outer with
  | directory entries => exact shapeAt?_eq_directory.mpr ⟨entries, houter⟩
  | file c => simp at hinner
  | link target => simp at hinner

theorem shapeAt?_dropLast {t : FileTree} {place : Location}
    (h : t.shapeAt? place = some .directory) : t.shapeAt? place.dropLast = some .directory := by
  rcases List.eq_nil_or_concat place with rfl | ⟨above, name, rfl⟩
  · exact h
  · rw [List.concat_eq_append] at h
    rw [List.concat_eq_append, List.dropLast_concat]
    exact shapeAt?_of_append h (List.cons_ne_nil name [])

/-- What stands in a tree also stands in the other one. Files may hold something else there. -/
def GrowsTo (t grown : FileTree) : Prop :=
  ∀ place s, t.shapeAt? place = some s → grown.shapeAt? place = some s

theorem GrowsTo.refl (t : FileTree) : t.GrowsTo t :=
  fun _ _ h => h

theorem GrowsTo.trans {t grown last : FileTree} (h : t.GrowsTo grown) (hlast : grown.GrowsTo last) :
    t.GrowsTo last :=
  fun place s hs => hlast place s (h place s hs)

/-! ## Putting something into a tree -/

theorem lookup_insertEntry (name other : String) (t : FileTree) (entries : List (String × FileTree)) :
    (OrderedMap.insertEntry name t entries).lookup other =
      if other = name then some t else entries.lookup other :=
  OrderedMap.get?_insert ⟨entries⟩ name other t

/-- Something can be put at a place: above it is a directory. -/
def HasRoom (t : FileTree) (place : Location) : Prop :=
  ∃ above name, place = above ++ [name] ∧ t.shapeAt? above = some .directory

/-- At a place with room stands what was put there. Other places, outside of it, keep what is there. -/
theorem at?_put {t : FileTree} {above : Location} {name : String}
    (h : t.shapeAt? above = some .directory) (new : FileTree) :
    (t.put (above ++ [name]) new).at? (above ++ [name]) = some new ∧
      ∀ place, ¬ (above ++ [name]) <+: place →
        (t.put (above ++ [name]) new).shapeAt? place = t.shapeAt? place ∧
          ∀ c, t.at? place = some (.file c) →
            (t.put (above ++ [name]) new).at? place = some (.file c) := by
  induction above generalizing t with
  | nil =>
      obtain ⟨entries, hentries⟩ := shapeAt?_eq_directory.mp h
      obtain rfl : t = .directory entries := by simpa using hentries
      refine ⟨by simp [put, at?_cons, lookup_insertEntry], ?_⟩
      rintro (_ | ⟨first, rest⟩) hplace
      · exact ⟨rfl, fun c hc => by simp at hc⟩
      · have hfirst : first ≠ name := by
          rintro rfl
          exact hplace ⟨rest, rfl⟩
        simp only [List.nil_append, put, shapeAt?, at?_cons, lookup_insertEntry, hfirst, if_false]
        exact ⟨trivial, fun c hc => hc⟩
  | cons first above ih =>
      obtain ⟨entries, hentries⟩ := shapeAt?_eq_directory.mp h
      rw [at?_cons] at hentries
      cases t with
      | file c => simp at hentries
      | link target => simp at hentries
      | directory outer =>
          obtain ⟨inner, hinner, hat⟩ := Option.bind_eq_some_iff.mp hentries
          obtain ⟨hsame, hothers⟩ := ih (shapeAt?_eq_directory.mpr ⟨entries, hat⟩)
          simp only [List.cons_append, put, hinner, Option.getD_some]
          refine ⟨by simp [at?_cons, lookup_insertEntry, hsame], ?_⟩
          rintro (_ | ⟨other, rest⟩) hplace
          · exact ⟨rfl, fun c hc => by simp at hc⟩
          · by_cases hother : other = first
            · subst hother
              have hrest : ¬ (above ++ [name]) <+: rest := fun hprefix =>
                hplace (List.cons_prefix_cons.mpr ⟨rfl, hprefix⟩)
              simpa [shapeAt?, at?_cons, lookup_insertEntry, hinner] using hothers rest hrest
            · simp only [shapeAt?, at?_cons, lookup_insertEntry, hother, if_false]
              exact ⟨trivial, fun c hc => hc⟩

/-- Outside of a place to which something was put, the same files are there. -/
theorem at?_put_eq_file_iff {t : FileTree} {above place : Location} {name : String}
    (h : t.shapeAt? above = some .directory) (new : FileTree) (hplace : ¬ (above ++ [name]) <+: place)
    {c : Contents} :
    (t.put (above ++ [name]) new).at? place = some (.file c) ↔ t.at? place = some (.file c) := by
  obtain ⟨hshape, hkeeps⟩ := (at?_put h new).2 place hplace
  constructor
  · intro hc
    obtain ⟨d, hd⟩ := shapeAt?_eq_file.mp (hshape.symm.trans (shapeAt?_eq_file.mpr ⟨c, hc⟩))
    rw [hd, ← hkeeps d hd]
    exact hc
  · exact hkeeps c

theorem at?_eq_none_of_isPrefix {t : FileTree} {place below : Location} (h : place <+: below)
    (hne : below ≠ place) (hplace : t.shapeAt? place ≠ some .directory) : t.at? below = none := by
  obtain ⟨more, rfl⟩ := h
  rw [at?_append]
  cases hat : t.at? place with
  | none => rfl
  | some inner =>
      cases more with
      | nil => simp at hne
      | cons name rest =>
          rw [Option.bind_some, at?_cons]
          cases inner with
          | directory entries => exact absurd (shapeAt?_eq_directory.mpr ⟨entries, hat⟩) hplace
          | file c => rfl
          | link target => rfl

/-- A tree grows if something is put where nothing was, or a file in the place of a file. -/
theorem growsTo_put {t : FileTree} {place : Location} (hroom : t.HasRoom place) {new : FileTree}
    (h : ∀ s, t.shapeAt? place = some s → s = .file ∧ new.shape = .file) :
    t.GrowsTo (t.put place new) := by
  obtain ⟨above, name, rfl, habove⟩ := hroom
  obtain ⟨hnew, hothers⟩ := at?_put habove new
  intro other s hs
  by_cases hsame : other = above ++ [name]
  · subst hsame
    obtain ⟨rfl, hfile⟩ := h s hs
    rw [shapeAt?, hnew, Option.map_some, hfile]
  · by_cases hprefix : (above ++ [name]) <+: other
    · have hnot : t.shapeAt? (above ++ [name]) ≠ some .directory := fun hdir => by
        simpa using (h _ hdir).1
      rw [shapeAt?, at?_eq_none_of_isPrefix hprefix hsame hnot] at hs
      simp at hs
    · rw [(hothers other hprefix).1]
      exact hs

/-- A file in the place of a file changes nothing but what it holds. -/
theorem shapeAt?_put_file {t : FileTree} {place : Location} (hroom : t.HasRoom place)
    (hfile : t.shapeAt? place = some .file) (c : Contents) (other : Location) :
    (t.put place (.file c)).shapeAt? other = t.shapeAt? other := by
  obtain ⟨above, name, rfl, habove⟩ := hroom
  obtain ⟨hnew, hothers⟩ := at?_put habove (.file c)
  have hput : (t.put (above ++ [name]) (.file c)).shapeAt? (above ++ [name]) = some .file := by
    rw [shapeAt?, hnew]
    rfl
  by_cases hsame : other = above ++ [name]
  · subst hsame
    rw [hput, hfile]
  · by_cases hprefix : (above ++ [name]) <+: other
    · have hbefore := at?_eq_none_of_isPrefix hprefix hsame (by rw [hfile]; nofun)
      have hafter := at?_eq_none_of_isPrefix hprefix hsame (by rw [hput]; nofun)
      rw [shapeAt?, shapeAt?, hbefore, hafter]
    · exact (hothers other hprefix).1

/-- Files in other places hold what they held. -/
theorem at?_put_of_file {t : FileTree} {place : Location} (hroom : t.HasRoom place)
    (hplace : t.shapeAt? place ≠ some .directory) (new : FileTree) {other : Location} {c : Contents}
    (hother : t.at? other = some (.file c)) (hne : other ≠ place) :
    (t.put place new).at? other = some (.file c) := by
  obtain ⟨above, name, rfl, habove⟩ := hroom
  refine ((at?_put habove new).2 other ?_).2 c hother
  intro hprefix
  rw [at?_eq_none_of_isPrefix hprefix hne hplace] at hother
  contradiction

theorem put_self {t : FileTree} {place : Location} {new : FileTree} (h : t.at? place = some new) :
    t.put place new = t := by
  induction place generalizing t with
  | nil =>
      obtain rfl : t = new := by simpa using h
      cases t <;> rfl
  | cons name rest ih =>
      rw [at?_cons] at h
      cases t with
      | file c => simp at h
      | link target => simp at h
      | directory entries =>
          obtain ⟨inner, hinner, hrest⟩ := Option.bind_eq_some_iff.mp h
          rw [put, hinner, Option.getD_some, ih hrest]
          congr 1
          clear h
          induction entries with
          | nil => simp at hinner
          | cons e entries ih' =>
              obtain ⟨first, t⟩ := e
              rw [OrderedMap.insertEntry]
              rw [OrderedMap.lookup_cons_eq] at hinner
              split at hinner
              · next hname =>
                  obtain rfl : first = name := hname.symm
                  rw [if_pos rfl, ← Option.some.inj hinner]
              · next hname =>
                  rw [if_neg (Ne.symm hname), ih' hinner]

end FileTree

end Localization
