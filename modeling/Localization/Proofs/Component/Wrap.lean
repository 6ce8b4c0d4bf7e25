import Localization.Component.Wrap

/-!
The outcomes of wrapping a source.
-/

namespace Localization

open Source (Node)

variable {o : WrapOptions} {path : String} {source : List Char}

theorem mapError_eq_ok {ε δ α : Type} {f : ε → δ} {x : Except ε α} {a : α} :
    x.mapError f = .ok a ↔ x = .ok a := by
  cases x with
  | ok b =>
      change Except.ok b = Except.ok a ↔ _
      simp only [Except.ok.injEq]
  | error e =>
      change Except.error (f e) = Except.ok a ↔ _
      simp

/-- A source is rewritten when it reads as a module, some component of it changes, and the edits can be
applied. -/
theorem wrapSource?_eq_some {w : WrappedSource} (h : wrapSource? o path source = .ok (some w)) :
    ∃ module, Source.parseFile path source = .ok module ∧
      (wrapModule o source module).components ≠ [] ∧
      w.changes = wrapModule o source module ∧
      w.importChange = (withImport o source module w.changes).1 ∧
      Edit.applyAll source (withImport o source module w.changes).2 = .ok w.output := by
  simp only [wrapSource?, bind, Except.bind] at h
  split at h
  · contradiction
  · next module hparse =>
      split at h
      · simp at h
      · next hchanged =>
          split at h
          · contradiction
          · next output houtput =>
              simp only [Except.ok.injEq, Option.some.injEq] at h
              subst h
              exact ⟨module, mapError_eq_ok.mp hparse, by simpa using hchanged, rfl, rfl,
                mapError_eq_ok.mp houtput⟩

/-- A source is left alone when it reads as a module of which no component changes. -/
theorem wrapSource?_eq_none_iff : wrapSource? o path source = .ok none ↔
    ∃ module, Source.parseFile path source = .ok module ∧
      (wrapModule o source module).components = [] := by
  constructor
  · intro h
    simp only [wrapSource?, bind, Except.bind] at h
    split at h
    · contradiction
    · next module hparse =>
        split at h
        · next hnone => exact ⟨module, mapError_eq_ok.mp hparse, by simpa using hnone⟩
        · split at h
          · contradiction
          · simp at h
  · rintro ⟨module, hparse, hnone⟩
    have hread := (mapError_eq_ok (f := WrapError.syntaxError)).mpr hparse
    simp [wrapSource?, bind, Except.bind, hread, hnone]

/-- Whether a candidate receives the hook when a text in it is wrapped. -/
def Found.needsHook (f : Found) : Bool :=
  !f.bindsLookup && !f.candidate.callsHook

/-- Whether a candidate has a text that is to be wrapped. -/
def Found.changes (f : Found) (o : WrapOptions) (source : List Char) : Bool :=
  !(f.candidate.literals source o.classifier).isEmpty

theorem Found.isSome_hook (f : Found) (source : List Char) (space : Option String) :
    (if f.bindsLookup then none else f.candidate.hookEdits? source space).isSome = f.needsHook := by
  simp only [Found.needsHook, Candidate.hookEdits?]
  cases f.bindsLookup with
  | true => rfl
  | false =>
      cases f.candidate.callsHook with
      | true => rfl
      | false =>
          cases f.candidate.hasBlock with
          | true => rfl
          | false => rfl

/-- The key of a text does not depend on the keys that were given before. -/
theorem fst_assignKeys (generator : KeyGenerator) (keys : KeyMap) (literals : List Literal) :
    (assignKeys generator keys literals).1 =
      literals.map fun l => (l, (generator.keyFor l.text OrderedMap.empty).1) := by
  induction literals generalizing keys with
  | nil => rfl
  | cons l rest ih =>
      have hkey : (generator.keyFor l.text keys).1 =
          (generator.keyFor l.text OrderedMap.empty).1 := by
        simp only [KeyGenerator.keyFor]
        split
        · rfl
        · rfl
      rw [assignKeys, List.map_cons, ← hkey, ← ih (generator.keyFor l.text keys).2]

/-- The edits that insert the hook into a candidate, if it receives it. -/
def Found.hookEdits (f : Found) (source : List Char) (space : Option String) : List Edit :=
  (if f.bindsLookup then none else f.candidate.hookEdits? source space).getD []

/-- The edits for one candidate: its texts are replaced, and the hook is inserted. -/
def Found.edits (f : Found) (o : WrapOptions) (source : List Char) : List Edit :=
  (f.candidate.literals source o.classifier).map
      (fun l => replacementEdit l (o.generator.keyFor l.text OrderedMap.empty).1) ++
    f.hookEdits source o.space

/-- A candidate with a text to be wrapped adds its edits, its texts and itself. -/
theorem Changes.wrapCandidate_eq {f : Found} (h : f.changes o source = true) (c : Changes) :
    c.wrapCandidate o source f =
      { edits := c.edits ++ f.edits o source
        replacements := c.replacements ++ (f.candidate.literals source o.classifier).map fun l =>
          replacementOf source l (o.generator.keyFor l.text OrderedMap.empty).1
        components := c.components ++ [⟨f.candidate.name, f.needsHook⟩]
        keys := (assignKeys o.generator c.keys (f.candidate.literals source o.classifier)).2 } := by
  have hsome : (f.candidate.literals source o.classifier).isEmpty = false := by
    simpa [Found.changes] using h
  simp only [wrapCandidate, hsome, Bool.false_eq_true, if_false, fst_assignKeys, Found.isSome_hook,
    Found.edits, Found.hookEdits, List.map_map, List.append_assoc, Function.comp_def]

theorem Changes.wrapCandidate_of_not_changes {f : Found} (h : f.changes o source = false) (c : Changes) :
    c.wrapCandidate o source f = c := by
  have hnone : (f.candidate.literals source o.classifier).isEmpty = true := by
    simpa [Found.changes] using h
  rw [wrapCandidate, if_pos hnone]

/-- What holds at the beginning, and still holds after one more candidate with a text to be wrapped, holds of
the changes of a module. -/
theorem wrapModule_induction {module : Node} {P : Changes → List Found → Prop} (hempty : P Changes.empty [])
    (hstep : ∀ c found f, f ∈ moduleCandidates module → f.changes o source = true → P c found →
      P (c.wrapCandidate o source f) (found ++ [f])) :
    P (wrapModule o source module) ((moduleCandidates module).filter fun f => f.changes o source) := by
  have hfold : ∀ (rest found : List Found) (c : Changes), rest ⊆ moduleCandidates module → P c found →
      P (rest.foldl (Changes.wrapCandidate o source) c)
        (found ++ rest.filter fun f => f.changes o source) := by
    intro rest
    induction rest with
    | nil => exact fun found c _ h => by rwa [List.filter_nil, List.append_nil]
    | cons f rest ih =>
        intro found c hrest h
        have hmore : rest ⊆ moduleCandidates module := List.Subset.trans (List.subset_cons_self f rest) hrest
        rw [List.foldl_cons, List.filter_cons]
        cases hchanges : f.changes o source with
        | false =>
            rw [Changes.wrapCandidate_of_not_changes hchanges]
            exact ih found c hmore h
        | true =>
            rw [if_pos rfl, List.append_cons]
            exact ih _ _ hmore (hstep c found f (hrest List.mem_cons_self) hchanges h)
  exact hfold _ [] _ (List.Subset.refl _) hempty

/-- The components on record are the candidates with a text to be wrapped, in the order of a walk. -/
theorem components_wrapModule (o : WrapOptions) (source : List Char) (module : Node) :
    (wrapModule o source module).components =
      ((moduleCandidates module).filter fun f => f.changes o source).map fun f =>
        ⟨f.candidate.name, f.needsHook⟩ := by
  refine wrapModule_induction (P := fun c found => c.components = found.map fun f =>
    ⟨f.candidate.name, f.needsHook⟩) rfl fun c found f _ hchanges h => ?_
  rw [Changes.wrapCandidate_eq hchanges, h, List.map_append, List.map_singleton]

/-- A hook is inserted when a candidate with a text to be wrapped needs it. -/
theorem hookCount_wrapModule_pos {o : WrapOptions} {source : List Char} {module : Node} :
    0 < (wrapModule o source module).hookCount ↔
      ∃ f ∈ moduleCandidates module, f.changes o source = true ∧ f.needsHook = true := by
  simp only [Changes.hookCount, components_wrapModule, List.length_pos_iff_exists_mem,
    List.mem_filter, List.mem_map]
  constructor
  · rintro ⟨_, ⟨f, ⟨hf, hchanges⟩, rfl⟩, hhook⟩
    exact ⟨f, hf, hchanges, hhook⟩
  · rintro ⟨f, hf, hchanges, hhook⟩
    exact ⟨_, ⟨f, ⟨hf, hchanges⟩, rfl⟩, hhook⟩

/-- The edits of a module are those of its candidates with a text to be wrapped. -/
theorem edits_wrapModule (o : WrapOptions) (source : List Char) (module : Node) :
    (wrapModule o source module).edits =
      ((moduleCandidates module).filter fun f => f.changes o source).flatMap fun f =>
        f.edits o source := by
  refine wrapModule_induction (P := fun c found => c.edits = found.flatMap fun f => f.edits o source)
    rfl fun c found f _ hchanges h => ?_
  rw [Changes.wrapCandidate_eq hchanges, h, List.flatMap_append, List.flatMap_singleton]

/-- Settings under which Korean texts are wrapped and stand for themselves. -/
def koreanOptions (space : Option String) : WrapOptions :=
  ⟨⟨.one (.range 0xAC00 0xD7A3)⟩, KeyGenerator.make false none, "i18nexus", space⟩

/-- A component with one text. -/
def paragraph : List Char :=
  "function A() \x7b return <p>안녕</p>; \x7d\n".toList

def wrappedParagraph : List Char :=
  ("import \x7b useTranslation \x7d from \"i18nexus\";\n" ++
    "function A() \x7b const \x7b t \x7d = useTranslation(); " ++
    "return <p>\x7bt(\"안녕\")\x7d</p>; \x7d\n").toList

/-- What is known about the outcome of a concrete run holds of its result. -/
theorem exists_wrapped (o : WrapOptions) (path : String) (source : List Char)
    {p : WrappedSource → Bool} (h : ((wrapSource? o path source).toOption.join.any p) = true) :
    ∃ w, wrapSource? o path source = .ok (some w) ∧ p w = true := by
  cases hrun : wrapSource? o path source with
  | error e => simp [hrun, Except.toOption] at h
  | ok result =>
      cases result with
      | none => simp [hrun, Except.toOption] at h
      | some w => exact ⟨w, rfl, by simpa [hrun, Except.toOption] using h⟩

theorem exists_module (path : String) (source : List Char) {p : Node → Bool}
    (h : ((Source.parseFile path source).toOption.any p) = true) :
    ∃ module, Source.parseFile path source = .ok module ∧ p module = true := by
  cases hparse : Source.parseFile path source with
  | error e => simp [hparse, Except.toOption] at h
  | ok module => exact ⟨module, rfl, by simpa [hparse, Except.toOption] using h⟩

end Localization
