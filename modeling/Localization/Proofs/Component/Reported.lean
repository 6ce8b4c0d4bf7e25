import Localization.Proofs.Component.Spared

/-!
What a wrapping reports, and what it writes. The texts on record, the edits and the keys of a module are those
of its components, each with its share; a component has the hook unless it finds the lookup function bound or
calls the hook. Calls that are written in another way than `useTranslation(...)` are overlooked. Main statement:
`wrapSource_reports_iff`.
-/

namespace Localization

open Source (Node Kind)

/-! ### Calls of the hook -/

/-- Whether an expression is the hook, however it is written. -/
def isHook : Node → Bool
  | .mk (.identifier name) _ _ => name == hookName
  | .mk kind _ (inner :: _) => kind.isTransparent && isHook inner
  | _ => false

/-- Whether a node calls the hook, also in an optional chain. -/
def isAnyHookCall (n : Node) : Bool :=
  (n.kind == .call || n.kind == .chainCall) && n.children.head?.any isHook

theorem isAnyHookCall_of_isHookCall {n : Node} (h : isHookCall n = true) : isAnyHookCall n = true := by
  obtain ⟨kind, span, children⟩ := n
  rw [isHookCall] at h
  split at h
  · next callee rest hkind hchildren =>
      obtain ⟨inner, place, parts⟩ := callee
      obtain rfl : inner = .identifier hookName := beq_iff_eq.mp h
      simp only [Node.kind_mk, Node.children_mk] at hkind hchildren
      subst hkind hchildren
      simp [isAnyHookCall, isHook]
  · contradiction

/-! ### Shares of a report -/

/-- What a wrapping did in one component: its entry in the report, the texts on record and the edits. -/
structure ComponentShare where
  found : Found
  component : ChangedComponent
  replacements : List Replacement
  edits : List Edit

/-- The edit `e` puts the call on record as `r` in the place of a text in a node. -/
def IsWrittenBy (source : List Char) (n : Node) (r : Replacement) (e : Edit) : Prop :=
  ∃ way l, n.IsWay way ∧ Literal.ofNode? source (n.endOf way) = some l ∧
    r = replacementOf source l r.key ∧ e = replacementEdit l r.key

/-- Whether an edit inserts the statement that declares the lookup function. -/
def Edit.declaresLookup (space : Option String) (e : Edit) : Bool :=
  e.isInsertion && decide ((hookStatement space).toList <:+: e.text.toList)

namespace ComponentShare

/-- The lookup function is bound neither in a component nor around it. -/
def LacksLookup (s : ComponentShare) : Prop :=
  lookupName ∉ s.found.candidate.bindings ∧ s.found.scopes.binds lookupName = false

/-- The share of a component fits together: texts in its body were replaced, each of them is on record with the
key that is written in its place, and it has one hook, or nothing inserted. -/
structure IsAccurate (s : ComponentShare) (o : WrapOptions) (source : List Char) : Prop where
  name : s.component.name = s.found.candidate.name
  replaced : s.replacements ≠ []
  written : List.Forall₂ (IsWrittenBy source s.found.candidate.body) s.replacements
    (s.edits.filter fun e => !e.isInsertion)
  hooks : (s.edits.filter (Edit.declaresLookup o.space)).length = if s.component.hookInserted then 1 else 0
  plain : s.component.hookInserted = false → ∀ e ∈ s.edits, e.isInsertion = false
  hooked : s.component.hookInserted = true ↔
    s.LacksLookup ∧ ∀ n ∈ s.found.candidate.body.walk, isHookCall n = false

/-- A component has the hook exactly if it lacks the lookup function and nothing in its body calls the hook. -/
def IsHookedAsNeeded (s : ComponentShare) : Prop :=
  s.component.hookInserted = true ↔
    s.LacksLookup ∧ ∀ n ∈ s.found.candidate.body.walk, isAnyHookCall n = false

/-- A component that lacks the lookup function calls the hook, but always in another way than by its name. -/
def CallsHookOtherwise (s : ComponentShare) : Prop :=
  s.LacksLookup ∧ (∀ n ∈ s.found.candidate.body.walk, isHookCall n = false) ∧
    ∃ n ∈ s.found.candidate.body.walk, isAnyHookCall n = true

theorem IsAccurate.isHookedAsNeeded_iff {s : ComponentShare} {o : WrapOptions} {source : List Char}
    (h : s.IsAccurate o source) : s.IsHookedAsNeeded ↔ ¬ s.CallsHookOtherwise := by
  have hplain (hnone : ∀ n ∈ s.found.candidate.body.walk, isAnyHookCall n = false) :
      ∀ n ∈ s.found.candidate.body.walk, isHookCall n = false := by
    intro n hn
    by_contra hcall
    rw [Bool.not_eq_false] at hcall
    exact Bool.false_ne_true ((hnone n hn).symm.trans (isAnyHookCall_of_isHookCall hcall))
  rw [IsHookedAsNeeded, h.hooked, CallsHookOtherwise]
  constructor
  · rintro hiff ⟨hlacks, hcalls, n, hn, hcall⟩
    have hnone := (hiff.mp ⟨hlacks, hcalls⟩).2 n hn
    exact Bool.false_ne_true (hnone.symm.trans hcall)
  · intro hnot
    refine ⟨fun hhooked => ⟨hhooked.1, fun n hn => ?_⟩, fun hneeds => ⟨hneeds.1, hplain hneeds.2⟩⟩
    by_contra hcall
    exact hnot ⟨hhooked.1, hhooked.2, n, hn, Bool.not_eq_false _ ▸ hcall⟩

end ComponentShare

/-- The keys of calls on record, recorded one after the other. -/
def KeyMap.ofReplacements (replacements : List Replacement) : KeyMap :=
  replacements.foldl (fun keys r => keys.insert r.key r.text) OrderedMap.empty

/-- Changes are made of shares of components. -/
structure Changes.AddUp (c : Changes) (o : WrapOptions) (source : List Char)
    (shares : List ComponentShare) : Prop where
  accurate : ∀ s ∈ shares, s.IsAccurate o source
  components : c.components = shares.map ComponentShare.component
  replacements : c.replacements = shares.flatMap ComponentShare.replacements
  edits : c.edits = shares.flatMap ComponentShare.edits
  keys : c.keys = if o.generator.enabled then KeyMap.ofReplacements c.replacements else OrderedMap.empty

/-! ### The share of a component -/

theorem Literal.start_lt_stop {source : List Char} {n : Node} {g : Source.Gap} {l : Literal}
    (hn : n.Clear g) (h : ofNode? source n = some l) : l.start < l.stop := by
  rw [ofNode?] at h
  split at h
  · next hkind =>
      obtain rfl := Option.some.inj h
      exact hn.filled (by rw [hkind]; rfl) (by rw [hkind]; rfl)
  · next hkind =>
      obtain rfl := Option.some.inj h
      exact hn.filled (by rw [hkind]; rfl) (by rw [hkind]; rfl)
  · next hkind =>
      split at h
      · obtain rfl := Option.some.inj h
        exact hn.filled (by rw [hkind]; rfl) (by rw [hkind]; rfl)
      · contradiction
  · exact (range_inside_of_ofElementText? h).2
  · contradiction

section

variable {o : WrapOptions} {source : List Char} {f : Found}

theorem isInsertion_replacementEdit {l : Literal} (h : l.start < l.stop) (key : String) :
    (replacementEdit l key).isInsertion = false :=
  beq_eq_false_iff_ne.mpr (Nat.ne_of_lt h)

theorem Found.needsHook_iff : f.needsHook = true ↔
    (lookupName ∉ f.candidate.bindings ∧ f.scopes.binds lookupName = false) ∧
      ∀ n ∈ f.candidate.body.walk, isHookCall n = false := by
  simp [needsHook, bindsLookup, Candidate.callsHook]

theorem Found.hookEdits_of_not_needsHook (h : f.needsHook = false) (space : Option String) :
    f.hookEdits source space = [] := by
  have hnone := f.isSome_hook source space
  rw [h, Option.isSome_eq_false_iff, Option.isNone_iff_eq_none] at hnone
  rw [hookEdits, hnone]
  rfl

theorem infix_statementInBlock (statement : String) (block : Node) :
    statement.toList <:+: (Candidate.statementInBlock source statement block).toList := by
  unfold Candidate.statementInBlock
  split
  · exact ⟨[' '], [' '], by simp⟩
  · split
    · exact ⟨[' '], [], by simp⟩
    · exact ⟨_, [], by rw [List.append_nil, String.toList_append]⟩

theorem Edit.declaresLookup_insert {space : Option String} (place : Nat) {text : String}
    (h : (hookStatement space).toList <:+: text.toList) :
    (Edit.insert place text).declaresLookup space = true := by
  rw [declaresLookup, isInsertion_insert, Bool.true_and]
  exact decide_eq_true h

theorem length_hookStatement (space : Option String) : 3 < (hookStatement space).toList.length := by
  simp only [hookStatement, lookupName, hookName, String.toList_append, List.length_append]
  have hlength : "const \x7b ".toList.length = 8 := by decide
  omega

theorem Found.length_declaring_hookEdits (f : Found) (source : List Char) (space : Option String) :
    ((f.hookEdits source space).filter (Edit.declaresLookup space)).length =
      if f.needsHook then 1 else 0 := by
  cases hneeds : f.needsHook with
  | false => rw [f.hookEdits_of_not_needsHook hneeds]; rfl
  | true =>
      have hcalls : f.bindsLookup = false ∧ f.candidate.callsHook = false := by
        simpa [needsHook] using hneeds
      rw [hookEdits, hcalls.1, if_neg Bool.false_ne_true, Candidate.hookEdits?, hcalls.2,
        if_neg Bool.false_ne_true]
      split
      · rw [Option.getD_some, List.filter_cons_of_pos
          (Edit.declaresLookup_insert _ (infix_statementInBlock _ _))]
        rfl
      -- A body without braces gets two insertions, of which the closing one is too short for a hook.
      · have hopening : (hookStatement space).toList <:+:
            ("\x7b " ++ hookStatement space ++ " return ").toList :=
          ⟨"\x7b ".toList, " return ".toList, by simp⟩
        have hclosing : ¬ (Edit.insert f.candidate.body.span.hi "; \x7d").declaresLookup space = true := by
          intro h
          have hle := (of_decide_eq_true (Bool.and_eq_true_iff.mp h).2).length_le
          have hthree : "; \x7d".toList.length = 3 := by decide
          exact Nat.not_lt.mpr (hle.trans_eq hthree) (length_hookStatement space)
        rw [Option.getD_some, List.filter_cons_of_pos (Edit.declaresLookup_insert _ hopening),
          List.filter_cons_of_neg hclosing]
        rfl

/-- What a wrapping does in a candidate with texts to be wrapped. -/
def Found.share (f : Found) (o : WrapOptions) (source : List Char) : ComponentShare where
  found := f
  component := ⟨f.candidate.name, f.needsHook⟩
  replacements := (f.candidate.literals source o.classifier).map fun l => replacementOf source l (o.keyOf l)
  edits := f.edits o source

theorem Found.filter_edits (h : ∀ l ∈ f.candidate.literals source o.classifier, l.start < l.stop)
    (p : Edit → Bool) (hreplaces : ∀ e : Edit, e.isInsertion = false → p e = false) :
    (f.edits o source).filter p = (f.hookEdits source o.space).filter p := by
  rw [edits, List.filter_append, List.filter_eq_nil_iff.mpr, List.nil_append]
  intro e he
  obtain ⟨l, hl, rfl⟩ := List.mem_map.mp he
  rw [hreplaces _ (isInsertion_replacementEdit (h l hl) _)]
  exact Bool.false_ne_true

theorem Found.filter_not_isInsertion (h : ∀ l ∈ f.candidate.literals source o.classifier, l.start < l.stop) :
    ((f.edits o source).filter fun e => !e.isInsertion) =
      (f.candidate.literals source o.classifier).map fun l => replacementEdit l (o.keyOf l) := by
  rw [edits, List.filter_append, List.filter_eq_self.mpr, List.filter_eq_nil_iff.mpr, List.append_nil]
  · rfl
  · intro e he
    rw [isInsertion_of_mem_hookEdits he]
    exact Bool.false_ne_true
  · intro e he
    obtain ⟨l, hl, rfl⟩ := List.mem_map.mp he
    rw [isInsertion_replacementEdit (h l hl)]
    rfl

theorem Found.isAccurate_share (hchanges : f.changes o source = true)
    (h : ∀ l ∈ f.candidate.literals source o.classifier, l.start < l.stop) :
    (f.share o source).IsAccurate o source where
  name := rfl
  replaced := by
    rw [changes, Bool.not_eq_true', List.isEmpty_eq_false_iff] at hchanges
    exact fun hnone => hchanges (List.map_eq_nil_iff.mp hnone)
  written := by
    change List.Forall₂ _ (List.map _ _) ((f.edits o source).filter _)
    rw [filter_not_isInsertion h, List.forall₂_map_left_iff, List.forall₂_map_right_iff, List.forall₂_same]
    intro l hl
    obtain ⟨way, hway, hliteral⟩ :=
      Literal.exists_way_of_mem_collect false f.candidate.body l (List.mem_filter.mp hl).1
    exact ⟨way, l, hway, hliteral, rfl, rfl⟩
  hooks := by
    change ((f.edits o source).filter _).length = if f.needsHook then 1 else 0
    rw [filter_edits h, f.length_declaring_hookEdits]
    intro e he
    rw [Edit.declaresLookup, he, Bool.false_and]
  plain := by
    intro hneeds e he
    change e ∈ f.edits o source at he
    rw [edits, f.hookEdits_of_not_needsHook hneeds, List.append_nil] at he
    obtain ⟨l, hl, rfl⟩ := List.mem_map.mp he
    exact isInsertion_replacementEdit (h l hl) _
  hooked := f.needsHook_iff

end

/-! ### Changes of a module -/

theorem snd_assignKeys (generator : KeyGenerator) (keys : KeyMap) (literals : List Literal) :
    (assignKeys generator keys literals).2 =
      if generator.enabled then
        (assignKeys generator keys literals).1.foldl (fun keys l => keys.insert l.2 l.1.text) keys
      else keys := by
  induction literals generalizing keys with
  | nil => simp [assignKeys]
  | cons l rest ih =>
      rw [assignKeys, ih]
      cases henabled : generator.enabled with
      | false => simp [KeyGenerator.keyFor, henabled]
      | true => simp [KeyGenerator.keyFor, henabled]

variable {o : WrapOptions} {source : List Char}

theorem addUp_empty : Changes.empty.AddUp o source [] where
  accurate := nofun
  components := rfl
  replacements := rfl
  edits := rfl
  keys := by cases o.generator.enabled <;> rfl

theorem Changes.AddUp.wrapCandidate {c : Changes} {shares : List ComponentShare} (h : c.AddUp o source shares)
    {f : Found} (hchanges : f.changes o source = true)
    (hliterals : ∀ l ∈ f.candidate.literals source o.classifier, l.start < l.stop) :
    (c.wrapCandidate o source f).AddUp o source (shares ++ [f.share o source]) := by
  rw [Changes.wrapCandidate_eq hchanges]
  refine ⟨?_, ?_, ?_, ?_, ?_⟩
  · intro s hs
    rcases List.mem_append.mp hs with hbefore | hnew
    · exact h.accurate s hbefore
    · rw [List.mem_singleton.mp hnew]
      exact Found.isAccurate_share hchanges hliterals
  · rw [h.components, List.map_append]
    rfl
  · rw [h.replacements, List.flatMap_append, List.flatMap_singleton]
    rfl
  · rw [h.edits, List.flatMap_append, List.flatMap_singleton]
    rfl
  · simp only [snd_assignKeys, h.keys, fst_assignKeys]
    cases henabled : o.generator.enabled with
    | false => simp
    | true => simp [KeyMap.ofReplacements, List.foldl_append, List.foldl_map, replacementOf]

/-- The changes of a module are the shares of its candidates with texts to be wrapped, in order. -/
theorem addUp_wrapModule {module : Node}
    (h : ∀ f ∈ moduleCandidates module, ∀ l ∈ f.candidate.literals source o.classifier, l.start < l.stop) :
    (wrapModule o source module).AddUp o source
      ((changedCandidates o source module).map fun f => f.share o source) := by
  refine wrapModule_induction (P := fun c found => c.AddUp o source (found.map fun f => f.share o source))
    addUp_empty fun c found f hf hchanges hc => ?_
  rw [List.map_append, List.map_singleton]
  exact hc.wrapCandidate hchanges (h f hf)

/-! ### Reports -/

/-- The report of a wrapping, of which the texts, the edits and the keys are those of different components, in
the order of the module. Besides their edits only the import is written, and it is there if a hook is. -/
structure WrappedSource.Reports (w : WrappedSource) (o : WrapOptions) (source : List Char) (module : Node)
    (shares : List ComponentShare) : Prop extends w.changes.AddUp o source shares where
  inOrder : (shares.map ComponentShare.found).Sublist (moduleCandidates module)
  written : Edit.applyAll source (withImport o source module w.changes).2 = .ok w.output
  imported : ∃ imports, (withImport o source module w.changes).2 = w.changes.edits ++ imports ∧
    ∀ e ∈ imports, e.isInsertion = true
  replacing : w.changes.replacements.length =
    ((withImport o source module w.changes).2.filter fun e => !e.isInsertion).length
  importChange : w.importChange.isSome = true ↔ ∃ c ∈ w.changes.components, c.hookInserted = true

theorem WrappedSource.Reports.mem_moduleCandidates {w : WrappedSource} {module : Node}
    {shares : List ComponentShare} (h : w.Reports o source module shares) {s : ComponentShare}
    (hs : s ∈ shares) : s.found ∈ moduleCandidates module :=
  h.inOrder.subset (List.mem_map_of_mem hs)

theorem Changes.AddUp.components_eq_nil_iff {c : Changes} {shares : List ComponentShare}
    (h : c.AddUp o source shares) : c.components = [] ↔ c.replacements = [] := by
  rw [h.components, h.replacements, List.map_eq_nil_iff, List.flatMap_eq_nil_iff]
  constructor
  · rintro rfl
    exact nofun
  · intro hnone
    by_contra hsome
    obtain ⟨s, hs⟩ := List.exists_mem_of_ne_nil shares hsome
    exact (h.accurate s hs).replaced (hnone s hs)

theorem Changes.AddUp.length_replacements {c : Changes} {shares : List ComponentShare}
    (h : c.AddUp o source shares) :
    c.replacements.length = (c.edits.filter fun e => !e.isInsertion).length := by
  rw [h.replacements, h.edits, List.filter_flatMap, List.length_flatMap, List.length_flatMap]
  congr 1
  exact List.map_congr_left fun s hs => (h.accurate s hs).written.length_eq

theorem isSome_withImport_iff {module : Node} {c : Changes} :
    (withImport o source module c).1.isSome = true ↔ ∃ m ∈ c.components, m.hookInserted = true := by
  have hcount : c.hookCount = 0 ↔ ¬ ∃ m ∈ c.components, m.hookInserted = true := by
    simp [Changes.hookCount]
  rw [withImport]
  split
  · next hnone => simpa using hcount.mp hnone
  · next hsome => simpa using not_not.mp fun hnot => hsome (hcount.mpr hnot)

theorem start_lt_stop_of_parseFile {path : String} {module : Node}
    (hmodule : Source.parseFile path source = .ok module) {f : Found} (hf : f ∈ moduleCandidates module)
    {classifier : Classifier} {l : Literal} (hl : l ∈ f.candidate.literals source classifier) :
    l.start < l.stop := by
  have hbody := (Source.Parser.clear_parseFile hmodule).of_mem_walk (Found.body_mem_walk hf)
  obtain ⟨way, hway, hliteral⟩ :=
    Literal.exists_way_of_mem_collect false f.candidate.body l (List.mem_filter.mp hl).1
  exact Literal.start_lt_stop (hbody.endOf hway) hliteral

/-- A source is left alone exactly if no text of it is replaced. Otherwise the texts on record, the edits, the
components and the keys fit together, and the import is there if a hook is. A component has the hook if it
lacks the lookup function and does not call the hook, except where it calls the hook only in an optional chain,
in parentheses or with an assertion. -/
theorem wrapSource_reports_iff {path : String} {module : Node}
    (hmodule : Source.parseFile path source = .ok module) :
    (wrapSource? o path source = .ok none ↔ (wrapModule o source module).replacements = []) ∧
      ∀ w, wrapSource? o path source = .ok (some w) → ∃ shares, w.Reports o source module shares ∧
        ∀ s ∈ shares, s.IsHookedAsNeeded ↔ ¬ s.CallsHookOtherwise := by
  have hliterals := fun f (hf : f ∈ moduleCandidates module) l
    (hl : l ∈ f.candidate.literals source o.classifier) => start_lt_stop_of_parseFile hmodule hf hl
  have hadd := addUp_wrapModule hliterals
  refine ⟨?_, fun w hw => ?_⟩
  · rw [wrapSource?_eq_none_iff, ← hadd.components_eq_nil_iff]
    constructor
    · rintro ⟨module', hparse, hnone⟩
      rw [hmodule, Except.ok.injEq] at hparse
      rwa [hparse]
    · exact fun hnone => ⟨module, hmodule, hnone⟩
  · obtain ⟨module', hparse, -, hchanges, himport, houtput⟩ := wrapSource?_eq_some hw
    rw [hmodule, Except.ok.injEq] at hparse
    subst hparse
    rw [← hchanges] at hadd
    obtain ⟨imports, himports, hinsertions⟩ := exists_withImport_eq o source module w.changes
    refine ⟨_, ⟨hadd, ?_, houtput, ⟨imports, himports, hinsertions⟩, ?_, ?_⟩, ?_⟩
    · have hfound : ((changedCandidates o source module).map fun f => f.share o source).map
          ComponentShare.found = changedCandidates o source module := by
        rw [List.map_map]
        exact List.map_id _
      rw [hfound]
      exact List.filter_sublist
    · have hnone : imports.filter (fun e => !e.isInsertion) = [] := by
        simpa [List.filter_eq_nil_iff] using hinsertions
      rw [himports, List.filter_append, hnone, List.append_nil, hadd.length_replacements]
    · rw [himport, isSome_withImport_iff]
    · exact fun s hs => (hadd.accurate s hs).isHookedAsNeeded_iff

/-- A component that lacks the lookup function, and one that gets it as a parameter. -/
def paragraphAndLabel : List Char :=
  ("function A() \x7b return <p>안녕</p>; \x7d\n" ++ "const B = (\x7b t \x7d) => <b>네</b>;\n").toList

def generatingOptions : WrapOptions :=
  { koreanOptions none with generator := KeyGenerator.make true (some "app") }

theorem wrapSource_reports_paragraphAndLabel :
    ∃ (w : WrappedSource) (module : Node) (shares : List ComponentShare),
      Source.parseFile "a.tsx" paragraphAndLabel = .ok module ∧
        wrapSource? generatingOptions "a.tsx" paragraphAndLabel = .ok (some w) ∧
        w.Reports generatingOptions paragraphAndLabel module shares ∧
        (∀ s ∈ shares, s.IsHookedAsNeeded) ∧
        w.changes.components = [⟨"A", true⟩, ⟨"B", false⟩] ∧
        w.changes.keys.entries = [("app.안녕", "안녕"), ("app.네", "네")] := by
  obtain ⟨w, hrun, hreport⟩ := exists_wrapped generatingOptions "a.tsx" paragraphAndLabel
    (p := fun w => w.changes.components == [⟨"A", true⟩, ⟨"B", false⟩] &&
      w.changes.keys.entries == [("app.안녕", "안녕"), ("app.네", "네")])
    (by decide +kernel)
  obtain ⟨module, hmodule, hcalls⟩ := exists_module "a.tsx" paragraphAndLabel
    (p := fun module => (moduleCandidates module).all fun f =>
      f.candidate.body.walk.all fun n => !isAnyHookCall n)
    (by decide +kernel)
  rw [Bool.and_eq_true, beq_iff_eq, beq_iff_eq] at hreport
  obtain ⟨-, hsome⟩ := wrapSource_reports_iff (o := generatingOptions) hmodule
  obtain ⟨shares, hshares, hhooked⟩ := hsome w hrun
  refine ⟨w, module, shares, hmodule, hrun, hshares, fun s hs => ?_, hreport⟩
  rw [hhooked s hs]
  rintro ⟨-, -, n, hn, hcall⟩
  have hnone := List.all_eq_true.mp (List.all_eq_true.mp hcalls _ (hshares.mem_moduleCandidates hs)) n hn
  rw [Bool.not_eq_true'] at hnone
  exact Bool.false_ne_true (hnone.symm.trans hcall)

/-- A component that calls the hook in an optional chain. -/
def chainedHook : List Char :=
  "function A() \x7b const i = useTranslation?.(); return <p>안녕</p>; \x7d\n".toList

/-- A hook is inserted into a component that calls the hook already, in an optional chain. -/
theorem wrapSource_not_always_hooked_as_needed :
    ¬ ∀ (o : WrapOptions) (path : String) (source : List Char) (w : WrappedSource) (module : Node),
      Source.parseFile path source = .ok module → wrapSource? o path source = .ok (some w) →
        ∃ shares, w.Reports o source module shares ∧ ∀ s ∈ shares, s.IsHookedAsNeeded := by
  intro hall
  obtain ⟨w, hrun, hhooks⟩ := exists_wrapped (koreanOptions none) "a.tsx" chainedHook
    (p := fun w => w.changes.components.any fun c => c.hookInserted) (by decide +kernel)
  obtain ⟨module, hmodule, hcalls⟩ := exists_module "a.tsx" chainedHook
    (p := fun module => (moduleCandidates module).all fun f => f.candidate.body.walk.any isAnyHookCall)
    (by decide +kernel)
  obtain ⟨shares, hshares, hhooked⟩ := hall _ _ _ w module hmodule hrun
  rw [hshares.components, List.any_map] at hhooks
  obtain ⟨s, hs, hinserted⟩ := List.any_eq_true.mp hhooks
  obtain ⟨-, hnone⟩ := (hhooked s hs).mp hinserted
  obtain ⟨n, hn, hcall⟩ :=
    List.any_eq_true.mp (List.all_eq_true.mp hcalls _ (hshares.mem_moduleCandidates hs))
  exact Bool.false_ne_true ((hnone n hn).symm.trans hcall)

end Localization
