import Localization.Proofs.Component.Candidate
import Localization.Proofs.Component.Wrap
import Localization.Proofs.Edit.Piece

/-!
The calls that a wrapping emits. Every call stands at the end of a way through the module, and on that
way the lookup function is bound, or a component calls the hook. Main statement: `emits_wrapModule`.
-/

namespace Localization

open Source (Node ScopeStack)

theorem NamesFunction.exists_way {n f : Node} {name : String} (h : NamesFunction n name f) :
    ∃ way, n.IsWay way ∧ n.endOf way = f := by
  cases h with
  | declaration span binder => exact ⟨[f], ⟨by simp, trivial⟩, rfl⟩
  | defaultExport span inner binder =>
      exact ⟨[_, f], ⟨List.mem_singleton_self _, by simp, trivial⟩, rfl⟩
  | value span inner types _ value =>
      obtain ⟨way, hway, hend⟩ := Node.exists_way_unparenthesized value
      exact ⟨value :: way, ⟨by simp, hway⟩, hend⟩

/-- The body of a candidate stands below its node, and the names bound by the candidate are in scope
there. -/
theorem Candidate.exists_way_of_ofNode? {n : Node} {c : Candidate} (h : ofNode? n = some c) :
    ∃ way, n.IsWay way ∧ n.endOf way = c.body ∧ c.body ∈ way ∧
      ∀ name more, name ∈ c.bindings → Node.BoundOn name (n :: (way ++ more)) := by
  obtain ⟨f, hnamed, -, hbody, hbindings⟩ := exists_function_of_ofNode? h
  obtain ⟨way, hway, rfl⟩ := hnamed.exists_way
  have hpart := List.mem_of_find?_eq_some hbody
  have hkind := List.find?_some hbody
  refine ⟨way ++ [c.body], Node.isWay_append hway ⟨hpart, trivial⟩, by simp, by simp, ?_⟩
  intro name more hname
  rw [List.append_assoc]
  apply Node.boundOn_from_end
  rw [hbindings] at hname
  rcases List.mem_append.mp hname with hdeclared | hparameter
  · split at hdeclared
    · next hblock => exact .inr (Node.boundOn_of_block more (beq_iff_eq.mp hblock) hdeclared)
    · simp at hdeclared
  · refine Node.boundOn_of_parameter ?_ hparameter
    simp only [Bool.not_eq_true', Bool.or_eq_false_iff] at hkind
    simp [Node.throughDecorator, hkind]

/-- A scope that is entered on the way to a part of a node binds its names there, unless the way leads
through a decorator. -/
theorem binds_scopesInside {name : String} {scopes : ScopeStack} {n : Node}
    (way : List Node) (h : (scopesInside scopes n).binds name = true) :
    scopes.binds name = true ∨ Node.BoundOn name (n :: way) ∨
      Node.LeavesScopeOf name (n :: way) := by
  simp only [scopesInside] at h
  split at h
  · next names hnames =>
      simp only [ScopeStack.binds_enter, Bool.or_eq_true] at h
      rcases h with hname | hscopes
      · replace hname : name ∈ names := by simpa using hname
        refine .inr ?_
        simp only [openedScope?] at hnames
        split at hnames
        · obtain rfl := Option.some.inj hnames
          exact Node.boundOn_or_leavesScopeOf way hname
        · obtain rfl := Option.some.inj hnames
          exact Node.boundOn_or_leavesScopeOf way hname
        · next hblock =>
            obtain rfl := Option.some.inj hnames
            exact .inl (Node.boundOn_of_block way hblock hname)
        · contradiction
      · exact .inl hscopes
  · exact .inl h

/-- A candidate stands at the end of a way, and the names in scope around it are those in scope above
the way and those that the nodes on the way bind, apart from a way through a decorator. -/
theorem exists_way_of_mem_findCandidates (name : String) :
    ∀ (scopes : ScopeStack) (n : Node) (f : Found), f ∈ findCandidates scopes n →
      ∃ way, n.IsWay way ∧ Candidate.ofNode? (n.endOf way) = some f.candidate ∧
        ∀ more, f.scopes.binds name = true → scopes.binds name = true ∨
          Node.BoundOn name (n :: (way ++ more)) ∨ Node.LeavesScopeOf name (n :: (way ++ more))
  | scopes, .mk kind span children, f, h => by
      rcases findCandidates_cases scopes (.mk kind span children) with
        ⟨c, hcandidate, hfind⟩ | hfind | hfind
      · rw [hfind] at h
        obtain rfl := List.mem_singleton.mp h
        exact ⟨[], trivial, hcandidate, fun more hbinds => .inl hbinds⟩
      · simp [hfind] at h
      · rw [hfind, findCandidatesAll_eq_flatMap] at h
        obtain ⟨part, hpart, hfound⟩ := List.mem_flatMap.mp h
        -- The scopes of the part are those of the node with the one that the node opens.
        obtain ⟨way, hway, hend, hscopes⟩ :=
          exists_way_of_mem_findCandidates name _ part f hfound
        refine ⟨part :: way, ⟨hpart, hway⟩, hend, ?_⟩
        intro more hbinds
        rcases hscopes more hbinds with hinside | hbound | hleaves
        · exact binds_scopesInside _ hinside
        · exact .inr (.inl (.inr hbound))
        · exact .inr (.inr (.inr hleaves))

theorem exists_node_of_mem_moduleCandidates {module : Node} {f : Found}
    (hf : f ∈ moduleCandidates module) :
    ∃ n ∈ module.walk, Candidate.ofNode? n = some f.candidate := by
  rw [moduleCandidates, findCandidatesAll_eq_flatMap] at hf
  obtain ⟨item, hitem, hfound⟩ := List.mem_flatMap.mp hf
  obtain ⟨way, hway, hnode, -⟩ := exists_way_of_mem_findCandidates lookupName _ item f hfound
  refine ⟨item.endOf way, ?_, hnode⟩
  have hmodule : module.IsWay (item :: way) := ⟨hitem, hway⟩
  exact Node.mem_walk_of_isWay hmodule (List.mem_cons_of_mem module (Node.endOf_mem item way))

namespace Literal

theorem exists_way_of_mem_collect {source : List Char} :
    ∀ (translated : Bool) (n : Node) (l : Literal), l ∈ collect source translated n →
      ∃ way, n.IsWay way ∧ ofNode? source (n.endOf way) = some l
  | translated, .mk kind span children, l, h => by
      rcases collect_cases source translated (.mk kind span children) with
        ⟨literal, hliteral, hcollect⟩ | hcollect | hcollect
      · rw [hcollect] at h
        obtain rfl := List.mem_singleton.mp h
        exact ⟨[], trivial, hliteral⟩
      · simp [hcollect] at h
      · rw [hcollect, collectAll_eq_flatMap] at h
        obtain ⟨part, hpart, hfound⟩ := List.mem_flatMap.mp h
        obtain ⟨way, hway, hend⟩ := exists_way_of_mem_collect _ part l hfound
        exact ⟨part :: way, ⟨hpart, hway⟩, hend⟩

end Literal

/-- A call in the place of a literal of a module. -/
structure EmittedCall (source : List Char) (module : Node) where
  way : List Node
  literal : Literal
  key : String
  isWay : module.IsWay way
  isLiteral : Literal.ofNode? source (module.endOf way) = some literal

namespace EmittedCall

variable {source : List Char} {module : Node}

def edit (c : EmittedCall source module) : Edit :=
  replacementEdit c.literal c.key

def record (c : EmittedCall source module) : Replacement :=
  replacementOf source c.literal c.key

/-- A component whose body is around the call. -/
def IsIn (c : EmittedCall source module) (component : Candidate) : Prop :=
  component.body ∈ c.way ∧ ∃ n ∈ c.way, Candidate.ofNode? n = some component

/-- Where the lookup function of a call comes from: a value of the module or a binding around the call,
or the hook of a component around it, which is among the edits. A component that calls the hook by
itself gets none. -/
inductive Provided (space : Option String) (edits : List Edit) (c : EmittedCall source module) :
    Prop where
  | byModule (h : lookupName ∈ Node.valueNames module.children)
  | byScope (h : Node.BoundOn lookupName c.way)
  | byHook (component : Candidate) (inserted : List Edit) (inside : c.IsIn component)
    (isHook : component.hookEdits? source space = some inserted) (isEdit : inserted ⊆ edits)
  | byItself (component : Candidate) (inside : c.IsIn component)
    (callsHook : component.callsHook = true)

theorem Provided.mono {space : Option String} {edits more : List Edit} {c : EmittedCall source module}
    (h : c.Provided space edits) (hmore : edits ⊆ more) : c.Provided space more := by
  cases h with
  | byModule h => exact .byModule h
  | byScope h => exact .byScope h
  | byHook component inserted inside isHook isEdit =>
      exact .byHook component inserted inside isHook fun e he => hmore (isEdit he)
  | byItself component inside callsHook => exact .byItself component inside callsHook

end EmittedCall

/-- A literal of a candidate of a module stands on a way through the candidate. If the candidate finds
the lookup function bound, it is bound on that way, or by the module. -/
theorem exists_call_of_mem_literals {source : List Char} {module : Node} {classifier : Classifier}
    {f : Found} {l : Literal} (hf : f ∈ moduleCandidates module)
    (hl : l ∈ f.candidate.literals source classifier) (key : String) :
    ∃ c : EmittedCall source module, c.literal = l ∧ c.key = key ∧ c.IsIn f.candidate ∧
      (f.bindsLookup = true → lookupName ∈ Node.moduleNames module.children ∨
        Node.BoundOn lookupName c.way ∨ Node.LeavesScopeOf lookupName c.way) := by
  rw [moduleCandidates, findCandidatesAll_eq_flatMap] at hf
  obtain ⟨item, hitem, hfound⟩ := List.mem_flatMap.mp hf
  obtain ⟨above, habove, hnode, hscopes⟩ :=
    exists_way_of_mem_findCandidates lookupName _ item f hfound
  obtain ⟨between, hbetween, hend, hbody, hbindings⟩ := Candidate.exists_way_of_ofNode? hnode
  obtain ⟨inside, hinside, hliteral⟩ :=
    Literal.exists_way_of_mem_collect false f.candidate.body l (List.mem_filter.mp hl).1
  rw [← hend] at hinside hliteral
  have hway : item.IsWay (above ++ (between ++ inside)) :=
    Node.isWay_append habove (Node.isWay_append hbetween hinside)
  refine ⟨⟨item :: (above ++ (between ++ inside)), l, key, ⟨hitem, hway⟩, ?_⟩, rfl, rfl, ?_, ?_⟩
  · simpa using hliteral
  · refine ⟨by simp [hbody], item.endOf above, ?_, hnode⟩
    exact List.mem_append_left _ (Node.endOf_mem item above)
  · intro hbinds
    simp only [Found.bindsLookup, Bool.or_eq_true] at hbinds
    rcases hbinds with hcandidate | haround
    · refine .inr (.inl (Node.boundOn_from_end ?_))
      exact hbindings lookupName inside (by simpa using hcandidate)
    · rcases hscopes (between ++ inside) haround with hmodule | hbound | hleaves
      · refine .inl ?_
        simpa [ScopeStack.binds, ScopeStack.declare, ScopeStack.empty] using hmodule
      · exact .inr (.inl hbound)
      · exact .inr (.inr hleaves)

theorem mem_of_mem_assignKeys {generator : KeyGenerator} {keys : KeyMap} {literals : List Literal}
    {l : Literal × String} (h : l ∈ (assignKeys generator keys literals).1) : l.1 ∈ literals := by
  rw [fst_assignKeys] at h
  obtain ⟨literal, hliteral, rfl⟩ := List.mem_map.mp h
  exact hliteral

theorem exists_calls {source : List Char} {module : Node} {p : EmittedCall source module → Prop}
    (keyed : List (Literal × String))
    (h : ∀ l ∈ keyed, ∃ c : EmittedCall source module, c.literal = l.1 ∧ c.key = l.2 ∧ p c) :
    ∃ calls : List (EmittedCall source module),
      calls.map (fun c => (c.literal, c.key)) = keyed ∧ ∀ c ∈ calls, p c := by
  induction keyed with
  | nil => exact ⟨[], rfl, by simp⟩
  | cons l rest ih =>
      obtain ⟨c, hliteral, hkey, hc⟩ := h l List.mem_cons_self
      obtain ⟨calls, hcalls, hall⟩ := ih fun l' hl' => h l' (List.mem_cons_of_mem l hl')
      refine ⟨c :: calls, by rw [List.map_cons, hliteral, hkey, hcalls], ?_⟩
      intro c' hc'
      rcases List.mem_cons.mp hc' with rfl | hrest
      · exact hc
      · exact hall c' hrest

/-- An edit that is a part of the hook of some component. -/
def IsHookEdit (source : List Char) (space : Option String) (e : Edit) : Prop :=
  ∃ (component : Candidate) (inserted : List Edit),
    component.hookEdits? source space = some inserted ∧ e ∈ inserted

/-- The calls that some changes emit: they are those on record, every other edit is that of a hook, and
each call has its lookup function from somewhere. -/
structure Changes.Emits {source : List Char} {module : Node} (changes : Changes)
    (space : Option String) (calls : List (EmittedCall source module)) : Prop where
  records : calls.map EmittedCall.record = changes.replacements
  complete : ∀ e ∈ changes.edits, e ∈ calls.map EmittedCall.edit ∨ IsHookEdit source space e
  emitted : ∀ c ∈ calls, c.edit ∈ changes.edits
  provided : lookupName ∉ Node.typeNames module.children →
    ∀ c ∈ calls, ¬ Node.LeavesScopeOf lookupName c.way → c.Provided space changes.edits

/-- An edit of a hook inserts the statement into a block, or an end of a block around an expression. -/
theorem IsHookEdit.exists_insert {source : List Char} {space : Option String} {e : Edit}
    (h : IsHookEdit source space e) : ∃ place text, e = Edit.insert place text ∧
      ((∃ block, text = Candidate.statementInBlock source (hookStatement space) block) ∨
        text = "\x7b " ++ hookStatement space ++ " return " ∨ text = "; \x7d") := by
  obtain ⟨component, inserted, hinserted, he⟩ := h
  simp only [Candidate.hookEdits?] at hinserted
  split at hinserted
  · contradiction
  · split at hinserted
    · obtain rfl := Option.some.inj hinserted
      obtain rfl := List.mem_singleton.mp he
      exact ⟨_, _, rfl, .inl ⟨component.body, rfl⟩⟩
    · obtain rfl := Option.some.inj hinserted
      simp only [List.mem_cons, List.not_mem_nil, or_false] at he
      rcases he with rfl | rfl
      · exact ⟨_, _, rfl, .inr (.inl rfl)⟩
      · exact ⟨_, _, rfl, .inr (.inr rfl)⟩

theorem IsHookEdit.isInsertion {source : List Char} {space : Option String} {e : Edit}
    (h : IsHookEdit source space e) : e.isInsertion = true := by
  obtain ⟨place, text, rfl, -⟩ := h.exists_insert
  exact Edit.isInsertion_insert place text

theorem Changes.Emits.mem_of_replaces {source : List Char} {module : Node} {changes : Changes}
    {space : Option String} {calls : List (EmittedCall source module)}
    (h : changes.Emits space calls) {e : Edit} (he : e ∈ changes.edits)
    (hreplaces : e.isInsertion = false) : e ∈ calls.map EmittedCall.edit := by
  rcases h.complete e he with hcall | hhook
  · exact hcall
  · rw [hhook.isInsertion] at hreplaces
    contradiction

theorem Candidate.callsHook_of_hookEdits? {c : Candidate} {source : List Char}
    {space : Option String} (h : c.hookEdits? source space = none) : c.callsHook = true := by
  simp only [Candidate.hookEdits?] at h
  split at h
  · next hcalls => exact hcalls
  · split at h
    · contradiction
    · contradiction

/-- A call in a candidate has its lookup function from somewhere once the hook of the candidate is among
the edits. -/
theorem EmittedCall.provided_of_isIn {source : List Char} {module : Node} {space : Option String}
    {edits : List Edit} {f : Found} {c : EmittedCall source module}
    (hvalue : lookupName ∉ Node.typeNames module.children) (hin : c.IsIn f.candidate)
    (hbinds : f.bindsLookup = true → lookupName ∈ Node.moduleNames module.children ∨
      Node.BoundOn lookupName c.way ∨ Node.LeavesScopeOf lookupName c.way)
    (hhook : f.bindsLookup = false → ∀ inserted,
      f.candidate.hookEdits? source space = some inserted → inserted ⊆ edits)
    (hleaves : ¬ Node.LeavesScopeOf lookupName c.way) : c.Provided space edits := by
  cases hbound : f.bindsLookup with
  | true =>
      rcases hbinds hbound with hmodule | hscope | hleft
      · rcases Node.mem_moduleNames hmodule with hname | htype
        · exact .byModule hname
        · exact absurd htype hvalue
      · exact .byScope hscope
      · exact absurd hleft hleaves
  | false =>
      cases hedits : f.candidate.hookEdits? source space with
      | none => exact .byItself f.candidate hin (Candidate.callsHook_of_hookEdits? hedits)
      | some inserted =>
          exact .byHook f.candidate inserted hin hedits (hhook hbound inserted hedits)

theorem Changes.emits_wrapCandidate {o : WrapOptions} {source : List Char} {module : Node}
    {changes : Changes} {f : Found} (hf : f ∈ moduleCandidates module)
    {calls : List (EmittedCall source module)} (h : changes.Emits o.space calls) :
    ∃ more : List (EmittedCall source module),
      (changes.wrapCandidate o source f).Emits o.space more := by
  simp only [Changes.wrapCandidate]
  split
  · exact ⟨calls, h⟩
  · obtain ⟨new, hnew, hall⟩ := exists_calls
      (assignKeys o.generator changes.keys (f.candidate.literals source o.classifier)).1
      fun l hl => exists_call_of_mem_literals hf (mem_of_mem_assignKeys hl) l.2
    rw [← hnew, List.map_map, List.map_map]
    refine ⟨calls ++ new, ?_, ?_, ?_, ?_⟩
    · rw [List.map_append, h.records]
      rfl
    · intro e he
      rw [List.map_append, List.mem_append]
      simp only [List.mem_append] at he
      rcases he with (hold | hcall) | hhook
      · exact (h.complete e hold).imp_left .inl
      · exact .inl (.inr hcall)
      · split at hhook
        · simp at hhook
        · cases hinserted : f.candidate.hookEdits? source o.space with
          | none => simp [hinserted] at hhook
          | some inserted =>
              rw [hinserted, Option.getD_some] at hhook
              exact .inr ⟨f.candidate, inserted, hinserted, hhook⟩
    · intro c hc
      simp only [List.mem_append]
      rcases List.mem_append.mp hc with hold | hcall
      · exact .inl (.inl (h.emitted c hold))
      · exact .inl (.inr (List.mem_map_of_mem hcall))
    · intro hvalue c hc hleaves
      rcases List.mem_append.mp hc with hold | hcall
      · refine (h.provided hvalue c hold hleaves).mono ?_
        rw [List.append_assoc]
        exact List.subset_append_left _ _
      · obtain ⟨hin, hbinds⟩ := hall c hcall
        refine EmittedCall.provided_of_isIn hvalue hin hbinds ?_ hleaves
        intro hunbound inserted hinserted
        rw [if_neg (by simp [hunbound]), hinserted]
        exact List.subset_append_right _ _

theorem emits_wrapModule (o : WrapOptions) (source : List Char) (module : Node) :
    ∃ calls : List (EmittedCall source module), (wrapModule o source module).Emits o.space calls := by
  refine wrapModule_induction (P := fun c _ => ∃ calls : List (EmittedCall source module),
    c.Emits o.space calls) ?_ ?_
  · exact ⟨[], rfl, by simp [Changes.empty], by simp, by simp⟩
  · rintro c found f hf - ⟨calls, h⟩
    exact Changes.emits_wrapCandidate hf h

theorem isInsertion_of_extendImport? {item : Node} {e : Edit} (h : extendImport? item = some e) :
    e.isInsertion = true := by
  simp only [extendImport?] at h
  split at h
  · obtain rfl := Option.some.inj h
    exact Edit.isInsertion_insert ..
  · split at h
    · split at h
      · obtain rfl := Option.some.inj h
        exact Edit.isInsertion_insert ..
      · contradiction
    · contradiction

theorem isInsertion_newImport (module : Node) (source : List Char) (space : String) :
    (newImport module source space).isInsertion = true := by
  simp only [newImport]
  split
  · exact Edit.isInsertion_insert ..
  · exact Edit.isInsertion_insert ..

theorem isInsertion_of_mem_importEdits {module : Node} {source : List Char} {space : String}
    {e : Edit} (h : e ∈ (importEdits module source space).2) : e.isInsertion = true := by
  simp only [importEdits] at h
  split at h
  · simp at h
  · split at h
    · next edit hextend =>
        obtain rfl := List.mem_singleton.mp h
        obtain ⟨item, -, hitem⟩ := List.exists_of_findSome?_eq_some hextend
        exact isInsertion_of_extendImport? hitem
    · obtain rfl := List.mem_singleton.mp h
      exact isInsertion_newImport module source space

theorem mem_withImport {o : WrapOptions} {source : List Char} {module : Node} {changes : Changes}
    {e : Edit} (h : e ∈ (withImport o source module changes).2) :
    e ∈ changes.edits ∨ e.isInsertion = true := by
  simp only [withImport] at h
  split at h
  · exact .inl h
  · rcases List.mem_append.mp h with hchange | himport
    · exact .inl hchange
    · exact .inr (isInsertion_of_mem_importEdits himport)

theorem subset_withImport (o : WrapOptions) (source : List Char) (module : Node)
    (changes : Changes) : changes.edits ⊆ (withImport o source module changes).2 := by
  simp only [withImport]
  split
  · exact List.Subset.refl _
  · exact List.subset_append_left _ _

/-- The edits that make the output of a wrapping, and the calls that they emit. -/
theorem wrapSource?_emits {o : WrapOptions} {path : String} {source : List Char} {w : WrappedSource}
    {module : Node} (h : wrapSource? o path source = .ok (some w))
    (hmodule : Source.parseFile path source = .ok module) :
    ∃ (edits : List Edit) (calls : List (EmittedCall source module)),
      Edit.applyAll source edits = .ok w.output ∧ w.changes.Emits o.space calls ∧
        w.changes.edits ⊆ edits ∧ ∀ e ∈ edits, e.isInsertion = false → e ∈ w.changes.edits := by
  obtain ⟨module', hparse, -, hchanges, -, houtput⟩ := wrapSource?_eq_some h
  rw [hmodule, Except.ok.injEq] at hparse
  subst hparse
  obtain ⟨calls, hcalls⟩ := emits_wrapModule o source module
  rw [← hchanges] at hcalls
  refine ⟨_, calls, houtput, hcalls, subset_withImport o source module w.changes, ?_⟩
  intro e he hreplaces
  rcases mem_withImport he with hchange | hinsertion
  · exact hchange
  · rw [hinsertion] at hreplaces
    contradiction

end Localization

/-! ## Where the lookup function comes from -/

namespace Localization

open Source (Node)

/-- Every call that a wrapping emits has its lookup function from a value of the module, from a binding
around the call, from the hook of a component around it, or the component calls the hook by itself. A
name imported as a type only does not count, nor does a call in a decorator of the function that binds
the name by a parameter. -/
theorem wrapSource_provides_lookup {o : WrapOptions} {path : String} {source : List Char}
    {w : WrappedSource} {module : Node} (h : wrapSource? o path source = .ok (some w))
    (hmodule : Source.parseFile path source = .ok module)
    (hvalue : lookupName ∉ Node.typeNames module.children) :
    ∃ (edits : List Edit) (calls : List (EmittedCall source module)),
      Edit.applyAll source edits = .ok w.output ∧
      calls.map EmittedCall.record = w.changes.replacements ∧
      (∀ e ∈ edits, e.isInsertion = false → e ∈ calls.map EmittedCall.edit) ∧
      ∀ c ∈ calls, c.edit ∈ edits ∧
        (¬ Node.LeavesScopeOf lookupName c.way → c.Provided o.space edits) := by
  obtain ⟨edits, calls, houtput, hcalls, hsubset, hreplacing⟩ := wrapSource?_emits h hmodule
  refine ⟨edits, calls, houtput, hcalls.records, ?_, ?_⟩
  · intro e he hreplaces
    exact hcalls.mem_of_replaces (hreplacing e he hreplaces) hreplaces
  · intro c hc
    exact ⟨hsubset (hcalls.emitted c hc),
      fun hleaves => (hcalls.provided hvalue c hc hleaves).mono hsubset⟩

theorem wrapSource_provides_lookup_of_paragraph :
    ∃ (w : WrappedSource) (module : Node) (edits : List Edit)
      (calls : List (EmittedCall paragraph module)),
      wrapSource? (koreanOptions none) "a.tsx" paragraph = .ok (some w) ∧
        w.output = wrappedParagraph ∧
        Source.parseFile "a.tsx" paragraph = .ok module ∧
        lookupName ∉ Node.typeNames module.children ∧
        Edit.applyAll paragraph edits = .ok wrappedParagraph ∧
        calls.map EmittedCall.record = w.changes.replacements ∧
        ∀ c ∈ calls, c.edit ∈ edits ∧ c.Provided none edits := by
  obtain ⟨w, hrun, houtput⟩ := exists_wrapped (koreanOptions none) "a.tsx" paragraph
    (p := fun w => w.output == wrappedParagraph) (by decide +kernel)
  obtain ⟨module, hparse, hmodule⟩ := exists_module "a.tsx" paragraph
    (p := fun m => !(Node.typeNames m.children).contains lookupName &&
      !m.walk.any (Node.binds lookupName)) (by decide +kernel)
  simp only [Bool.and_eq_true, Bool.not_eq_true', List.contains_eq_mem, decide_eq_false_iff_not]
    at hmodule
  obtain ⟨edits, calls, happly, hrecords, -, hcalls⟩ :=
    wrapSource_provides_lookup hrun hparse hmodule.1
  have hsame : w.output = wrappedParagraph := by simpa using houtput
  refine ⟨w, module, edits, calls, hrun, hsame, hparse, hmodule.1, hsame ▸ happly, hrecords, ?_⟩
  intro c hc
  exact ⟨(hcalls c hc).1, (hcalls c hc).2 (Node.not_binds_on_way hmodule.2 c.isWay).2⟩

/-- Whether a node calls the lookup function by its name. -/
def callsLookup (n : Node) : Bool :=
  Literal.isLookupCall n.kind n.children

/-- A component that calls the hook without taking the lookup function from it. -/
def hookWithoutLookup : List Char :=
  "function A() \x7b const i = useTranslation(); return <p>안녕</p>; \x7d\n".toList

/-- A component that calls the hook by itself need not bind the lookup function: a call of it is emitted
into a module that has none and binds its name nowhere. -/
theorem wrapSource_not_always_provides_lookup :
    ¬ ∀ (o : WrapOptions) (path : String) (source : List Char) (w : WrappedSource)
      (module output : Node), wrapSource? o path source = .ok (some w) →
        Source.parseFile path source = .ok module → module.walk.any callsLookup = false →
        Source.parseFile path w.output = .ok output →
        ∀ way, output.IsWay way → callsLookup (output.endOf way) = true →
          lookupName ∈ Node.valueNames output.children ∨ Node.BoundOn lookupName way := by
  intro hall
  obtain ⟨w, hrun, houtput⟩ := exists_wrapped (koreanOptions none) "a.tsx" hookWithoutLookup
    (p := fun w => (Source.parseFile "a.tsx" w.output).toOption.any fun m =>
      m.walk.any callsLookup && !m.walk.any (Node.binds lookupName) &&
        !(Node.valueNames m.children).contains lookupName) (by decide +kernel)
  obtain ⟨module, hmodule, hnone⟩ := exists_module "a.tsx" hookWithoutLookup
    (p := fun m => !m.walk.any callsLookup) (by decide +kernel)
  obtain ⟨output, hparse, hunbound⟩ := exists_module _ _ houtput
  simp only [Bool.and_eq_true, Bool.not_eq_true', List.contains_eq_mem, decide_eq_false_iff_not]
    at hunbound
  obtain ⟨⟨hcalls, hbinds⟩, hvalue⟩ := hunbound
  obtain ⟨call, hcall, hlookup⟩ := List.any_eq_true.mp hcalls
  obtain ⟨way, hway, rfl⟩ := Node.exists_way_of_mem_walk output call hcall
  rcases hall _ _ _ w module output hrun hmodule (by simpa using hnone) hparse way hway hlookup with
    hname | hbound
  · exact hvalue hname
  · exact (Node.not_binds_on_way hbinds hway).1 hbound

end Localization
