import Localization.Proofs.Component.Emitted
import Localization.Proofs.Component.SameScope
import Localization.Proofs.Key.Call

/-!
Calls with a key in a component whose texts are wrapped. The key and its default text stay, unless the
string of one of them is wrapped itself. Main statement: `exists_key_in_wrapTexts`.
-/

namespace Localization

open Source (Node Kind Span ScopeStack)

/-! ### Parts that stay one node -/

/-- The kinds of the nodes that take the place of a literal. -/
theorem kind_of_mem_nodes {l : Literal} {generator : KeyGenerator} {source : List Char} {span : Span}
    {m : Node} (h : m ∈ l.nodes generator source span) :
    m.kind = .call ∨ m.kind = .jsxContainer ∨ m.kind = .keyComputed ∨
      m.kind.isElementText = true := by
  have hblank : ∀ {blanks : List Char} {span : Span}, m ∈ blankNodes blanks span →
      m.kind.isElementText = true := by
    intro blanks span hm
    rw [blankNodes] at hm
    split at hm
    · simp at hm
    · rw [List.mem_singleton.mp hm]
      rfl
  have hcall : ∀ key, m = l.site.node (callNode lookupName (some key)) →
      m.kind = .call ∨ m.kind = .jsxContainer ∨ m.kind = .keyComputed ∨
        m.kind.isElementText = true := by
    rintro key rfl
    cases l.site <;> simp [LiteralSite.node, callNode, newNode]
  simp only [Literal.nodes] at h
  split at h
  · rcases List.mem_append.mp h with hleading | hbehind
    · exact .inr (.inr (.inr (hblank hleading)))
    · rcases List.mem_cons.mp hbehind with hm | htrailing
      · exact hcall _ hm
      · exact .inr (.inr (.inr (hblank htrailing)))
  · exact hcall _ (List.mem_singleton.mp h)

section

variable (o : WrapOptions) (source : List Char)

theorem nodes_eq_singleton {n : Node} {l : Literal} (hn : n.kind.isElementText = false)
    (h : Literal.ofNode? source n = some l) : l.nodes o.generator source n.span =
      [l.site.node (callNode lookupName (some (o.keyOf l)))] := by
  have hsite : l.site ≠ .elementText := by
    simp only [Literal.ofNode?] at h
    split at h
    · rw [← Option.some.inj h]
      simp [Literal.ofString]
    · rw [← Option.some.inj h]
      simp [Literal.ofString]
    · split at h
      · rw [← Option.some.inj h]
        simp [Literal.ofString]
      · contradiction
    · next hkind =>
        rw [hkind] at hn
        contradiction
    · contradiction
  simp only [Literal.nodes, WrapOptions.keyOf]

/-- The node that a part other than text between tags becomes. -/
def wrapPart (translated : Bool) (n : Node) : Node :=
  (wrapTexts o source translated n).headD n

variable (translated : Bool) {n : Node}

/-- A part becomes a call if it is a literal to be wrapped, and else it keeps its kind. -/
theorem wrapPart_cases (hn : n.kind.isElementText = false) :
    wrapTexts o source translated n = [wrapPart o source translated n] ∧
      ((∃ l, Literal.ofNode? source n = some l ∧ o.classifier.accepts l.text = true ∧
          wrapPart o source translated n =
            l.site.node (callNode lookupName (some (o.keyOf l)))) ∨
        (wrapPart o source translated n).kind = n.kind ∧
          ∀ l, Literal.ofNode? source n = some l → o.classifier.accepts l.text = false) := by
  simp only [wrapPart]
  by_cases hliteral : ∃ l, Literal.ofNode? source n = some l ∧ o.classifier.accepts l.text = true
  · obtain ⟨l, hl, haccepts⟩ := hliteral
    have hnodes : wrapTexts o source translated n =
        [l.site.node (callNode lookupName (some (o.keyOf l)))] := by
      rw [← nodes_eq_singleton o source hn hl]
      cases n
      simp [wrapTexts, hl, haccepts]
    rw [hnodes]
    exact ⟨rfl, .inl ⟨l, hl, haccepts, rfl⟩⟩
  · have hnone : ∀ l, Literal.ofNode? source n = some l →
        o.classifier.accepts l.text = false := by
      intro l hl
      rw [Bool.eq_false_iff]
      exact fun haccepts => hliteral ⟨l, hl, haccepts⟩
    rcases wrapTexts_cases o source translated n with hsame | ⟨l, hl, haccepts, -⟩ | hinside
    · rw [hsame]
      exact ⟨rfl, .inr ⟨rfl, hnone⟩⟩
    · exact absurd ⟨l, hl, haccepts⟩ hliteral
    · rw [hinside]
      exact ⟨rfl, .inr ⟨rfl, hnone⟩⟩

theorem wrapTextsAll_eq_map {nodes : List Node} (h : ∀ n ∈ nodes, n.kind.isElementText = false) :
    wrapTextsAll o source translated nodes = nodes.map (wrapPart o source translated) := by
  rw [wrapTextsAll_eq_flatMap, ← List.flatMap_singleton' (nodes.map _), List.flatMap_map]
  rw [List.flatMap_def, List.flatMap_def]
  congr 1
  exact List.map_congr_left fun n hn => (wrapPart_cases o source translated (h n hn)).1

/-- A part is wrapped inside, unless it is a text, a type, a statement that is a string, or a string in
the call of the lookup function. -/
theorem wrapTexts_of_kind (htext : n.kind.isText = false) (htype : n.kind ≠ .type)
    (hstatement : n.kind ≠ .expressionStatement)
    (hargument : translated = false ∨ Literal.isStringArgument n.kind n.children = false) :
    wrapTexts o source translated n = [.mk n.kind n.span
      (wrapTextsAll o source (Literal.isLookupCall n.kind n.children) n.children)] := by
  have hnone : Literal.ofNode? source n = none := by
    rw [Option.eq_none_iff_forall_ne_some]
    intro l hl
    rw [Literal.isText_of_ofNode? hl] at htext
    contradiction
  cases n with
  | mk kind span children =>
      rw [Node.kind_mk, Node.children_mk] at hargument
      have hcondition : (translated && Literal.isStringArgument kind children) = false := by
        rcases hargument with h | h <;> simp [h]
      have htype' : (kind == .type) = false := by simpa using htype
      have hstatement' : (kind == .expressionStatement) = false := by simpa using hstatement
      simp [wrapTexts, hnone, hcondition, htype', hstatement']

/-! ### Texts of a call -/

/-- A string that stays when texts are wrapped. -/
def WrapOptions.leaves (text : String) : Bool :=
  !o.classifier.accepts text

theorem stringValue?_wrapPart (hn : n.kind.isElementText = false) :
    (wrapPart o source translated n).stringValue? = n.stringValue?.filter o.leaves := by
  rcases (wrapPart_cases o source translated hn).2 with ⟨l, hl, haccepts, hpart⟩ | ⟨hkind, hnone⟩
  · rw [hpart]
    have hnew : (l.site.node (callNode lookupName (some (o.keyOf l)))).stringValue? = none := by
      cases l.site <;> rfl
    rw [hnew]
    simp only [Node.stringValue?, Literal.ofNode?] at hl ⊢
    split
    · next value hstring =>
        cases value with
        | none => rfl
        | some text =>
            rw [hstring] at hl
            obtain rfl := Option.some.inj hl
            have hleaves : o.leaves text = false := (Bool.not_eq_false' ..).mpr haccepts
            exact (Option.filter_some_neg hleaves).symm
    · rfl
  · simp only [Node.stringValue?, hkind]
    split
    · next value hstring =>
        cases value with
        | none => rfl
        | some text =>
            have hleaves : o.leaves text = true := (Bool.not_eq_true' ..).mpr
              (hnone (.ofString .expression n.span text) (by simp [Literal.ofNode?, hstring]))
            exact (Option.filter_some_pos hleaves).symm
    · rfl

/-- The name of the option that holds a default text is no text to be wrapped. -/
theorem keyText?_wrapPart (hn : n.kind.isElementText = false) :
    Occurrence.keyText? (wrapPart o source translated n) = some Occurrence.defaultOption ↔
      Occurrence.keyText? n = some Occurrence.defaultOption := by
  rcases (wrapPart_cases o source translated hn).2 with ⟨l, hl, haccepts, hpart⟩ | ⟨hkind, -⟩
  · have hnew : Occurrence.keyText? (wrapPart o source translated n) = none := by
      rw [hpart]
      cases l.site <;> rfl
    simp only [hnew, reduceCtorEq, false_iff]
    simp only [Occurrence.keyText?, Literal.ofNode?] at hl ⊢
    split
    · next hkey => simp [hkey] at hl
    · next value hkey =>
        rintro rfl
        have hhangul : Text.containsHangul Occurrence.defaultOption = false := by decide
        simp [hkey, hhangul] at hl
    · simp
  · simp only [Occurrence.keyText?, hkind]

theorem kind_of_mem_wrapTexts {m : Node} (hm : m ∈ wrapTexts o source translated n) :
    m.kind = n.kind ∨ n.kind.isText = true ∧ (m.kind = .call ∨ m.kind = .jsxContainer ∨
      m.kind = .keyComputed ∨ m.kind.isElementText = true) := by
  rcases wrapTexts_cases o source translated n with hsame | ⟨l, hl, -, hnew⟩ | hinside
  · rw [hsame, List.mem_singleton] at hm
    exact .inl (congrArg Node.kind hm)
  · rw [hnew] at hm
    exact .inr ⟨Literal.isText_of_ofNode? hl, kind_of_mem_nodes hm⟩
  · rw [hinside, List.mem_singleton] at hm
    rw [hm]
    exact .inl rfl

theorem defaultOfProperty?_of_kind (h : n.kind ≠ .keyValue) :
    Occurrence.defaultOfProperty? n = none := by
  simp only [Occurrence.defaultOfProperty?]
  split
  · next hkind _ => exact absurd hkind h
  · rfl

theorem kind_ne_of_mem_wrapTexts {m : Node} {kind : Kind} (hkind : n.kind ≠ kind)
    (hnew : kind ≠ .call ∧ kind ≠ .jsxContainer ∧ kind ≠ .keyComputed ∧ kind.isElementText = false)
    (hm : m ∈ wrapTexts o source translated n) : m.kind ≠ kind := by
  rintro rfl
  rcases kind_of_mem_wrapTexts o source translated hm with hsame | ⟨-, h | h | h | h⟩
  · exact hkind hsame.symm
  · exact hnew.1 h
  · exact hnew.2.1 h
  · exact hnew.2.2.1 h
  · rw [hnew.2.2.2] at h
    contradiction

/-- The default text that a property gives is lost if it is wrapped. -/
theorem defaultOfProperty?_wrapTexts (hn : n.InPlace) :
    (wrapTexts o source translated n).flatMap (fun m => (Occurrence.defaultOfProperty? m).toList) =
      (Occurrence.defaultOfProperty? n).toList.filter o.leaves := by
  by_cases hkind : n.kind = .keyValue
  · have hparts : ∀ part ∈ n.children, part.kind.isElementText = false :=
      fun part hpart => (hn.isPart_child (by rw [hkind]; rfl) hpart).notText
    rw [wrapTexts_of_kind o source translated (by rw [hkind]; rfl) (by rw [hkind]; nofun)
      (by rw [hkind]; nofun) (.inr (by rw [hkind]; rfl)), List.flatMap_singleton,
      wrapTextsAll_eq_map o source _ hparts, ← Option.toList_filter]
    generalize Literal.isLookupCall n.kind n.children = inside
    congr 1
    cases n with
    | mk kind span children =>
        rw [Node.kind_mk] at hkind
        subst hkind
        match children with
        | [] => rfl
        | [_] => rfl
        | _ :: _ :: _ :: _ => rfl
        | [key, value] =>
            have hkey := hparts key (by simp)
            have hvalue := hparts value (by simp)
            simp only [Occurrence.defaultOfProperty?, Node.kind_mk, Node.children_mk,
              List.map_cons, List.map_nil, keyText?_wrapPart o source inside hkey,
              stringValue?_wrapPart o source inside hvalue]
            split
            · rfl
            · rfl
  · rw [defaultOfProperty?_of_kind hkind]
    refine List.flatMap_eq_nil_iff.mpr fun m hm => ?_
    have hm' := kind_ne_of_mem_wrapTexts o source translated hkind ⟨nofun, nofun, nofun, rfl⟩ hm
    rw [defaultOfProperty?_of_kind hm']
    rfl

theorem defaults_of_kind (h : n.kind ≠ .object) : Occurrence.defaults n = [] := by
  simp [Occurrence.defaults, h]

theorem defaults_wrapTexts (hn : n.InPlace) :
    (wrapTexts o source translated n).flatMap Occurrence.defaults =
      (Occurrence.defaults n).filter o.leaves := by
  by_cases hkind : n.kind = .object
  · rw [wrapTexts_of_kind o source translated (by rw [hkind]; rfl) (by simp [hkind])
      (by simp [hkind]) (.inr (by rw [hkind]; rfl)), List.flatMap_singleton]
    simp only [Occurrence.defaults, Node.kind_mk, Node.children_mk, hkind, beq_self_eq_true, if_true,
      List.filter_flatMap]
    rw [wrapTextsAll_eq_flatMap, List.flatMap_assoc, List.flatMap_def, List.flatMap_def]
    congr 1
    exact List.map_congr_left fun part hpart =>
      defaultOfProperty?_wrapTexts o source _ (hn.child hpart)
  · rw [defaults_of_kind hkind]
    refine List.flatMap_eq_nil_iff.mpr fun m hm => defaults_of_kind ?_
    exact kind_ne_of_mem_wrapTexts o source translated hkind (by simp) hm

/-- What stays of the texts of an argument. In a call of the lookup function by its name, the argument
itself stays. -/
def WrapOptions.surviving (texts : Option String × List String) : Option String × List String :=
  (if translated then texts.1 else texts.1.filter o.leaves, texts.2.filter o.leaves)

theorem argumentTexts_of_kind (h : ∀ isSpread, n.kind ≠ .argument isSpread) :
    Occurrence.argumentTexts n = [] := by
  cases hkind : n.kind with
  | argument isSpread => exact absurd hkind (h isSpread)
  | _ => simp only [Occurrence.argumentTexts, hkind]

theorem stringArgument?_of_isStringArgument
    (h : Literal.isStringArgument n.kind n.children = false) :
    Occurrence.stringArgument? n = none := by
  simp only [Occurrence.stringArgument?]
  split
  · next e hkind hchildren =>
      rw [hkind, hchildren] at h
      simp only [Literal.isStringArgument, Node.isString] at h
      simp only [Node.stringValue?]
      split
      · next hstring => simp [hstring] at h
      · rfl
  · rfl

theorem defaults_of_isStringArgument (h : Literal.isStringArgument n.kind n.children = true) :
    (n.children.take 1).flatMap Occurrence.defaults = [] := by
  simp only [Literal.isStringArgument] at h
  split at h
  · next e _ hchildren =>
      rw [hchildren, List.take_succ_cons, List.take_zero, List.flatMap_singleton]
      refine defaults_of_kind ?_
      intro hobject
      simp [Node.isString, hobject] at h
  · contradiction

/-- The string that an argument is is lost if it is wrapped. -/
theorem stringArgument?_map_wrapPart {parts : List Node} {kind : Kind} {span span' : Span}
    (hparts : ∀ part ∈ parts, part.kind.isElementText = false) :
    Occurrence.stringArgument? (.mk kind span' (parts.map (wrapPart o source translated))) =
      (Occurrence.stringArgument? (.mk kind span parts)).filter o.leaves := by
  cases kind with
  | argument isSpread =>
      cases isSpread with
      | true => rfl
      | false =>
          match parts with
          | [] => rfl
          | _ :: _ :: _ => rfl
          | [e] => exact stringValue?_wrapPart o source translated (hparts e (by simp))
  | _ => rfl

theorem defaults_map_wrapPart {parts : List Node} (hparts : ∀ part ∈ parts, part.IsPart) :
    ((parts.map (wrapPart o source translated)).take 1).flatMap Occurrence.defaults =
      ((parts.take 1).flatMap Occurrence.defaults).filter o.leaves := by
  cases parts with
  | nil => rfl
  | cons e rest =>
      have he := hparts e List.mem_cons_self
      have hdefaults := defaults_wrapTexts o source translated he.inPlace
      rw [(wrapPart_cases o source translated he.notText).1, List.flatMap_singleton] at hdefaults
      simp only [List.map_cons, List.take_succ_cons, List.take_zero, List.flatMap_singleton,
        hdefaults]

theorem argumentTexts_wrapTexts (hn : n.InPlace) :
    (wrapTexts o source translated n).flatMap Occurrence.argumentTexts =
      (Occurrence.argumentTexts n).map (o.surviving translated) := by
  by_cases hargument : ∃ isSpread, n.kind = .argument isSpread
  · obtain ⟨isSpread, hkind⟩ := hargument
    have htexts : ∀ parts, Occurrence.argumentTexts (.mk n.kind n.span parts) =
        [(Occurrence.stringArgument? (.mk n.kind n.span parts),
          (parts.take 1).flatMap Occurrence.defaults)] := by
      intro parts
      simp [Occurrence.argumentTexts, hkind]
    have hself : n = .mk n.kind n.span n.children := by
      cases n
      rfl
    cases hstring : translated && Literal.isStringArgument n.kind n.children with
    | true =>
        rw [Bool.and_eq_true] at hstring
        have hsame : wrapTexts o source translated n = [n] := by
          cases n with
          | mk kind span children =>
              rw [Node.kind_mk] at hkind
              subst hkind
              rw [wrapTexts]
              simp only [Literal.ofNode?, Node.kind_mk]
              simpa [hstring.1] using fun h => absurd hstring.2 (Bool.eq_false_iff.mp h)
        rw [hsame, List.flatMap_singleton, hself, htexts, List.map_singleton, WrapOptions.surviving,
          if_pos hstring.1, defaults_of_isStringArgument hstring.2]
        rfl
    | false =>
        have hparts : ∀ part ∈ n.children, part.IsPart :=
          fun part hpart => hn.isPart_child (by rw [hkind]; rfl) hpart
        have hnotText : ∀ part ∈ n.children, part.kind.isElementText = false :=
          fun part hpart => (hparts part hpart).notText
        rw [Bool.and_eq_false_iff] at hstring
        -- Only a text that is replaced is lost, and the string arguments of a lookup are kept.
        have hkept : (Occurrence.stringArgument? n).filter o.leaves =
            if translated then Occurrence.stringArgument? n
            else (Occurrence.stringArgument? n).filter o.leaves := by
          rcases hstring with h | h
          · rw [h, if_neg Bool.false_ne_true]
          · rw [stringArgument?_of_isStringArgument h]
            split <;> rfl
        rw [wrapTexts_of_kind o source translated (by rw [hkind]; rfl) (by simp [hkind])
          (by simp [hkind]) hstring, List.flatMap_singleton,
          wrapTextsAll_eq_map o source _ hnotText, htexts,
          stringArgument?_map_wrapPart o source _ hnotText, defaults_map_wrapPart o source _ hparts,
          ← hself, hkept]
        rw [hself, htexts]
        rfl
  · have hkind : ∀ isSpread, n.kind ≠ .argument isSpread :=
      fun isSpread h => hargument ⟨isSpread, h⟩
    rw [argumentTexts_of_kind hkind]
    refine List.flatMap_eq_nil_iff.mpr fun m hm => argumentTexts_of_kind fun isSpread => ?_
    exact kind_ne_of_mem_wrapTexts o source translated (hkind isSpread) (by simp) hm

/-! ### Keys of calls -/

theorem kind_wrapPart_iff {kind : Kind} (hn : n.kind.isElementText = false)
    (hkind : kind.isText = false)
    (hnew : kind ≠ .call ∧ kind ≠ .jsxContainer ∧ kind ≠ .keyComputed) :
    (wrapPart o source translated n).kind = kind ↔ n.kind = kind := by
  rcases (wrapPart_cases o source translated hn).2 with ⟨l, hl, -, hpart⟩ | ⟨hsame, -⟩
  · have htext := Literal.isText_of_ofNode? hl
    constructor
    · intro h
      have hcall : kind = .call ∨ kind = .jsxContainer ∨ kind = .keyComputed := by
        rw [hpart] at h
        rw [← h]
        cases l.site <;> simp [LiteralSite.node, callNode, newNode]
      rcases hcall with h | h | h
      · exact absurd h hnew.1
      · exact absurd h hnew.2.1
      · exact absurd h hnew.2.2
    · rintro rfl
      rw [htext] at hkind
      contradiction
  · rw [hsame]

theorem wrapPart_of_kind (htext : n.kind.isText = false) (htype : n.kind ≠ .type)
    (hstatement : n.kind ≠ .expressionStatement)
    (hargument : translated = false ∨ Literal.isStringArgument n.kind n.children = false) :
    wrapPart o source translated n = .mk n.kind n.span
      (wrapTextsAll o source (Literal.isLookupCall n.kind n.children) n.children) := by
  rw [wrapPart, wrapTexts_of_kind o source translated htext htype hstatement hargument,
    List.headD_cons]

theorem isLookupCallee_of_kind (hname : ∀ name, n.kind ≠ .identifier name)
    (hmember : n.kind ≠ .member) : Occurrence.isLookupCallee n = false := by
  simp only [Occurrence.isLookupCallee]
  split
  · next name hkind => exact absurd hkind (hname name)
  · next hkind _ => exact absurd hkind hmember
  · rfl

/-- Whether a callee is the lookup function or a method of its name does not change. -/
theorem isLookupCallee_wrapPart (hn : n.IsPart) :
    Occurrence.isLookupCallee (wrapPart o source translated n) = Occurrence.isLookupCallee n := by
  have hidentifier : ∀ name, (wrapPart o source translated n).kind = .identifier name ↔
      n.kind = .identifier name :=
    fun name => kind_wrapPart_iff o source translated hn.notText rfl ⟨nofun, nofun, nofun⟩
  by_cases hname : ∃ name, n.kind = .identifier name
  · obtain ⟨name, hname⟩ := hname
    simp only [Occurrence.isLookupCallee, hname, (hidentifier name).mpr hname]
  · by_cases hmember : n.kind = .member
    · have hparts : ∀ part ∈ n.children, part.IsPart :=
        fun part hpart => hn.inPlace.isPart_child (by rw [hmember]; rfl) hpart
      rw [wrapPart_of_kind o source translated (by rw [hmember]; rfl) (by rw [hmember]; nofun)
        (by rw [hmember]; nofun) (.inr (by rw [hmember]; rfl)),
        wrapTextsAll_eq_map o source _ fun part hpart => (hparts part hpart).notText]
      simp only [Occurrence.isLookupCallee, Node.kind_mk, Node.children_mk, hmember]
      match n.children, hparts with
      | [], _ => rfl
      | [_], _ => rfl
      | _ :: _ :: _ :: _, _ => rfl
      | [object, property], hparts =>
          simp only [List.map_cons, List.map_nil]
          rw [Bool.eq_iff_iff, beq_iff_eq, beq_iff_eq]
          exact kind_wrapPart_iff o source _ (hparts property (by simp)).notText rfl
            ⟨nofun, nofun, nofun⟩
    · rw [isLookupCallee_of_kind (fun name h => hname ⟨name, h⟩) hmember]
      refine isLookupCallee_of_kind ?_ ?_
      · exact fun name h => hname ⟨name, (hidentifier name).mp h⟩
      · have hsame : (wrapPart o source translated n).kind = .member ↔ n.kind = .member :=
          kind_wrapPart_iff o source translated hn.notText rfl ⟨nofun, nofun, nofun⟩
        exact fun h => hmember (hsame.mp h)

/-- The key of a call in a component is what stays of the texts of its arguments. -/
theorem keyOfCall?_wrapPart (hn : n.InPlace) (hcall : n.kind = .call) :
    Occurrence.keyOfCall? (wrapPart o source translated n) =
      if Occurrence.isKeyCall n then
        Occurrence.keyOfTexts ((n.children.flatMap Occurrence.argumentTexts).map
          (o.surviving (Literal.isLookupCall n.kind n.children)))
      else none := by
  have hparts : ∀ part ∈ n.children, part.IsPart :=
    fun part hpart => hn.isPart_child (by rw [hcall]; rfl) hpart
  rw [wrapPart_of_kind o source translated (by rw [hcall]; rfl) (by rw [hcall]; nofun)
    (by rw [hcall]; nofun) (.inr (by rw [hcall]; rfl)), Occurrence.keyOfCall?_eq]
  generalize Literal.isLookupCall n.kind n.children = inside
  have hcallee : Occurrence.isKeyCall (.mk n.kind n.span (wrapTextsAll o source inside n.children)) =
      Occurrence.isKeyCall n := by
    rw [wrapTextsAll_eq_map o source _ fun part hpart => (hparts part hpart).notText]
    simp only [Occurrence.isKeyCall, Node.kind_mk, Node.children_mk, List.head?_map]
    cases hchildren : n.children with
    | nil => rfl
    | cons callee rest =>
        have hpart := hparts callee (by rw [hchildren]; exact List.mem_cons_self)
        simp only [List.head?_cons, Option.map_some, Option.any_some,
          isLookupCallee_wrapPart o source inside hpart]
  rw [hcallee, Node.children_mk, wrapTextsAll_eq_flatMap, List.flatMap_assoc, List.map_flatMap]
  congr 2
  rw [List.flatMap_def, List.flatMap_def, List.map_congr_left fun part hpart =>
    argumentTexts_wrapTexts o source inside (hn.child hpart)]

/-- A key stays if its string stays, and its default text stays if it is no text to be wrapped. -/
theorem keyOfTexts_surviving {texts : List (Option String × List String)} {key : String}
    {text : Option String} (h : Occurrence.keyOfTexts texts = some (key, text))
    (hkey : translated = true ∨ o.leaves key = true) (htext : text.all o.leaves = true) :
    Occurrence.keyOfTexts (texts.map (o.surviving translated)) = some (key, text) := by
  match texts with
  | [] => contradiction
  | (none, _) :: _ => contradiction
  | (some first, own) :: rest =>
      simp only [Occurrence.keyOfTexts] at h
      split at h
      · contradiction
      · next hempty =>
          rw [Option.some.injEq, Prod.mk.injEq] at h
          obtain ⟨rfl, hdefault⟩ := h
          have hfirst : (o.surviving translated (some first, own)).1 = some first := by
            simp only [WrapOptions.surviving]
            split
            · rfl
            · next hother =>
                exact Option.filter_some_pos (hkey.resolve_left hother)
          have hsecond : ((rest.map (o.surviving translated)).head?.bind fun t => t.2.head?) =
              text := by
            rw [← hdefault] at htext ⊢
            cases rest with
            | nil => rfl
            | cons second more =>
                simp only [List.map_cons, List.head?_cons, Option.bind_some,
                  WrapOptions.surviving] at htext ⊢
                cases hdefaults : second.2 with
                | nil => rfl
                | cons d others =>
                    rw [hdefaults, List.head?_cons, Option.all_some] at htext
                    rw [List.filter_cons_of_pos htext, List.head?_cons, List.head?_cons]
          rw [List.map_cons]
          generalize o.surviving translated (some first, own) = kept at hfirst
          obtain ⟨keptKey, keptOwn⟩ := kept
          obtain rfl : keptKey = some first := hfirst
          simp only [Occurrence.keyOfTexts, if_neg hempty, hsecond]

/-- Whether a call in a component may lose a key with a default text: the string of the key is an
argument of a method and is to be wrapped, or the default text is. -/
def WrapOptions.disturbs (call : Node) (key : String) (text : Option String) : Bool :=
  (!callsLookup call && o.classifier.accepts key) || text.any o.classifier.accepts

theorem isKeyCall_of_keyOfCall? {pair : String × Option String}
    (h : Occurrence.keyOfCall? n = some pair) : Occurrence.isKeyCall n = true ∧
      Occurrence.keyOfTexts (n.children.flatMap Occurrence.argumentTexts) = some pair := by
  rw [Occurrence.keyOfCall?_eq] at h
  split at h
  · next hcall => exact ⟨hcall, h⟩
  · contradiction

theorem kind_of_keyOfCall? {pair : String × Option String}
    (h : Occurrence.keyOfCall? n = some pair) : n.kind = .call :=
  beq_iff_eq.mp (Bool.and_eq_true_iff.mp (isKeyCall_of_keyOfCall? h).1).1

theorem keyOfCall?_wrapPart_of_not_disturbs {key : String} {text : Option String} (hn : n.InPlace)
    (h : Occurrence.keyOfCall? n = some (key, text)) (hstays : o.disturbs n key text = false) :
    Occurrence.keyOfCall? (wrapPart o source translated n) = some (key, text) := by
  obtain ⟨hcall, htexts⟩ := isKeyCall_of_keyOfCall? h
  rw [keyOfCall?_wrapPart o source translated hn (kind_of_keyOfCall? h), if_pos hcall]
  rw [WrapOptions.disturbs, Bool.or_eq_false_iff, Bool.and_eq_false_iff, Bool.not_eq_false'] at hstays
  refine keyOfTexts_surviving o _ htexts ?_ ?_
  · exact hstays.1.imp_right (Bool.not_eq_true' ..).mpr
  · cases text with
    | none => rfl
    | some own => exact (Bool.not_eq_true' ..).mpr hstays.2

/-- Each key that is not disturbed is still found in a wrapped component. -/
theorem exists_key_in_wrapTexts : ∀ (translated : Bool) (n m : Node) (key : String)
    (text : Option String), n.InPlace → m ∈ n.walk →
      Occurrence.keyOfCall? m = some (key, text) → o.disturbs m key text = false →
      ∃ m' ∈ Node.walkAll (wrapTexts o source translated n),
        Occurrence.keyOfCall? m' = some (key, text)
  | translated, .mk kind span children, m, key, text, hn, hm, hkey, hstays => by
      have hkind := kind_of_keyOfCall? hkey
      rcases wrapTexts_cases o source translated (.mk kind span children) with
        hsame | ⟨l, hl, -, -⟩ | hinside
      · rw [hsame]
        exact ⟨m, List.mem_append_left _ hm, hkey⟩
      · have htext := Literal.isText_of_ofNode? hl
        rcases Node.mem_walk_cases hm with rfl | ⟨part, hpart, -⟩
        · rw [hkind] at htext
          contradiction
        · rw [hn.children_eq_nil htext] at hpart
          simp at hpart
      · rcases Node.mem_walk_cases hm with rfl | ⟨part, hpart, hbelow⟩
        · refine ⟨wrapPart o source translated (.mk kind span children), ?_,
            keyOfCall?_wrapPart_of_not_disturbs o source translated hn hkey hstays⟩
          rw [wrapPart, hinside]
          exact List.mem_append_left _ (Node.mem_walk_self _)
        · obtain ⟨m', hm', hkey'⟩ := exists_key_in_wrapTexts
            (Literal.isLookupCall kind children) part m key text (hn.child hpart) hbelow hkey hstays
          refine ⟨m', ?_, hkey'⟩
          rw [hinside]
          refine List.mem_append_left _ (List.mem_cons_of_mem _ ?_)
          rw [Node.walkAll_eq_flatMap, List.mem_flatMap] at hm' ⊢
          obtain ⟨new, hnew, hm'⟩ := hm'
          refine ⟨new, ?_, hm'⟩
          rw [wrapTextsAll_eq_flatMap]
          exact List.mem_flatMap.mpr ⟨part, hpart, hnew⟩

end

end Localization
