import Localization.Component.Literal
import Localization.Proofs.Component.Candidate

/-!
Trees that differ only in where they stand. What is looked for in a tree, its candidates and their texts,
is the same in both.
-/

namespace Localization

open Source (Node Kind)

mutual

/-- Whether two trees, each read from its text, have the same kinds in the same arrangement, and the
same nodes of them are texts that may be replaced. -/
def alike (first second : List Char) : Node → Node → Bool
  | .mk kind span children, .mk kind' span' children' =>
    kind == kind' &&
      (Literal.ofNode? first (.mk kind span children)).isSome ==
        (Literal.ofNode? second (.mk kind' span' children')).isSome &&
      alikeAll first second children children'

def alikeAll (first second : List Char) : List Node → List Node → Bool
  | [], [] => true
  | n :: rest, n' :: rest' => alike first second n n' && alikeAll first second rest rest'
  | _, _ => false

end

variable {first second : List Char}

theorem alike_iff {n n' : Node} : alike first second n n' = true ↔ n.kind = n'.kind ∧
    (Literal.ofNode? first n).isSome = (Literal.ofNode? second n').isSome ∧
    alikeAll first second n.children n'.children = true := by
  cases n
  cases n'
  simp [alike, and_assoc]

mutual

theorem alike_symm : ∀ {n n' : Node}, alike first second n n' = true →
    alike second first n' n = true
  | .mk _ _ _, .mk _ _ _, h => by
      obtain ⟨hkind, hliteral, hchildren⟩ := alike_iff.mp h
      exact alike_iff.mpr ⟨hkind.symm, hliteral.symm, alikeAll_symm hchildren⟩

theorem alikeAll_symm : ∀ {nodes nodes' : List Node}, alikeAll first second nodes nodes' = true →
    alikeAll second first nodes' nodes = true
  | [], [], _ => rfl
  | n :: rest, n' :: rest', h => by
      simp only [alikeAll, Bool.and_eq_true] at h ⊢
      exact ⟨alike_symm h.1, alikeAll_symm h.2⟩

end

theorem alikeAll_kinds {nodes nodes' : List Node} (h : alikeAll first second nodes nodes' = true) :
    nodes.map Node.kind = nodes'.map Node.kind := by
  induction nodes generalizing nodes' with
  | nil =>
      cases nodes' with
      | nil => rfl
      | cons n' rest' => simp [alikeAll] at h
  | cons n rest ih =>
      cases nodes' with
      | nil => simp [alikeAll] at h
      | cons n' rest' =>
          simp only [alikeAll, Bool.and_eq_true] at h
          rw [List.map_cons, List.map_cons, (alike_iff.mp h.1).1, ih h.2]

/-- The text of a literal depends on the kind of its node alone. -/
theorem Literal.text_of_ofNode? {source source' : List Char} {n n' : Node} {l l' : Literal}
    (hkind : n.kind = n'.kind) (h : ofNode? source n = some l) (h' : ofNode? source' n' = some l') :
    l.text = l'.text := by
  simp only [ofNode?, ← hkind] at h h'
  split at h
  · next hstring =>
      simp only [hstring, Option.some.injEq] at h h'
      rw [← h, ← h']
      rfl
  · next hstring =>
      simp only [hstring, Option.some.injEq] at h h'
      rw [← h, ← h']
      rfl
  · next value hstring =>
      simp only [hstring] at h'
      split at h
      · next hangul =>
          rw [if_pos hangul, Option.some.injEq] at h'
          rw [← Option.some.inj h, ← h']
          rfl
      · contradiction
  · next value hstring =>
      simp only [hstring] at h'
      simp only [ofElementText?] at h h'
      split at h
      · contradiction
      · split at h'
        · contradiction
        · rw [← Option.some.inj h, ← Option.some.inj h']
  · contradiction

theorem isLookupCall_congr {kind : Kind} {nodes nodes' : List Node}
    (h : nodes.map Node.kind = nodes'.map Node.kind) :
    Literal.isLookupCall kind nodes = Literal.isLookupCall kind nodes' := by
  cases nodes with
  | nil => rw [List.map_eq_nil_iff.mp h.symm]
  | cons n rest =>
      cases nodes' with
      | nil => simp at h
      | cons n' rest' =>
          simp only [List.map_cons, List.cons.injEq] at h
          cases kind <;> simp [Literal.isLookupCall, h.1]

theorem isString_congr {n n' : Node} (h : n.kind = n'.kind) : n.isString = n'.isString := by
  simp only [Node.isString, h]

theorem isStringArgument_congr {kind : Kind} {nodes nodes' : List Node}
    (h : nodes.map Node.kind = nodes'.map Node.kind) :
    Literal.isStringArgument kind nodes = Literal.isStringArgument kind nodes' := by
  match nodes, nodes' with
  | [], [] => rfl
  | [n], [n'] =>
      simp only [List.map_cons, List.map_nil, List.cons.injEq, and_true] at h
      cases kind <;> simp [Literal.isStringArgument, isString_congr h]
  | _ :: _ :: _, _ :: _ :: _ => cases kind <;> rfl
  | [], _ :: _ => simp at h
  | _ :: _, [] => simp at h
  | [_], _ :: _ :: _ => simp at h
  | _ :: _ :: _, [_] => simp at h

theorem any_isString_congr {nodes nodes' : List Node}
    (h : nodes.map Node.kind = nodes'.map Node.kind) :
    nodes.any Node.isString = nodes'.any Node.isString := by
  induction nodes generalizing nodes' with
  | nil => rw [List.map_eq_nil_iff.mp h.symm]
  | cons n rest ih =>
      cases nodes' with
      | nil => simp at h
      | cons n' rest' =>
          simp only [List.map_cons, List.cons.injEq] at h
          rw [List.any_cons, List.any_cons, isString_congr h.1, ih h.2]

mutual

/-- Trees that are alike have the same texts. -/
theorem texts_collect (translated : Bool) : ∀ {n n' : Node}, alike first second n n' = true →
    (Literal.collect first translated n).map Literal.text =
      (Literal.collect second translated n').map Literal.text
  | .mk kind span children, .mk kind' span' children', h => by
      obtain ⟨hkind, hliteral, hchildren⟩ := alike_iff.mp h
      have hkinds := alikeAll_kinds hchildren
      simp only [Node.kind_mk, Node.children_mk] at hkind hkinds
      subst hkind
      simp only [Literal.collect]
      cases hfirst : Literal.ofNode? first (.mk kind span children) with
      | some l =>
          rw [hfirst, Option.isSome_some, eq_comm, Option.isSome_iff_exists] at hliteral
          obtain ⟨l', hsecond⟩ := hliteral
          have htext : l.text = l'.text := Literal.text_of_ofNode? (by rfl) hfirst hsecond
          simp only [hsecond, List.map_cons, List.map_nil, htext]
      | none =>
          rw [hfirst, Option.isSome_none, eq_comm, Option.isSome_eq_false_iff,
            Option.isNone_iff_eq_none] at hliteral
          simp only [hliteral, any_isString_congr hkinds, isStringArgument_congr hkinds,
            isLookupCall_congr hkinds]
          split
          · rfl
          · split
            · rfl
            · split
              · rfl
              · exact texts_collectAll _ hchildren

theorem texts_collectAll (translated : Bool) : ∀ {nodes nodes' : List Node},
    alikeAll first second nodes nodes' = true →
    (Literal.collectAll first translated nodes).map Literal.text =
      (Literal.collectAll second translated nodes').map Literal.text
  | [], [], _ => rfl
  | n :: rest, n' :: rest', h => by
      simp only [alikeAll, Bool.and_eq_true] at h
      simp only [Literal.collectAll, List.map_append]
      rw [texts_collect translated h.1, texts_collectAll translated h.2]

end

mutual

theorem boundNames_alike : ∀ {n n' : Node}, alike first second n n' = true →
    n.boundNames = n'.boundNames
  | .mk kind span children, .mk kind' span' children', h => by
      obtain ⟨hkind, -, hchildren⟩ := alike_iff.mp h
      simp only [Node.kind_mk, Node.children_mk] at hkind hchildren
      subst hkind
      simp only [Node.boundNames]
      rw [boundNamesAll_alike hchildren]

theorem boundNamesAll_alike : ∀ {nodes nodes' : List Node},
    alikeAll first second nodes nodes' = true →
    Node.boundNamesAll nodes = Node.boundNamesAll nodes'
  | [], [], _ => rfl
  | n :: rest, n' :: rest', h => by
      simp only [alikeAll, Bool.and_eq_true] at h
      rw [Node.boundNamesAll, Node.boundNamesAll, boundNames_alike h.1, boundNamesAll_alike h.2]

end

theorem alikeAll_singleton {n : Node} {nodes : List Node}
    (h : alikeAll first second [n] nodes = true) :
    ∃ n', nodes = [n'] ∧ alike first second n n' = true := by
  match nodes with
  | [] => simp [alikeAll] at h
  | [n'] =>
      simp only [alikeAll, Bool.and_true] at h
      exact ⟨n', rfl, h⟩
  | _ :: _ :: _ => simp [alikeAll] at h

theorem alikeAll_pair {n m : Node} {nodes : List Node}
    (h : alikeAll first second [n, m] nodes = true) :
    ∃ n' m', nodes = [n', m'] ∧ alike first second n n' = true ∧ alike first second m m' = true := by
  match nodes with
  | [] => simp [alikeAll] at h
  | [_] => simp [alikeAll] at h
  | [n', m'] =>
      simp only [alikeAll, Bool.and_true, Bool.and_eq_true] at h
      exact ⟨n', m', rfl, h.1, h.2⟩
  | _ :: _ :: _ :: _ => simp [alikeAll] at h

theorem find?_alike {p : Node → Bool} (hp : ∀ {n n' : Node}, n.kind = n'.kind → p n = p n')
    {nodes nodes' : List Node} {n : Node} (h : alikeAll first second nodes nodes' = true)
    (hfind : nodes.find? p = some n) :
    ∃ n', nodes'.find? p = some n' ∧ alike first second n n' = true := by
  induction nodes generalizing nodes' with
  | nil => simp at hfind
  | cons m rest ih =>
      cases nodes' with
      | nil => simp [alikeAll] at h
      | cons m' rest' =>
          simp only [alikeAll, Bool.and_eq_true] at h
          have hsame : p m = p m' := hp (alike_iff.mp h.1).1
          cases hpm : p m with
          | true =>
              rw [List.find?_cons_of_pos hpm, Option.some.injEq] at hfind
              subst hfind
              exact ⟨m', List.find?_cons_of_pos (hsame ▸ hpm), h.1⟩
          | false =>
              rw [List.find?_cons_of_neg (by simp [hpm])] at hfind
              rw [List.find?_cons_of_neg (by simp [← hsame, hpm])]
              exact ih h.2 hfind

theorem body?_alike {f f' b : Node} (h : alike first second f f' = true) (hbody : f.body? = some b) :
    ∃ b', f'.body? = some b' ∧ alike first second b b' = true :=
  find?_alike (fun hkind => by rw [hkind]) (alike_iff.mp h).2.2 hbody

theorem unparenthesized_alike {n n' : Node} (h : alike first second n n' = true) :
    alike first second n.unparenthesized n'.unparenthesized = true := by
  fun_induction Node.unparenthesized n generalizing n' with
  | case1 span inner ih =>
      obtain ⟨hkind, -, hchildren⟩ := alike_iff.mp h
      obtain ⟨inner', hinner, halike⟩ := alikeAll_singleton hchildren
      cases n' with
      | mk kind' span' children' =>
          simp only [Node.kind_mk, Node.children_mk] at hkind hinner
          subst hkind hinner
          simpa only [Node.unparenthesized] using ih halike
  | case2 n hn =>
      obtain ⟨hkind, -, hchildren⟩ := alike_iff.mp (alike_symm h)
      unfold Node.unparenthesized
      split
      · next span' inner' =>
          obtain ⟨inner, hinner, -⟩ := alikeAll_singleton hchildren
          cases n with
          | mk kind span children =>
              simp only [Node.kind_mk, Node.children_mk] at hkind hinner
              exact absurd (by rw [← hkind, hinner]) (hn span inner)
      · exact h

theorem NamesFunction.alike {n n' f : Node} {name : String} (hn : NamesFunction n name f)
    (h : alike first second n n' = true) :
    ∃ f', NamesFunction n' name f' ∧ Localization.alike first second f f' = true := by
  obtain ⟨hkind, -, hchildren⟩ := alike_iff.mp h
  cases n' with
  | mk kind' span' children' =>
      cases hn with
      | declaration span binder _ _ hname =>
          obtain ⟨binder', f', hparts, hbinder, hf⟩ := alikeAll_pair hchildren
          simp only [Node.kind_mk, Node.children_mk] at hkind hparts
          subst hkind hparts
          rw [boundNames_alike hbinder] at hname
          exact ⟨f', .declaration span' binder' f' name hname, hf⟩
      | defaultExport span inner binder _ _ hname =>
          obtain ⟨d', hparts, hd⟩ := alikeAll_singleton hchildren
          simp only [Node.kind_mk, Node.children_mk] at hkind hparts
          subst hkind hparts
          obtain ⟨hinner, -, hdchildren⟩ := alike_iff.mp hd
          cases d' with
          | mk kind'' span'' children'' =>
              obtain ⟨binder', f', hparts, hbinder, hf⟩ := alikeAll_pair hdchildren
              simp only [Node.kind_mk, Node.children_mk] at hinner hparts
              subst hinner hparts
              rw [boundNames_alike hbinder] at hname
              exact ⟨f', .defaultExport span' span'' binder' f' name hname, hf⟩
      | value span inner types _ value isAsync harrow =>
          obtain ⟨target', value', hparts, htarget, hvalue⟩ := alikeAll_pair hchildren
          simp only [Node.kind_mk, Node.children_mk] at hkind hparts
          subst hkind hparts
          have hinside := unparenthesized_alike hvalue
          rw [(alike_iff.mp hinside).1] at harrow
          cases target' with
          | mk kind'' span'' types' =>
              have hbinding := (alike_iff.mp htarget).1
              simp only [Node.kind_mk] at hbinding
              subst hbinding
              exact ⟨_, .value span' span'' types' name value' isAsync harrow, hinside⟩

/-- Trees that are alike are the same candidate, or none. -/
theorem ofNode?_alike {n n' : Node} {c : Candidate} (h : alike first second n n' = true)
    (hc : Candidate.ofNode? n = some c) :
    ∃ c', Candidate.ofNode? n' = some c' ∧ alike first second c.body c'.body = true := by
  have hbody : (Candidate.ofNode? n).map Candidate.body = some c.body := by rw [hc, Option.map_some]
  obtain ⟨name, f, hnamed, hcomponent, hf⟩ := map_body_ofNode?_eq_some_iff.mp hbody
  obtain ⟨f', hnamed', hfunctions⟩ := hnamed.alike h
  obtain ⟨body', hbody', hbodies⟩ := body?_alike hfunctions hf
  have hfound := map_body_ofNode?_eq_some_iff.mpr ⟨name, f', hnamed', hcomponent, hbody'⟩
  obtain ⟨c', hc', rfl⟩ := Option.map_eq_some_iff.mp hfound
  exact ⟨c', hc', hbodies⟩

end Localization
