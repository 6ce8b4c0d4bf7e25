import Localization.Source.Grammar.Jsx
import Localization.Proofs.Source.Grammar.Function

/-!
Texts and functions are in place in elements: text between tags is a part of the element itself.
-/

open Std.Do

set_option mvcgen.warning false

namespace Localization.Source.Parser

variable {self : Goal → Parser Node} [ReadsParts self] [g : Gap]

/-- Nodes that may stand between the tags of an element. -/
def InPlace (g : Gap) (items : List Node) : Prop :=
  ∀ n ∈ items, n.InPlace ∧ n.Clear g

@[simp] theorem inPlace_nil : InPlace g [] := by simp [InPlace]

@[simp] theorem inPlace_cons {n : Node} {items : List Node} :
    InPlace g (n :: items) ↔ (n.InPlace ∧ n.Clear g) ∧ InPlace g items := by simp [InPlace]

@[simp] theorem inPlace_append {items more : List Node} :
    InPlace g (items ++ more) ↔ InPlace g items ∧ InPlace g more :=
  List.forall_mem_append

@[simp] theorem inPlace_flatten {lists : List (List Node)} :
    InPlace g lists.flatten ↔ ∀ items ∈ lists, InPlace g items := by
  simp only [InPlace, List.mem_flatten]
  exact ⟨fun h items hitems n hn => h n ⟨items, hitems, hn⟩,
    fun h n ⟨items, hitems, hn⟩ => h items hitems n hn⟩

theorem inPlace_of_placed {items : List Node} (h : Placed g items) : InPlace g items :=
  fun n hn => ⟨(h n hn).1.inPlace, (h n hn).2⟩

@[spec]
theorem nodeThrough_spec {kind : Kind} {lo : Nat} {children : List Node} (hlo : g.Misses lo)
    (hkind : Placed g kind) (hparts : kind.isElement = false → Placed g children)
    (hbelow : InPlace g children) : Keeps g (nodeThrough kind lo children) (Placed g) := by
  mvcgen [nodeThrough]
  next hc =>
    have htext := Kind.isElementText_of_isText hkind.1
    refine ⟨hc.1, ⟨.mk (fun htext => absurd htext (Bool.eq_false_iff.mp hkind.1))
      (fun helement part hpart => (hparts helement part hpart).1.notText)
      (fun hname => absurd hname (Bool.eq_false_iff.mp hkind.2.1))
      (fun hwrapper => absurd hwrapper (Bool.eq_false_iff.mp hkind.2.2.1))
      fun n hn => (hbelow n hn).1, htext⟩, ?_⟩
    exact .mk hlo (g.endsOff_of_stops hc.2.2) (fun hblock => absurd hblock hkind.2.2.2)
      (fun htext => absurd htext (Bool.eq_false_iff.mp hkind.1)) (Node.writes_of_isElementText htext)
      (Node.filled_of_isText hkind.1) fun n hn => (hbelow n hn).2

@[spec]
theorem requireMark_spec (m : Mark) : Keeps g (requireMark m) fun _ => True := by
  mvcgen [requireMark]

@[spec]
theorem tagWord_spec : Keeps g tagWord fun _ => True := by
  mvcgen [tagWord]
  · next hc _ hscan => exact hc.admits_tagWord hscan
  · simp_all

@[spec]
theorem tagName_spec : Keeps g tagName fun _ => True := by
  mvcgen [tagName]
  all_goals simp_all

@[spec]
theorem attributeString_spec {c : Cursor} {quote : Char} {rest : List Char} (hc : c.Behind g)
    (hstart : c.start = quote :: rest) (hquote : quote = '\x22' ∨ quote = '\x27') :
    Keeps g (attributeString c quote) (Placed g) := by
  mvcgen [attributeString]
  · next hscan _ _ => exact hc.admits_attributeString hstart hquote hscan
  · next hscan _ _ _ _ h =>
      have hend := g.stops (hc.admits_attributeString hstart hquote hscan)
      refine ⟨h.1, Node.isPart_leaf.mpr rfl, Node.clear_mk hc.lo hend ?_ (fun _ _ => ?_) (by simp)⟩
      · exact Node.writes_of_isElementText rfl
      · exact (enters_scanAttributeString hquote hscan).reaches.le

theorem behind_childText {c : Cursor} {text : List Char} {p : Place} (hc : c.Behind g)
    (hscan : scanElementText [] c.after.rest c.after.offset = some (text, p)) :
    Cursor.Behind g
      { c with
        token := ⟨(tokenAt p).1, ⟨p.offset, (tokenAt p).2.offset⟩, false⟩
        start := p.rest
        after := (tokenAt p).2
        previousEnd := p.offset } := by
  have hp := g.admits hc.after (enters_scanElementText hscan)
  exact Cursor.behind_of_tokenAt hp (head_scanElementText hscan (by decide)) (g.stops hp) (Nat.le_refl _) rfl rfl rfl rfl

@[spec]
theorem childText_spec : Keeps g childText (InPlace g) := by
  mvcgen [childText]
  · next hc _ _ hscan _ => exact ⟨behind_childText hc hscan, inPlace_nil⟩
  · next hc _ _ hscan _ _ =>
      refine ⟨behind_childText hc hscan, inPlace_cons.mpr ⟨⟨?_, ?_⟩, inPlace_nil⟩⟩
      · exact .mk (fun _ => rfl) (by simp) (by simp) (by simp) (by simp)
      · have hpassed := passes_scanElementText hscan
        have hp := g.admits hc.after (enters_scanElementText hscan)
        refine (Node.clear_leaf_iff hc.le_after (g.stops hp)).mpr ⟨fun value hvalue => ?_, by simp⟩
        obtain rfl := Kind.jsxText.inj hvalue
        exact ⟨_, _, _, hc.after, hpassed, rfl, rfl⟩

@[spec]
theorem attributeValue_spec : Keeps g (attributeValue self) (Placed g) := by
  mvcgen [attributeValue]
  all_goals simp_all [Cursor.Behind.le_lo]

@[spec]
theorem tagAttribute_spec : Keeps g (tagAttribute self) (Placed g) := by
  mvcgen [tagAttribute]
  all_goals simp_all

@[spec]
theorem tagAttributes_spec : Keeps g (tagAttributes self) (Placed g) := by
  mvcgen [tagAttributes]
  all_goals simp_all

/-- Behind the opening brace, which is passed, an empty expression begins outside of the gap. -/
theorem expectMark_passed_spec (m : Mark) : ⦃fun c => ⌜c.Behind g⌝⦄ expectMark m
    ⦃⇓? _ c => ⌜c.Behind g ∧ g.next ≤ c.previousEnd⌝⦄ := by
  mvcgen [expectMark, takeMark, -expectMark_spec, -takeMark_spec]
  all_goals simp_all

theorem isMark_passed_spec (m : Mark) : ⦃fun c => ⌜c.Behind g ∧ g.next ≤ c.previousEnd⌝⦄ isMark m
    ⦃⇓? _ c => ⌜c.Behind g ∧ g.next ≤ c.previousEnd⌝⦄ := by
  mvcgen [isMark, -isMark_spec]

@[spec]
theorem childContainer_spec : Keeps g (childContainer self) (Placed g) := by
  mvcgen [childContainer, expectMark_passed_spec, isMark_passed_spec, -expectMark_spec, -isMark_spec]
  all_goals simp_all [Node.IsPart.inPlace]

@[spec]
theorem children_spec : Keeps g (children self) (InPlace g) := by
  have hmany := @many_forall_spec _ (Cursor.Behind g) (InPlace g)
  mvcgen [children, hmany, -many_spec]
  all_goals simp_all [Node.IsPart.inPlace]

@[spec]
theorem jsxElement_spec : Keeps g (jsxElement self) (Placed g) := by
  mvcgen [jsxElement]
  all_goals simp_all [Node.IsPart.inPlace, inPlace_of_placed]

end Localization.Source.Parser
