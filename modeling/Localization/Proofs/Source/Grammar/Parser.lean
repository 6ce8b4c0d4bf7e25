import Mathlib
import Localization.Source.Grammar.Parser
import Localization.Proofs.Source.Gap

/-!
What a reader gives when it accepts a text: constructs in which texts and functions are in place. A reader
that is behind a gap stays behind it, and so do the constructs that it gives.
-/

open Std.Do

set_option mvcgen.warning false

namespace Localization.Source.Parser

/-- Results of a reader in which texts are in place, outside of a gap. -/
class Result (α : Type) where
  Placed : Gap → α → Prop

export Result (Placed)

section

variable {α β : Type} [Result α] [Result β] [g : Gap]

instance : Result Node := ⟨fun g n => n.IsPart ∧ n.Clear g⟩
instance : Result Kind :=
  ⟨fun _ kind => kind.isText = false ∧ kind.isNamedFunction = false ∧ kind.isWrapper = false ∧
    kind ≠ .block⟩
instance : Result Unit := ⟨fun _ _ => True⟩
instance : Result String := ⟨fun _ _ => True⟩
instance : Result Bool := ⟨fun _ _ => True⟩
instance : Result (List α) := ⟨fun g items => ∀ a ∈ items, Placed g a⟩
instance : Result (Option α) := ⟨fun g found => ∀ a ∈ found, Placed g a⟩
instance : Result (α × β) := ⟨fun g r => Placed g r.1 ∧ Placed g r.2⟩

@[simp] theorem placed_node {n : Node} : Placed g n ↔ n.IsPart ∧ n.Clear g := Iff.rfl

@[simp] theorem placed_kind {kind : Kind} :
    Placed g kind ↔ kind.isText = false ∧ kind.isNamedFunction = false ∧ kind.isWrapper = false ∧
      kind ≠ .block := Iff.rfl

@[simp] theorem placed_unit (u : Unit) : Placed g u := trivial

@[simp] theorem placed_string (text : String) : Placed g text := trivial

@[simp] theorem placed_name (name : Option String) : Placed g name :=
  fun _ _ => placed_string _

@[simp] theorem placed_names (names : List String) : Placed g names :=
  fun _ _ => placed_string _

@[simp] theorem placed_bool (b : Bool) : Placed g b := trivial

@[simp] theorem placed_pair {r : α × β} : Placed g r ↔ Placed g r.1 ∧ Placed g r.2 := Iff.rfl

@[simp] theorem placed_none : Placed g (none : Option α) := by simp [Placed]

@[simp] theorem placed_some {a : α} : Placed g (some a) ↔ Placed g a := by simp [Placed]

@[simp] theorem placed_nil : Placed g ([] : List α) := by simp [Placed]

@[simp] theorem placed_cons {a : α} {items : List α} :
    Placed g (a :: items) ↔ Placed g a ∧ Placed g items := by simp [Placed]

@[simp] theorem placed_toList {found : Option α} : Placed g found.toList ↔ Placed g found := by
  cases found <;> simp

@[simp] theorem placed_join {found : Option (Option α)} : Placed g found.join ↔ Placed g found := by
  cases found <;> simp

@[simp] theorem placed_append {items more : List α} :
    Placed g (items ++ more) ↔ Placed g items ∧ Placed g more := by
  simp [Placed, or_imp, forall_and]

theorem placed_map_fst {items : List (α × β)} (h : Placed g items) :
    Placed g (items.map Prod.fst) := by
  intro a ha
  obtain ⟨r, hr, rfl⟩ := List.mem_map.mp ha
  exact (h r hr).1

theorem placed_filter {items : List α} (h : Placed g items) (keep : α → Bool) :
    Placed g (items.filter keep) :=
  fun a ha => h a (List.mem_of_mem_filter ha)

@[simp] theorem placed_flatMap {β : Type} {f : β → List α} {items : List β} :
    Placed g (items.flatMap f) ↔ ∀ b ∈ items, Placed g (f b) := by
  simp only [Placed, List.mem_flatMap]
  exact ⟨fun h b hb a ha => h a ⟨b, hb, ha⟩, fun h a ⟨b, hb, ha⟩ => h b hb a ha⟩

end

section

variable {α : Type} {p : Parser α} {P : Cursor → Prop} {R : α → Cursor → Prop} {Q : α → Prop}

theorem spec_iff : ⦃fun c => ⌜P c⌝⦄ p ⦃⇓? a c => ⌜R a c⌝⦄ ↔
    ∀ c a after, P c → p c = .ok (a, after) → R a after := by
  constructor
  · intro h c a after hc hrun
    have hp := h c hc
    change (wp⟦p c⟧ (fun r => ⌜R r.1 r.2⌝, ExceptConds.true)).down at hp
    rw [hrun] at hp
    exact hp
  · intro h c hc
    change (wp⟦p c⟧ (fun r => ⌜R r.1 r.2⌝, ExceptConds.true)).down
    cases hrun : p c with
    | error e => trivial
    | ok r => exact h c r.1 r.2 hc hrun

/-- A reader that stays where `I` says; `Q` is said of what it gives. -/
abbrev Stays (I : Cursor → Prop) (p : Parser α) (Q : α → Prop) : Prop :=
  ⦃fun c => ⌜I c⌝⦄ p ⦃⇓? a c => ⌜I c ∧ Q a⌝⦄

/-- A reader that stays behind a gap. -/
abbrev Keeps (g : Gap) (p : Parser α) (Q : α → Prop) : Prop :=
  Stays (Cursor.Behind g) p Q

theorem keeps_iff {g : Gap} :
    Keeps g p Q ↔ ∀ c a after, c.Behind g → p c = .ok (a, after) → after.Behind g ∧ Q a :=
  spec_iff

@[spec]
theorem fail_spec : ⦃fun c => ⌜P c⌝⦄ (fail : Parser α) ⦃⇓? a c => ⌜R a c⌝⦄ :=
  spec_iff.mpr fun _ _ _ _ hrun => nomatch hrun

end

/-! ## Tokens -/

section

variable [g : Gap]

@[spec]
theorem token_spec : Keeps g token fun t => g.next ≤ t.span.lo ∧ g.Stops t.span.hi := by
  mvcgen [token]
  next h => exact ⟨h, h.lo, h.hi⟩

/-- The token that is looked at stays the current one. -/
theorem token_stays_spec : ⦃fun c => ⌜c.Behind g⌝⦄ token
    ⦃⇓? t c => ⌜c.Behind g ∧ (g.next ≤ t.span.lo ∧ g.Stops t.span.hi) ∧ c.token.kind = t.kind⌝⦄ := by
  mvcgen [token, -token_spec]
  next h => exact ⟨h, h.lo, h.hi⟩

@[spec]
theorem here_spec : Keeps g here fun lo => g.next ≤ lo ∧ g.Stops lo := by
  mvcgen [here]
  next h => exact ⟨h, h.lo, h.stops_lo⟩

@[spec]
theorem newlineBefore_spec : Keeps g newlineBefore fun _ => True := by
  mvcgen [newlineBefore]

@[spec]
theorem moveTo_spec {p : Place} (hp : g.Admits p) :
    ⦃fun _ => ⌜True⌝⦄ moveTo p ⦃⇓? _ c => ⌜c.Behind g ∧ g.next ≤ c.previousEnd⌝⦄ := by
  mvcgen [moveTo]
  exact ⟨Cursor.behind_movedTo hp, g.next_le hp⟩

@[spec]
theorem bump_spec :
    ⦃fun c => ⌜c.Behind g⌝⦄ bump ⦃⇓? _ c => ⌜c.Behind g ∧ g.next ≤ c.previousEnd⌝⦄ := by
  mvcgen [bump]
  next h => exact h.after

@[spec]
theorem peek_spec : Keeps g peek fun _ => True := by
  mvcgen [peek]

@[spec]
theorem isMark_spec (m : Mark) : Keeps g (isMark m) fun _ => True := by
  mvcgen [isMark]

@[spec]
theorem takeMark_spec (m : Mark) : Keeps g (takeMark m) fun _ => True := by
  mvcgen [takeMark]
  all_goals simp_all

@[spec]
theorem expectMark_spec (m : Mark) : Keeps g (expectMark m) fun _ => True := by
  mvcgen [expectMark]

@[spec]
theorem isWord_spec (word : String) : Keeps g (isWord word) fun _ => True := by
  mvcgen [isWord]

@[spec]
theorem takeWord_spec (word : String) : Keeps g (takeWord word) fun _ => True := by
  mvcgen [takeWord]
  all_goals simp_all

@[spec]
theorem expectWord_spec (word : String) : Keeps g (expectWord word) fun _ => True := by
  mvcgen [expectWord]

@[spec]
theorem anyName_spec : Keeps g anyName fun _ => True := by
  mvcgen [anyName]
  all_goals simp_all

@[spec]
theorem isIdentifier_spec : Keeps g isIdentifier fun _ => True := by
  mvcgen [isIdentifier]
  all_goals simp_all

@[spec]
theorem identifier_spec : Keeps g identifier fun _ => True := by
  mvcgen [identifier]
  all_goals simp_all

@[spec]
theorem canEnd_spec : Keeps g canEnd fun _ => True := by
  mvcgen [canEnd]
  all_goals simp_all

@[spec]
theorem semicolon_spec : Keeps g semicolon fun _ => True := by
  mvcgen [semicolon]
  all_goals simp_all

/-! ## Repetition -/

theorem attempt_forall_spec {α : Type} {p : Parser α} {Q : α → Prop} (h : Keeps g p Q) :
    Keeps g (attempt p) fun r => ∀ a ∈ r, Q a := by
  rw [keeps_iff] at h ⊢
  intro c r after hc hrun
  rw [attempt] at hrun
  split at hrun
  · next hp =>
      cases hrun
      simpa using h c _ _ hc hp
  · cases hrun
    exact ⟨hc, nofun⟩

@[spec]
theorem attempt_spec {α : Type} [Result α] {p : Parser α} (h : Keeps g p (Placed g)) :
    Keeps g (attempt p) (Placed g) :=
  attempt_forall_spec h

@[spec]
theorem looksLike_spec {α : Type} (p : Parser α) : Keeps g (looksLike p) fun _ => True := by
  rw [keeps_iff]
  intro c r after hc hrun
  rw [looksLike] at hrun
  split at hrun <;> cases hrun <;> exact ⟨hc, trivial⟩

omit g in
theorem many_loop_spec {α : Type} {I : Cursor → Prop} {Q : α → Prop} {step : Parser (Option α)}
    (h : Stays I step fun r => ∀ a ∈ r, Q a) (fuel : Nat) :
    Stays I (many.loop step fuel) fun items => ∀ a ∈ items, Q a := by
  induction fuel with
  | zero => exact fail_spec
  | succ fuel ih =>
      mvcgen [many.loop, h, ih]
      all_goals simp_all

omit g in
theorem many_forall_spec {α : Type} {I : Cursor → Prop} {Q : α → Prop} {step : Parser (Option α)}
    (h : Stays I step fun r => ∀ a ∈ r, Q a) : Stays I (many step) fun items => ∀ a ∈ items, Q a :=
  spec_iff.mpr fun c => spec_iff.mp (many_loop_spec h _) c

section

variable {α : Type} [Result α] {p : Parser α}

@[spec]
theorem many_spec {step : Parser (Option α)} (h : Keeps g step (Placed g)) :
    Keeps g (many step) (Placed g) :=
  many_forall_spec h

theorem extending_loop_spec {step : α → Parser (Option α)}
    (h : ∀ a, Placed g a → Keeps g (step a) (Placed g)) (fuel : Nat) (first : α)
    (hfirst : Placed g first) : Keeps g (extending.loop step fuel first) (Placed g) := by
  induction fuel generalizing first with
  | zero => exact fail_spec
  | succ fuel ih =>
      have hstep := h first hfirst
      mvcgen [extending.loop, hstep, ih]
      all_goals simp_all

@[spec]
theorem extending_spec {step : α → Parser (Option α)} {first : α} (hfirst : Placed g first)
    (h : ∀ a, Placed g a → Keeps g (step a) (Placed g)) :
    Keeps g (extending first step) (Placed g) :=
  keeps_iff.mpr fun c => keeps_iff.mp (extending_loop_spec h _ first hfirst) c

theorem withFlags_forall_spec {α : Type} {p : Parser α} {Q : α → Prop} {change : Flags → Flags}
    (h : Keeps g p Q) : Keeps g (withFlags change p) Q := by
  mvcgen [withFlags, h]
  · next hc _ _ => exact hc.withFlags _
  · next hc _ => exact ⟨hc.1.withFlags _, hc.2⟩

@[spec]
theorem withFlags_spec {change : Flags → Flags} (h : Keeps g p (Placed g)) :
    Keeps g (withFlags change p) (Placed g) :=
  withFlags_forall_spec h

@[spec]
theorem bracketed_spec (h : Keeps g p (Placed g)) : Keeps g (bracketed p) (Placed g) :=
  withFlags_spec h

@[spec]
theorem commaList_spec {close : Mark} (h : Keeps g p (Placed g)) :
    Keeps g (commaList close p) (Placed g) := by
  mvcgen [commaList, h]
  all_goals simp_all

end

/-! ## Nodes -/

theorem placed_children {n : Node} (h : Placed g n) (hkind : n.kind.isElement = false) :
    Placed g n.children :=
  fun _ hpart => ⟨h.1.inPlace.isPart_child hkind hpart, h.2.child hpart⟩

theorem node_of_parts_spec {kind : Kind} {lo : Nat} {children : List Node} (hlo : g.Misses lo)
    (hkind : kind.isText = false) (hparts : Placed g children)
    (hfunction : kind.isNamedFunction = true → (∀ part ∈ children, part.kind.isCall = false) ∧
      ∀ f ∈ children.getLast?, f.kind.isFunction = true)
    (hsingle : kind.isWrapper = true → children.length ≤ 1)
    (hblock : kind = .block → g.Misses (lo + 1)) :
    Keeps g (node kind lo children) fun n => Placed g n ∧ n.kind = kind := by
  mvcgen [node]
  next c hc =>
    refine ⟨hc, ⟨Node.isPart_mk hkind hfunction hsingle fun n hn => (hparts n hn).1, ?_⟩, rfl⟩
    exact .mk hlo hc.endsOff_previousEnd hblock (fun h => absurd h (Bool.eq_false_iff.mp hkind))
      (Node.writes_of_isElementText (Kind.isElementText_of_isText hkind)) (Node.filled_of_isText hkind)
      fun n hn => (hparts n hn).2

@[spec]
theorem node_spec {kind : Kind} {lo : Nat} {children : List Node} (hlo : g.Misses lo)
    (hkind : Placed g kind) (hparts : Placed g children) :
    Keeps g (node kind lo children) fun n => Placed g n ∧ n.kind = kind :=
  node_of_parts_spec hlo hkind.1 hparts (fun h => absurd h (Bool.eq_false_iff.mp hkind.2.1))
    (fun h => absurd h (Bool.eq_false_iff.mp hkind.2.2.1)) fun h => absurd h hkind.2.2.2

/-- A leaf is a string only where the current token is one. -/
theorem leaf_of_token_spec {kind : Kind} (hkind : kind.isElementText = false) :
    ⦃fun c => ⌜c.Behind g ∧ (kind.isText = true → ∃ value, c.token.kind = .string value)⌝⦄ leaf kind
    ⦃⇓? n c => ⌜c.Behind g ∧ Placed g n ∧ n.kind = kind⌝⦄ := by
  refine spec_iff.mpr fun c n after hc hrun => ?_
  obtain ⟨hbehind, hstring⟩ := hc
  cases hrun
  refine ⟨Cursor.behind_movedTo hbehind.after, ⟨Node.isPart_leaf.mpr hkind, ?_⟩, rfl⟩
  refine (Node.clear_leaf_iff hbehind.lo hbehind.hi).mpr ⟨Node.writes_of_isElementText hkind, ?_⟩
  intro htext _
  obtain ⟨value, hvalue⟩ := hstring htext
  exact hbehind.lt_of_string hvalue

@[spec]
theorem leaf_spec {kind : Kind} (hkind : kind.isText = false) :
    Keeps g (leaf kind) fun n => Placed g n ∧ n.kind = kind :=
  spec_iff.mpr fun c n after hc =>
    spec_iff.mp (leaf_of_token_spec (Kind.isElementText_of_isText hkind)) c n after
      ⟨hc, fun htext => absurd htext (Bool.eq_false_iff.mp hkind)⟩

@[spec]
theorem hole_spec : Keeps g hole (Placed g) := by
  mvcgen [hole]
  all_goals simp_all

variable {substitution : Parser Node}

theorem bump_ahead_spec :
    ⦃fun c => ⌜c.Ahead g⌝⦄ bump ⦃⇓? _ c => ⌜c.Behind g ∧ g.next ≤ c.previousEnd⌝⦄ := by
  mvcgen [bump, -bump_spec]
  next h => exact h.after

theorem ahead_template {c : Cursor} {kind : TokenKind} {lo : Nat} {after : Place} (hc : c.Ahead g)
    (hlo : g.next ≤ lo) (hafter : g.Admits after) :
    Cursor.Ahead g { c with token := ⟨kind, ⟨lo, after.offset⟩, false⟩, after := after } :=
  ⟨hlo, g.stops hafter, hafter, hc.previousEnd⟩

/-- A text of a template is read; the mark at its end is a token of its own, which does not stand in the
text. -/
theorem template_piece_spec {tagged : Bool} (h : Keeps g substitution (Placed g)) :
    Stays (Cursor.Ahead g) (template.piece tagged substitution) (Placed g) := by
  mvcgen [template.piece, h, bump_ahead_spec, -bump_spec]
  all_goals simp_all +zetaDelta [Cursor.Behind.toAhead]
  -- Left are the two ends of a text.
  all_goals
    next c hc _ _ after _ _ _ _ _ hscan _ _ =>
      obtain ⟨stop, hstop, henters, hend⟩ := enters_scanTemplate hscan
      have hlo := hc.le_after
      have hadmits := g.admits hc.after hstop
      have hle := g.next_le hadmits
      simp only [beq_self_eq_true, reduceCtorEq, beq_iff_eq, if_true, if_false] at hend
      refine ⟨ahead_template hc (by omega) (g.admits hadmits henters), ?_⟩
      refine (Node.clear_leaf_iff hlo ?_).mpr ⟨nofun, nofun⟩
      simp only [hend, Nat.add_sub_cancel]
      exact g.stops hadmits

theorem template_pieces_spec {tagged : Bool} (h : Keeps g substitution (Placed g)) :
    ⦃fun c => ⌜c.Behind g⌝⦄ many (template.piece tagged substitution)
    ⦃⇓? pieces c => ⌜c.Ahead g ∧ Placed g pieces⌝⦄ :=
  spec_iff.mpr fun c pieces after hc hrun =>
    spec_iff.mp (many_forall_spec (template_piece_spec h)) c pieces after hc.toAhead hrun

@[spec]
theorem template_spec {tagged : Bool} (h : Keeps g substitution (Placed g)) :
    Keeps g (template tagged substitution) (Placed g) := by
  have hpieces := @template_pieces_spec g substitution tagged h
  mvcgen [template, hpieces, -many_spec]
  all_goals simp_all [Cursor.Ahead.after, placed_filter]

end

@[simp]
def isPattern : Kind → Bool
  | .binding _ | .arrayPattern | .objectPattern => true
  | _ => false

theorem kind_of_isPattern {kind : Kind} (h : isPattern kind = true) :
    kind.isText = false ∧ kind.isElement = false ∧ kind.isNamedFunction = false ∧
      kind.isWrapper = false ∧ kind ≠ .block := by
  revert h
  cases kind <;> simp

/-- What is known of a node that was read as one of the constructs. -/
@[simp]
def Gives (g : Gap) (goal : Goal) (n : Node) : Prop :=
  Placed g n ∧ (goal = .pattern → isPattern n.kind = true)

/-- A reader of all constructs whose results have their texts in place and stay behind every gap. -/
class ReadsParts (self : Goal → Parser Node) : Prop where
  gives [g : Gap] (goal : Goal) : Keeps g (self goal) (Gives g goal)

attribute [spec] ReadsParts.gives

end Localization.Source.Parser
