import Localization.Proofs.Source.Bound.Pattern
import Localization.Proofs.Source.Order.Reader

/-!
Readers whose trees are formed. What is asked of a node depends on where it is put, its slot: a pattern has
to bind names, and what stands beside a pattern must not be one. The laws of the combinators are instances, so
that a reader that only combines others has its own by unfolding. Main definitions: `Slot`, and `Fills` for
readers whose nodes fill a slot.
-/

namespace Localization.Source

/-- Kinds of nodes that are neither patterns nor declarations of values. -/
@[reducible]
def Kind.isPlain : Kind → Bool
  | .binding _ | .arrayPattern | .objectPattern | .keyPattern | .shorthandPattern | .defaultPattern
  | .restPattern | .parameter | .variables _ | .functionDeclaration | .classDeclaration | .enum => false
  | _ => true

theorem Kind.isPlain_iff {kind : Kind} :
    kind.isPlain = true ↔ kind.bindsNames = false ∧ kind.declaresNames = false := by
  cases kind <;> simp [Kind.bindsNames, Kind.declaresNames]

namespace Parser

/-! ## Slots -/

/-- Where a node is put. -/
inductive Slot where
  | any
  /-- Where no pattern stands. -/
  | plain
  /-- A parameter, or a part of a pattern. -/
  | pattern
  /-- A pattern that a type annotation may follow. -/
  | target
  /-- The name of a declaration. -/
  | name
  | declarator

/-- What is asked of a node in a slot. -/
def Slot.Takes : Slot → Node → Prop
  | any, _ => True
  | plain, n => n.IsSilent
  | pattern, n => ∃ names, n.Binds names
  | target, n => isPattern n.kind = true ∧ ∃ names, n.Binds names
  | name, n => ∃ name span, n = .leaf (.binding name) span
  | declarator, n => ∃ names, n.BindsAt names

variable {α β : Type} [HasParts α] [HasParts β] {s u : Slot}

/-- All nodes of a value are formed and fill a slot. -/
class Suits (s : Slot) (a : α) : Prop where
  takes : ∀ n ∈ parts a, n.Formed ∧ s.Takes n

/-- A reader that gives values whose nodes fill a slot. -/
class Fills (s : Slot) (p : Parser α) : Prop where
  of_run : ∀ {c a c'}, p c = .ok (a, c') → Suits s a

/-- A condition on constants, found by evaluation. -/
class Holds (b : Bool) : Prop where
  holds : b = true

instance holds_true : Holds true :=
  ⟨rfl⟩

/-- A kind of nodes that are neither patterns nor declarations of values. -/
class PlainKind (kind : Kind) : Prop where
  isPlain : kind.isPlain = true

instance plainKind_of_holds {kind : Kind} [h : Holds kind.isPlain] : PlainKind kind :=
  ⟨h.holds⟩

instance plainKind_ite {P : Prop} [Decidable P] {kind other : Kind} [hkind : PlainKind kind]
    [hother : PlainKind other] : PlainKind (if P then kind else other) := by
  split
  · exact hkind
  · exact hother

/-! ### Values -/

/-- What is known of a value is found by its type. -/
instance suits_val (a : {a : α // Suits s a}) : Suits s a.1 :=
  a.2

section

variable {a : α}

theorem Suits.weaken (h : Suits s a) (hslot : ∀ n, s.Takes n → u.Takes n) : Suits u a :=
  ⟨fun n hn => ⟨(h.takes n hn).1, hslot n (h.takes n hn).2⟩⟩

instance (priority := low) suits_any_of_plain [h : Suits .plain a] : Suits .any a :=
  h.weaken fun _ _ => trivial

instance (priority := low) suits_any_of_pattern [h : Suits .pattern a] : Suits .any a :=
  h.weaken fun _ _ => trivial

instance (priority := low) suits_any_of_declarator [h : Suits .declarator a] : Suits .any a :=
  h.weaken fun _ _ => trivial

instance (priority := low) suits_pattern_of_target [h : Suits .target a] : Suits .pattern a :=
  h.weaken fun _ hn => hn.2

theorem Slot.target_of_name {n : Node} (h : name.Takes n) : target.Takes n := by
  obtain ⟨name, span, rfl⟩ := h
  exact ⟨rfl, [name], .name⟩

instance (priority := low) suits_target_of_name [h : Suits .name a] : Suits .target a :=
  h.weaken fun _ => Slot.target_of_name

end

theorem suits_of_parts_eq_nil {a : α} (h : parts a = []) : Suits s a := by
  constructor
  rw [h]
  exact nofun

theorem Suits.of_subset {a : α} {b : β} (h : Suits s b) (hparts : parts a ⊆ parts b) : Suits s a :=
  ⟨fun n hn => h.takes n (hparts hn)⟩

section

variable {n : Node} {nodes more : List Node} {a : α} {b : β}

theorem suits_node_iff : Suits s n ↔ n.Formed ∧ s.Takes n := by
  constructor
  · exact fun h => h.takes n (List.mem_singleton_self n)
  · intro h
    constructor
    intro m hm
    rwa [List.mem_singleton.mp hm]

theorem Suits.formed (h : Suits s n) : n.Formed :=
  (suits_node_iff.mp h).1

instance suits_nil : Suits s ([] : List Node) :=
  suits_of_parts_eq_nil rfl

instance suits_cons [hn : Suits s n] [hrest : Suits s nodes] : Suits s (n :: nodes) :=
  ⟨List.forall_mem_cons.mpr ⟨suits_node_iff.mp hn, hrest.takes⟩⟩

instance suits_append [h : Suits s nodes] [hmore : Suits s more] : Suits s (nodes ++ more) :=
  ⟨List.forall_mem_append.mpr ⟨h.takes, hmore.takes⟩⟩

instance suits_none : Suits s (none : Option α) :=
  suits_of_parts_eq_nil rfl

instance suits_some [h : Suits s a] : Suits s (some a) :=
  h.of_subset (List.Subset.refl _)

instance suits_pair [ha : Suits s a] [hb : Suits s b] : Suits s (a, b) :=
  ⟨List.forall_mem_append.mpr ⟨ha.takes, hb.takes⟩⟩

theorem Suits.of_some (h : Suits s (some a)) : Suits s a :=
  h.of_subset (List.Subset.refl _)

theorem Suits.fst (h : Suits s (a, b)) : Suits s a :=
  h.of_subset (List.subset_append_left _ _)

theorem Suits.snd (h : Suits s (a, b)) : Suits s b :=
  h.of_subset (List.subset_append_right _ _)

instance suits_flag {flag : Bool} : Suits s flag :=
  suits_of_parts_eq_nil rfl

instance suits_kind {kind : Kind} : Suits s kind :=
  suits_of_parts_eq_nil rfl

instance suits_text {text : Option String} : Suits s text :=
  suits_of_parts_eq_nil rfl

instance suits_toList {found : Option Node} [h : Suits s found] : Suits s found.toList := by
  cases found with
  | none => exact suits_nil
  | some n => exact h.of_subset (List.Subset.refl _)

instance suits_join {found : Option (Option α)} [h : Suits s found] : Suits s found.join := by
  cases found with
  | none => exact suits_none
  | some a => exact h.of_subset (List.Subset.refl _)

instance suits_flatten {lists : List (List Node)} [h : Suits s lists] : Suits s lists.flatten :=
  h.of_subset (List.Subset.refl _)

instance suits_firsts {pairs : List (Node × Bool)} [h : Suits s pairs] : Suits s (pairs.map Prod.fst) :=
  h.of_subset (List.Subset.refl _)

instance suits_filter [h : Suits s nodes] (keep : Node → Bool) : Suits s (nodes.filter keep) :=
  ⟨fun n hn => h.takes n (List.mem_filter.mp hn).1⟩

instance suits_ite {P : Prop} [Decidable P] {a b : α} [ha : Suits s a] [hb : Suits s b] :
    Suits s (if P then a else b) := by
  split
  · exact ha
  · exact hb

instance suits_children [h : Suits .plain n] : Suits .any n.children :=
  ⟨fun _ hpart => ⟨h.formed.child hpart, trivial⟩⟩

end

/-! ### Nodes -/

section

variable {kind : Kind} {span : Span} {lo hi : Nat} {children : List Node}

theorem suits_mk_of_plainKind (h : PlainKind kind) (hchildren : Suits .any children) :
    Suits .plain (Node.mk kind span children) := by
  obtain ⟨hbinds, hdeclares⟩ := Kind.isPlain_iff.mp h.isPlain
  refine suits_node_iff.mpr ⟨.mk ?_ ?_ fun n hn => (hchildren.takes n hn).1, hbinds⟩
  · exact fun hkind => absurd (hbinds.symm.trans hkind) nofun
  · exact fun hkind => absurd (hdeclares.symm.trans hkind) nofun

/-- A pattern over formed parts. -/
theorem formed_of_binds {names : List String} (h : (Node.mk kind span children).Binds names)
    (hkind : kind.declaresNames = false) (hchildren : Suits .any children) :
    (Node.mk kind span children).Formed :=
  .mk (fun _ => ⟨names, h⟩) (fun hdeclares => absurd (hkind.symm.trans hdeclares) nofun)
    fun n hn => (hchildren.takes n hn).1

theorem formed_of_declares {names : List String} (h : (Node.mk kind span children).Declares names)
    (hkind : kind.bindsNames = false) (hchildren : Suits .any children) :
    (Node.mk kind span children).Formed :=
  .mk (fun hbinds => absurd (hkind.symm.trans hbinds) nofun) (fun _ => ⟨names, h⟩)
    fun n hn => (hchildren.takes n hn).1

instance suits_leaf [h : PlainKind kind] : Suits .plain (Node.leaf kind span) :=
  suits_mk_of_plainKind h suits_nil

instance suits_name_leaf {name : String} : Suits .name (Node.leaf (.binding name) span) :=
  suits_node_iff.mpr ⟨formed_of_binds .name rfl suits_nil, name, span, rfl⟩

instance suits_hole : Suits .pattern (Node.leaf .hole span) :=
  suits_node_iff.mpr ⟨.mk nofun nofun nofun, [], .hole⟩

/-- Nodes that are all patterns bind names together. -/
theorem exists_bindsAll_of_suits (h : Suits .pattern children) :
    ∃ names, Node.BindsAll children names :=
  Node.exists_bindsAll fun n hn => (h.takes n hn).2

theorem silent_of_suits (h : Suits .plain children) : ∀ n ∈ children, n.IsSilent :=
  fun n hn => (h.takes n hn).2

end

/-! ## Readers -/

section

variable {p q : Parser α}

theorem Fills.weaken (h : Fills s p) (hslot : ∀ n, s.Takes n → u.Takes n) : Fills u p :=
  ⟨fun hrun => (h.of_run hrun).weaken hslot⟩

instance (priority := low) fills_any_of_plain [h : Fills .plain p] : Fills .any p :=
  h.weaken fun _ _ => trivial

instance (priority := low) fills_any_of_pattern [h : Fills .pattern p] : Fills .any p :=
  h.weaken fun _ _ => trivial

instance (priority := low) fills_pattern_of_target [h : Fills .target p] : Fills .pattern p :=
  h.weaken fun _ hn => hn.2

instance (priority := low) fills_target_of_name [h : Fills .name p] : Fills .target p :=
  h.weaken fun _ => Slot.target_of_name

instance fills_pure {a : α} [h : Suits s a] : Fills s (pure a : Parser α) := by
  constructor
  intro c b c' hrun
  cases hrun
  exact h

instance fills_fail : Fills s (fail : Parser α) :=
  ⟨fun hrun => nomatch hrun⟩

theorem Fills.ite {P : Prop} [Decidable P] (hp : Fills s p) (hq : Fills s q) :
    Fills s (if P then p else q) := by
  split
  · exact hp
  · exact hq

instance fills_ite {P : Prop} [Decidable P] [hp : Fills s p] [hq : Fills s q] :
    Fills s (if P then p else q) :=
  hp.ite hq

instance fills_withFlags [h : Fills s p] {change : Flags → Flags} : Fills s (withFlags change p) := by
  constructor
  intro c a c' hrun
  obtain ⟨after, hp, -⟩ := exists_of_withFlags hrun
  exact h.of_run hp

instance fills_bracketed [h : Fills s p] : Fills s (bracketed p) :=
  fills_withFlags

instance fills_attempt [h : Fills s p] : Fills s (attempt p) := by
  constructor
  intro c found c' hrun
  rw [attempt] at hrun
  split at hrun
  · next hp =>
      cases hrun
      exact suits_some (h := h.of_run hp)
  · cases hrun
    exact suits_none

end

/-! ### One after the other -/

/-- Types without nodes. -/
class Bare (α : Type) : Prop

instance : Bare Nat where
instance : Bare Bool where
instance : Bare Unit where
instance : Bare String where
instance : Bare Token where
instance : Bare Cursor where
instance {α : Type} [Bare α] : Bare (Option α) where
instance {α : Type} [Bare α] : Bare (List α) where

theorem Fills.skip {β : Type} {x : Parser β} {f : β → Parser α} (h : ∀ b, Fills s (f b)) :
    Fills s (x >>= f) := by
  constructor
  intro c a c' hrun
  obtain ⟨b, c₁, -, hrun⟩ := bind_eq_ok.mp hrun
  exact (h b).of_run hrun

theorem Fills.read {x : Parser β} {f : β → Parser α} (hx : Fills u x) (h : ∀ b, Suits u b → Fills s (f b)) :
    Fills s (x >>= f) := by
  constructor
  intro c a c' hrun
  obtain ⟨b, c₁, hb, hrun⟩ := bind_eq_ok.mp hrun
  exact (h b (hx.of_run hb)).of_run hrun

instance fills_skip {β : Type} [Bare β] {x : Parser β} {f : β → Parser α} [h : ∀ b, Fills s (f b)] :
    Fills s (x >>= f) :=
  .skip h

instance (priority := high) fills_pure_bind {β : Type} {b : β} {f : β → Parser α} [h : Fills s (f b)] :
    Fills s (pure b >>= f) :=
  h

section

variable {x : Parser β} {f : β → Parser α}

/-! The slot of what is read first is tried out, from the places beside patterns to any place. -/

instance (priority := 900) fills_bind_plain [hx : Fills .plain x]
    [h : ∀ b : {b : β // Suits .plain b}, Fills s (f b.1)] : Fills s (x >>= f) :=
  hx.read fun b hb => h ⟨b, hb⟩

instance (priority := 850) fills_bind_name [hx : Fills .name x]
    [h : ∀ b : {b : β // Suits .name b}, Fills s (f b.1)] : Fills s (x >>= f) :=
  hx.read fun b hb => h ⟨b, hb⟩

instance (priority := 800) fills_bind_target [hx : Fills .target x]
    [h : ∀ b : {b : β // Suits .target b}, Fills s (f b.1)] : Fills s (x >>= f) :=
  hx.read fun b hb => h ⟨b, hb⟩

instance (priority := 700) fills_bind_pattern [hx : Fills .pattern x]
    [h : ∀ b : {b : β // Suits .pattern b}, Fills s (f b.1)] : Fills s (x >>= f) :=
  hx.read fun b hb => h ⟨b, hb⟩

instance (priority := 650) fills_bind_declarator [hx : Fills .declarator x]
    [h : ∀ b : {b : β // Suits .declarator b}, Fills s (f b.1)] : Fills s (x >>= f) :=
  hx.read fun b hb => h ⟨b, hb⟩

instance (priority := 600) fills_bind_any [hx : Fills .any x]
    [h : ∀ b : {b : β // Suits .any b}, Fills s (f b.1)] : Fills s (x >>= f) :=
  hx.read fun b hb => h ⟨b, hb⟩

end

theorem Fills.readOption {x : Parser (Option β)} {f : Option β → Parser α} (hx : Fills u x)
    (hnone : Fills s (f none)) (hsome : ∀ b, Suits u b → Fills s (f (some b))) : Fills s (x >>= f) := by
  refine hx.read fun found hfound => ?_
  cases found with
  | none => exact hnone
  | some b => exact hsome b hfound.of_some

instance fills_bind_option {x : Parser (Option β)} {f : Option β → Parser α} [hx : Fills .plain x]
    [hnone : Fills s (f none)] [hsome : ∀ b : {b : β // Suits .plain b}, Fills s (f (some b.1))] :
    Fills s (x >>= f) :=
  hx.readOption hnone fun b hb => hsome ⟨b, hb⟩

instance (priority := 950) fills_bind_option_any {x : Parser (Option β)} {f : Option β → Parser α}
    [hx : Fills .any x] [hnone : Fills s (f none)]
    [hsome : ∀ b : {b : β // Suits .any b}, Fills s (f (some b.1))] : Fills s (x >>= f) :=
  hx.readOption hnone fun b hb => hsome ⟨b, hb⟩

instance fills_bind_pair {γ : Type} [HasParts γ] {x : Parser (β × γ)} {f : β × γ → Parser α}
    [hx : Fills .any x]
    [h : ∀ (b : {b : β // Suits .any b}) (d : {d : γ // Suits .any d}), Fills s (f (b.1, d.1))] :
    Fills s (x >>= f) :=
  hx.read fun r hr => h ⟨r.1, hr.fst⟩ ⟨r.2, hr.snd⟩

/-! ### Repetition -/

theorem takes_of_loop {step : Parser (Option α)} (h : Fills s step) {fuel : Nat} {c c' : Cursor}
    {items : List α} (hrun : many.loop step fuel c = .ok (items, c')) :
    ∀ a ∈ items, Suits s a := by
  induction fuel generalizing c items with
  | zero => contradiction
  | succ fuel ih =>
      obtain ⟨found, c₁, hfound, hrest⟩ := exists_of_loop hrun
      cases found with
      | none =>
          obtain ⟨rfl, -⟩ := hrest
          exact nofun
      | some a =>
          obtain ⟨rest, hloop, rfl⟩ := hrest
          exact List.forall_mem_cons.mpr ⟨(h.of_run hfound).of_some, ih hloop⟩

theorem fills_many_of_parts [HasParts (List α)] {step : Parser (Option α)} (h : Fills s step)
    (hparts : ∀ items : List α, parts items = items.flatMap parts) : Fills s (many step) := by
  constructor
  intro c items c' hrun
  constructor
  rw [hparts]
  exact List.forall_mem_flatMap.mpr fun a ha => (takes_of_loop h hrun a ha).takes

instance fills_many {step : Parser (Option Node)} [h : Fills s step] : Fills s (many step) :=
  fills_many_of_parts h fun items => (List.flatMap_singleton' items).symm

instance fills_many_lists {step : Parser (Option (List Node))} [h : Fills s step] : Fills s (many step) :=
  fills_many_of_parts h fun _ => List.flatMap_id.symm

instance fills_many_pairs {step : Parser (Option (Node × Bool))} [h : Fills s step] : Fills s (many step) := by
  refine fills_many_of_parts h fun items => ?_
  rw [show (parts : Node × Bool → List Node) = fun r => [r.1] from funext fun r => List.append_nil _]
  exact List.map_eq_flatMap

instance fills_commaList {close : Mark} {item : Parser Node} [h : Fills s item] :
    Fills s (commaList close item) := by
  have hstep : Fills s (do
      if ← isMark close then return none
      let a ← item
      unless ← isMark close do expectMark .comma
      return some a) :=
    .skip fun _ => .ite inferInstance (h.read fun _ _ => inferInstance)
  exact .read (fills_many (h := hstep)) fun _ _ => inferInstance

theorem fills_extending_loop {first : α} {step : α → Parser (Option α)} (hfirst : Suits s first)
    (h : ∀ a, Suits s a → Fills s (step a)) (fuel : Nat) : Fills s (extending.loop step fuel first) := by
  induction fuel generalizing first with
  | zero => exact fills_fail
  | succ fuel ih =>
      refine (h first hfirst).read fun found hfound => ?_
      cases found with
      | none => exact fills_pure
      | some b => exact ih hfound.of_some

instance fills_extending {first : α} {step : α → Parser (Option α)} [hfirst : Suits s first]
    [h : ∀ a : {a : α // Suits s a}, Fills s (step a.1)] : Fills s (extending first step) :=
  ⟨fun hrun => (fills_extending_loop hfirst (fun a ha => h ⟨a, ha⟩) _).of_run hrun⟩

/-! ### Templates -/

theorem fills_template_piece {tagged : Bool} {substitution : Parser Node} (h : Fills .plain substitution) :
    Fills .plain (template.piece tagged substitution) := by
  unfold template.piece
  refine .skip fun c => .ite inferInstance (.ite inferInstance ?_)
  split
  · exact fills_fail
  · next text how after _ => cases how <;> infer_instance

instance fills_template {tagged : Bool} {substitution : Parser Node} [h : Fills .plain substitution] :
    Fills .plain (template tagged substitution) :=
  .read (fills_many (h := fills_template_piece h)) fun _ _ => inferInstance

/-! ### Nodes that are read -/

section

variable {kind : Kind} {lo : Nat} {children : List Node}

theorem fills_node_of (h : ∀ span, Suits s (Node.mk kind span children)) :
    Fills s (node kind lo children) := by
  constructor
  intro c n c' hrun
  cases hrun
  exact h _

instance fills_node [hkind : PlainKind kind] [h : Suits .any children] : Fills .plain (node kind lo children) :=
  fills_node_of fun _ => suits_mk_of_plainKind hkind h

instance fills_leaf [PlainKind kind] : Fills .plain (leaf kind) := by
  unfold leaf
  infer_instance

instance fills_name_leaf {name : String} : Fills .name (leaf (.binding name)) := by
  unfold leaf
  infer_instance

instance fills_hole : Fills .pattern hole := by
  unfold hole
  infer_instance

end

end Parser

end Localization.Source
