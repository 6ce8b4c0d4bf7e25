import Mathlib.Data.List.Forall2
import Mathlib.Data.List.Nodup
import Localization.Proofs.Source.Way

/-!
Addresses in a syntax tree. Equal nodes may stand at several places of a tree; the address of a node says
which part is taken at each step on the way to it. Main statements: `addresses_walk`, `mem_addresses_iff`,
`nodup_addresses`, by which a walk comes to each address once.
-/

namespace Localization.Source.Node

/-- The node at an address. -/
def at? (n : Node) : List Nat → Option Node
  | [] => some n
  | i :: rest => n.children[i]?.bind fun part => part.at? rest

mutual

/-- The addresses in a tree, in the order of a walk. -/
def addresses : Node → List (List Nat)
  | mk _ _ children => [] :: addressesAll 0 children

/-- The addresses in the parts of a node, of which the first one has a given number. -/
def addressesAll (first : Nat) : List Node → List (List Nat)
  | [] => []
  | n :: rest => (addresses n).map (first :: ·) ++ addressesAll (first + 1) rest

end

theorem exists_of_mem_addressesAll {nodes : List Node} {first : Nat} {address : List Nat}
    (h : address ∈ addressesAll first nodes) : ∃ i rest, address = i :: rest ∧ first ≤ i := by
  induction nodes generalizing first with
  | nil => contradiction
  | cons n others ih =>
      rcases List.mem_append.mp h with hhere | hlater
      · obtain ⟨rest, -, rfl⟩ := List.mem_map.mp hhere
        exact ⟨first, rest, rfl, Nat.le_refl first⟩
      · obtain ⟨i, rest, hrest, hi⟩ := ih hlater
        exact ⟨i, rest, hrest, by omega⟩

theorem mem_addressesAll {nodes : List Node} {part : Node} {i : Nat} (hpart : nodes[i]? = some part)
    {rest : List Nat} (hrest : rest ∈ part.addresses) (first : Nat) :
    (first + i) :: rest ∈ addressesAll first nodes := by
  induction nodes generalizing first i with
  | nil => simp at hpart
  | cons n others ih =>
      rw [addressesAll, List.mem_append]
      cases i with
      | zero =>
          obtain rfl : n = part := by simpa using hpart
          exact .inl (List.mem_map.mpr ⟨rest, hrest, rfl⟩)
      | succ i =>
          have hlater := ih hpart (first + 1)
          rw [Nat.add_right_comm] at hlater
          exact .inr hlater

theorem mem_addresses_of_at? {n part : Node} {address : List Nat} (h : n.at? address = some part) :
    address ∈ n.addresses := by
  induction address generalizing n with
  | nil =>
      cases n
      exact List.mem_cons_self
  | cons i rest ih =>
      cases n with
      | mk kind span children =>
          obtain ⟨child, hchild, hrest⟩ := Option.bind_eq_some_iff.mp h
          apply List.mem_cons_of_mem
          have hmem := mem_addressesAll hchild (ih hrest) 0
          rwa [Nat.zero_add] at hmem

mutual

/-- A walk comes to the nodes at the addresses, one after the other. -/
theorem addresses_walk : ∀ n : Node, List.Forall₂ (fun a m => n.at? a = some m) n.addresses n.walk
  | mk kind span children => by
      rw [addresses, walk]
      refine .cons rfl ?_
      refine (addressesAll_walkAll [] children).imp ?_
      rintro a m ⟨i, rest, part, rfl, hpart, hrest⟩
      exact Option.bind_eq_some_iff.mpr ⟨part, hpart, hrest⟩

theorem addressesAll_walkAll : ∀ front nodes : List Node, List.Forall₂ (fun a m => ∃ i rest part,
    a = i :: rest ∧ (front ++ nodes)[i]? = some part ∧ part.at? rest = some m)
      (addressesAll front.length nodes) (walkAll nodes)
  | front, [] => .nil
  | front, n :: others => by
      rw [addressesAll, walkAll]
      apply List.rel_append
      · refine List.forall₂_map_left_iff.mpr ((addresses_walk n).imp ?_)
        intro a m ha
        exact ⟨front.length, a, n, rfl, by simp, ha⟩
      · have hothers := addressesAll_walkAll (front ++ [n]) others
        rwa [List.length_append, List.length_singleton, List.append_assoc] at hothers

theorem nodup_addresses : ∀ n : Node, n.addresses.Nodup
  | mk kind span children => by
      rw [addresses, List.nodup_cons]
      refine ⟨fun hempty => ?_, nodup_addressesAll 0 children⟩
      obtain ⟨i, rest, hrest, -⟩ := exists_of_mem_addressesAll hempty
      contradiction

theorem nodup_addressesAll : ∀ (first : Nat) (nodes : List Node), (addressesAll first nodes).Nodup
  | _, [] => List.nodup_nil
  | first, n :: others => by
      rw [addressesAll]
      apply List.Nodup.append
      · exact (nodup_addresses n).map fun a b hab => (List.cons.inj hab).2
      · exact nodup_addressesAll (first + 1) others
      · intro address hhere hlater
        obtain ⟨rest, -, rfl⟩ := List.mem_map.mp hhere
        obtain ⟨i, more, hmore, hi⟩ := exists_of_mem_addressesAll hlater
        have hfirst := (List.cons.inj hmore).1
        omega

end

theorem mem_addresses_iff {n : Node} {address : List Nat} :
    address ∈ n.addresses ↔ ∃ m, n.at? address = some m := by
  constructor
  · intro h
    obtain ⟨i, hi, rfl⟩ := List.getElem_of_mem h
    have hwalk := addresses_walk n
    have hi' : i < n.walk.length := hwalk.length_eq ▸ hi
    exact ⟨_, hwalk.get hi hi'⟩
  · rintro ⟨m, hm⟩
    exact mem_addresses_of_at? hm

theorem mem_walk_of_at? {n m : Node} {address : List Nat} (h : n.at? address = some m) :
    m ∈ n.walk := by
  induction address generalizing n with
  | nil =>
      obtain rfl := Option.some.inj h
      exact mem_walk_self n
  | cons i rest ih =>
      obtain ⟨part, hpart, hrest⟩ := Option.bind_eq_some_iff.mp h
      exact mem_walk_of_child (List.mem_of_getElem? hpart) (ih hrest)

/-- What a walk picks out is what stands at the addresses that are picked out. -/
theorem forall₂_filterMap_walk {α : Type} (n : Node) (f : Node → Option α) :
    List.Forall₂ (fun a o => ∃ m, n.at? a = some m ∧ f m = some o)
      (n.addresses.filter fun a => ((n.at? a).bind f).isSome) (n.walk.filterMap f) := by
  have hall : ∀ {addresses nodes}, List.Forall₂ (fun a m => n.at? a = some m) addresses nodes →
      List.Forall₂ (fun a o => ∃ m, n.at? a = some m ∧ f m = some o)
        (addresses.filter fun a => ((n.at? a).bind f).isSome) (nodes.filterMap f) := by
    intro addresses nodes h
    induction h with
    | nil => exact .nil
    | @cons a m addresses nodes ha _ ih =>
        cases hf : f m with
        | none => rwa [List.filterMap_cons_none hf, List.filter_cons_of_neg (by simp [ha, hf])]
        | some o =>
            rw [List.filterMap_cons_some hf, List.filter_cons_of_pos (by simp [ha, hf])]
            exact .cons ⟨m, ha, hf⟩ ih
  exact hall (addresses_walk n)

end Localization.Source.Node
