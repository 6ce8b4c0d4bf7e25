import Localization.Proofs.Key.Found
import Localization.Proofs.Key.Unique
import Localization.Proofs.Source.Order.Module

/-!
The order in which keys are found. A tree is walked in the order in which it is stored, so keys come in the
order of the text exactly if no node has calls in parts that it stores in another order. Main statement:
`occurrences_ordered_iff`.
-/

namespace Localization

open Source (Node Kind Span Gap)

namespace Occurrence

variable {kind : Kind} {span : Span} {n : Node} {file : String} {source : List Char} {tree : Node}

/-- The occurrences in a tree, each with the byte where its call begins, in the order of a walk. -/
def located (file : String) (source : List Char) (tree : Node) : List (Nat × Occurrence) :=
  tree.walk.filterMap fun n => (ofNode? file source n).map fun o => (n.span.lo, o)

/-- Where the calls that give keys begin, in the order of a walk. -/
def starts (tree : Node) : List Nat :=
  tree.walk.filterMap fun n => (keyOfCall? n).map fun _ => n.span.lo

/-- Nodes of which the calls that give keys are in the order of the text. -/
def InOrder (parts : List Node) : Prop :=
  parts.Pairwise fun a b => ∀ s ∈ starts a, ∀ t ∈ starts b, s ≤ t

theorem map_fst_located : (located file source tree).map Prod.fst = starts tree := by
  rw [located, List.map_filterMap, starts]
  congr 1
  funext n
  simp [ofNode?, Function.comp_def]

theorem map_snd_located : (located file source tree).map Prod.snd = collect file source tree := by
  rw [located, List.map_filterMap, collect]
  congr 1
  funext n
  simp [Function.comp_def]

theorem starts_mk (kind : Kind) (span : Span) (children : List Node) : starts (.mk kind span children) =
    ((keyOfCall? (.mk kind span children)).map fun _ => span.lo).toList ++ children.flatMap starts := by
  have hbelow : (Node.walkAll children).filterMap (fun n => (keyOfCall? n).map fun _ => n.span.lo) =
      children.flatMap starts := by
    rw [Node.walkAll_eq_flatMap, List.filterMap_flatMap]
    rfl
  rw [starts, Node.walk, List.filterMap_cons, hbelow]
  cases keyOfCall? (.mk kind span children) <;> rfl

theorem kind_of_keyOfCall? {found : String × Option String} (h : keyOfCall? n = some found) :
    n.kind = .call := by
  unfold keyOfCall? at h
  split at h
  · assumption
  · contradiction

theorem starts_subset (n : Node) : starts n ⊆ n.callStarts := by
  intro s hs
  obtain ⟨m, hm, hs⟩ := List.mem_filterMap.mp hs
  obtain ⟨found, hfound, rfl⟩ := Option.map_eq_some_iff.mp hs
  refine List.mem_map.mpr ⟨m, List.mem_filter.mpr ⟨hm, ?_⟩, rfl⟩
  rw [kind_of_keyOfCall? hfound]
  rfl

theorem inOrder_of_before {parts : List Node} (h : parts.Pairwise Node.Before) : InOrder parts :=
  h.imp fun hbefore s hs t ht => hbefore s (starts_subset _ hs) t (starts_subset _ ht)

/-- A call begins in front of the calls in it, so only its parts may be out of order. -/
theorem pairwise_starts_mk_iff [Gap] {children : List Node} (h : (Node.mk kind span children).Tidy) :
    (starts (.mk kind span children)).Pairwise (· ≤ ·) ↔
      (∀ part ∈ children, (starts part).Pairwise (· ≤ ·)) ∧ InOrder children := by
  rw [starts_mk, List.pairwise_append, List.pairwise_flatMap]
  constructor
  · exact fun hsorted => hsorted.2.1
  · intro hchildren
    refine ⟨?_, hchildren, fun s hs t ht => ?_⟩
    · cases keyOfCall? (.mk kind span children) <;> simp
    · obtain ⟨found, hfound, rfl⟩ := Option.map_eq_some_iff.mp (Option.mem_toList.mp hs)
      obtain ⟨part, hpart, ht⟩ := List.mem_flatMap.mp ht
      exact h.first (kind_of_keyOfCall? hfound) hpart t (starts_subset part ht)

/-- Keys are in the order of the text exactly if they are in the parts of loose nodes. -/
theorem pairwise_starts_iff [g : Gap] (h : n.Tidy) : (starts n).Pairwise (· ≤ ·) ↔
    ∀ m ∈ n.walk, m.kind.isLoose = true → InOrder m.children := by
  induction h with
  | @mk kind span children lo opening text first ordered parts ih =>
      have htidy : (Node.mk kind span children).Tidy := .mk lo opening text first ordered parts
      have hhere : InOrder children ↔ (kind.isLoose = true → InOrder children) := by
        refine ⟨fun h _ => h, fun h => ?_⟩
        cases hkind : kind.isLoose with
        | true => exact h hkind
        | false => exact inOrder_of_before (ordered hkind)
      have hwalk : (∀ m ∈ (Node.mk kind span children).walk, m.kind.isLoose = true → InOrder m.children) ↔
          (kind.isLoose = true → InOrder children) ∧
            ∀ part ∈ children, ∀ m ∈ part.walk, m.kind.isLoose = true → InOrder m.children := by
        rw [Node.walk, List.forall_mem_cons, Node.walkAll_eq_flatMap, List.forall_mem_flatMap]
        exact Iff.rfl
      rw [pairwise_starts_mk_iff htidy, hwalk, ← hhere, and_comm]
      exact and_congr_right fun _ => forall₂_congr ih

instance (parts : List Node) : Decidable (InOrder parts) :=
  inferInstanceAs (Decidable (parts.Pairwise _))

end Occurrence

/-- Occurrences in the order in which their calls begin. -/
def InTextOrder (located : List (Nat × Occurrence)) : Prop :=
  located.Pairwise fun a b => a.1 ≤ b.1

/-- Of the occurrences of a key, the set of keys keeps one that begins first. -/
def KeepsFirst (located : List (Nat × Occurrence)) : Prop :=
  ∀ o ∈ (KeySet.ofOccurrences (located.map Prod.snd)).unique,
    ∃ start, (start, o) ∈ located ∧ ∀ p ∈ located, p.2.key = o.key → start ≤ p.1

theorem InTextOrder.keepsFirst {located : List (Nat × Occurrence)} (h : InTextOrder located) :
    KeepsFirst located := by
  intro o ho
  rw [KeySet.ofOccurrences_eq] at ho
  obtain ⟨⟨o, i⟩, hfirst, rfl⟩ := List.mem_map.mp ho
  obtain ⟨hi, hbefore⟩ := List.mem_filter.mp hfirst
  have hat : (located.map Prod.snd)[i]? = some o := List.mem_zipIdx_iff_getElem?.mp hi
  rw [List.getElem?_map, Option.map_eq_some_iff] at hat
  obtain ⟨p, hp, rfl⟩ := hat
  obtain ⟨hlength, hp⟩ := List.getElem?_eq_some_iff.mp hp
  refine ⟨p.1, hp ▸ List.getElem_mem hlength, fun q hq hkey => ?_⟩
  obtain ⟨j, hj, rfl⟩ := List.getElem_of_mem hq
  -- An occurrence of the key in front of this one would have been kept instead.
  have hle : i ≤ j := by
    by_contra hlt
    have hoccurs : KeySet.occursBefore (located.map Prod.snd) i p.2.key = true := by
      refine List.any_eq_true.mpr ⟨located[j].2, ?_, beq_iff_eq.mpr hkey⟩
      exact List.mem_take_iff_getElem.mpr ⟨j, by rw [List.length_map]; omega, by simp⟩
    rw [hoccurs] at hbefore
    contradiction
  rcases Nat.lt_or_eq_of_le hle with hlt | rfl
  · rw [← hp]
    exact List.pairwise_iff_getElem.mp h i j hlength hj hlt
  · rw [hp]

theorem Occurrence.inTextOrder_located_iff {file : String} {source : List Char} {tree : Node} :
    InTextOrder (located file source tree) ↔ (starts tree).Pairwise (· ≤ ·) := by
  rw [← @map_fst_located file source tree, List.pairwise_map]
  exact Iff.rfl

open Occurrence (located InOrder)

/-- The keys of a source come in the order of the text exactly if no node holds calls with keys in parts that
it stores in another order; then each key is kept where it occurs first in the text. -/
theorem occurrences_ordered_iff {s : SourceText} {tree : Node}
    (htree : Source.parseFile s.path s.text = .ok tree) :
    Extraction.occurrences s = .ok ((located s.path s.text tree).map Prod.snd) ∧
      (InTextOrder (located s.path s.text tree) ↔
        ∀ n ∈ tree.walk, n.kind.isLoose = true → InOrder n.children) ∧
      (InTextOrder (located s.path s.text tree) → KeepsFirst (located s.path s.text tree)) := by
  refine ⟨?_, ?_, InTextOrder.keepsFirst⟩
  · rw [Occurrence.map_snd_located]
    exact Extraction.occurrences_of_parseFile htree
  · rw [Occurrence.inTextOrder_located_iff]
    exact Occurrence.pairwise_starts_iff (g := Source.Parser.sourceGap s.text) (Source.Parser.tidy_parseFile htree)

/-- Calls in a class, in a loop `do` and in the default of a parameter, none of them out of order. -/
def orderedCalls : List Char :=
  "class A \x7b m(x = t(\"a\")) \x7b do \x7b t(\"b\"); \x7d while (x); \x7d \x7d\nt(\"a\");\n".toList

theorem occurrences_ordered_orderedCalls : ∃ tree,
    Source.parseFile "a.tsx" orderedCalls = .ok tree ∧ Occurrence.keysIn tree = ["a", "b", "a"] ∧
      InTextOrder (located "a.tsx" orderedCalls tree) ∧ KeepsFirst (located "a.tsx" orderedCalls tree) := by
  obtain ⟨tree, htree, hfacts⟩ := exists_module "a.tsx" orderedCalls
    (p := fun tree => Occurrence.keysIn tree == ["a", "b", "a"] &&
      tree.walk.all fun n => !n.kind.isLoose || decide (InOrder n.children))
    (by decide +kernel)
  simp only [Bool.and_eq_true, beq_iff_eq, List.all_eq_true] at hfacts
  obtain ⟨hkeys, hordered⟩ := hfacts
  obtain ⟨-, hiff, hkeeps⟩ := occurrences_ordered_iff (s := ⟨"a.tsx", orderedCalls⟩) htree
  have horder := hiff.mpr fun n hn hloose => by simpa [hloose] using hordered n hn
  exact ⟨tree, htree, hkeys, horder, hkeeps horder⟩

/-- A loop `do` with a call in its body and one in its test. -/
def testedLoop : List Char :=
  "do \x7b t(\"a\"); \x7d while (t(\"b\"));\n".toList

/-- Keys do not always come in the order of the text: the test of a loop `do` is walked before its body. -/
theorem occurrences_not_always_ordered :
    ¬ ∀ (s : SourceText) (tree : Node), Source.parseFile s.path s.text = .ok tree →
      InTextOrder (located s.path s.text tree) := by
  intro hall
  obtain ⟨tree, htree, hstarts⟩ := exists_module "a.tsx" testedLoop
    (p := fun tree => Occurrence.starts tree == [22, 5]) (by decide +kernel)
  have hordered := Occurrence.inTextOrder_located_iff.mp (hall ⟨"a.tsx", testedLoop⟩ tree htree)
  rw [beq_iff_eq.mp hstarts] at hordered
  exact absurd hordered (by decide)

end Localization
