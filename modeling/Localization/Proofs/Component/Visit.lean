import Localization.Proofs.Component.InScope
import Localization.Source.Scope
import Mathlib.Data.List.Forall2

/-!
The search for components as a walk that changes one stack of scopes: it enters a scope in front of the parts
of a node and leaves it behind them. A sequence of operations that leaves every scope it enters, and declares
names in no other scope, changes nothing. Main statements: `ScopeStack.run_of_isNested`, `scopes_do_not_leak`.
-/

/-! ## Operations on nested scopes -/

namespace Localization.Source

/-- What can be done to nested scopes. -/
inductive ScopeOp where
  | enter (names : List String)
  | exit
  | declare (names : List String)
  deriving DecidableEq, Repr

/-- Whether operations are well nested behind so many scopes that were entered and not left: each of those
is left in the end, and names are declared in them and in what is entered later only. -/
def ScopeOp.isNested : Nat → List ScopeOp → Bool
  | entered, [] => entered == 0
  | entered, enter _ :: rest => isNested (entered + 1) rest
  | 0, exit :: _ => false
  | entered + 1, exit :: rest => isNested entered rest
  | 0, declare _ :: _ => false
  | entered + 1, declare _ :: rest => isNested (entered + 1) rest

namespace ScopeStack

/-- Does one operation. -/
def step (s : ScopeStack) : ScopeOp → ScopeStack
  | .enter names => s.enter names
  | .exit => s.exit
  | .declare names => s.declare names

/-- Does several operations, one after another. -/
def run (s : ScopeStack) (ops : List ScopeOp) : ScopeStack :=
  ops.foldl step s

/-- The stack with further scopes inside its own ones. -/
def enterAll (s : ScopeStack) (entered : List (List String)) : ScopeStack :=
  ⟨entered ++ s.inner, s.outermost⟩

theorem enter_enterAll (s : ScopeStack) (entered : List (List String)) (names : List String) :
    (s.enterAll entered).enter names = s.enterAll (names :: entered) := rfl

theorem exit_enterAll_cons (s : ScopeStack) (entered : List (List String)) (names : List String) :
    (s.enterAll (names :: entered)).exit = s.enterAll entered := rfl

theorem declare_enterAll_cons (s : ScopeStack) (entered : List (List String))
    (scope names : List String) :
    (s.enterAll (scope :: entered)).declare names = s.enterAll ((names ++ scope) :: entered) := rfl

/-- What lies below the scopes that were entered is not touched, and those are all left in the end. -/
theorem run_enterAll (s : ScopeStack) {ops : List ScopeOp} {entered : List (List String)}
    (h : ScopeOp.isNested entered.length ops = true) : (s.enterAll entered).run ops = s := by
  induction ops generalizing entered with
  | nil =>
      have hnone : entered = [] := List.length_eq_zero_iff.mp (beq_iff_eq.mp h)
      rw [hnone]
      rfl
  | cons op rest ih =>
      rw [run, List.foldl_cons]
      cases op with
      | enter names =>
          rw [step, enter_enterAll]
          exact ih (by simpa [ScopeOp.isNested] using h)
      | exit =>
          cases entered with
          | nil => simp [ScopeOp.isNested] at h
          | cons scope entered =>
              rw [step, exit_enterAll_cons]
              exact ih (by simpa [ScopeOp.isNested] using h)
      | declare names =>
          cases entered with
          | nil => simp [ScopeOp.isNested] at h
          | cons scope entered =>
              rw [step, declare_enterAll_cons]
              exact ih (by simpa [ScopeOp.isNested] using h)

theorem run_of_isNested (s : ScopeStack) {ops : List ScopeOp} (h : ScopeOp.isNested 0 ops = true) :
    s.run ops = s := by
  have hnone : ScopeOp.isNested ([] : List (List String)).length ops = true := h
  exact run_enterAll s hnone

end ScopeStack

end Localization.Source

/-! ## The walk -/

namespace Localization

open Source (Node Kind Span ScopeOp ScopeStack)

/-! ### The walk and its scopes -/

mutual

/-- Finds the outermost candidates in a node, and gives the scopes that are open behind it. -/
def visit (s : ScopeStack) : Node → List Found × ScopeStack
  | .mk kind span children =>
    match Candidate.ofNode? (.mk kind span children) with
    | some c => ([⟨c, s⟩], s)
    | none =>
      if kind == .type then ([], s)
      else
        match openedScope? (.mk kind span children) with
        | some names =>
          let (found, inside) := visitAll (s.enter names) children
          (found, inside.exit)
        | none => visitAll s children

/-- Finds the outermost candidates in several nodes, each in the scopes that the one before it left. -/
def visitAll (s : ScopeStack) : List Node → List Found × ScopeStack
  | [] => ([], s)
  | n :: rest =>
    let (found, behind) := visit s n
    let (others, last) := visitAll behind rest
    (found ++ others, last)

end

/-- Finds the candidates of a module, whose names are declared in the scope that is open. -/
def visitModule (s : ScopeStack) (module : Node) : List Found × ScopeStack :=
  visitAll (s.declare (Node.moduleNames module.children)) module.children

mutual

/-- A walk of a node finds what the search finds, and leaves the scopes as they were. -/
theorem visit_eq (s : ScopeStack) (n : Node) : visit s n = (findCandidates s n, s) := by
  cases n with
  | mk kind span children =>
      rw [visit, findCandidates]
      cases hcandidate : Candidate.ofNode? (.mk kind span children) with
      | some c => rfl
      | none =>
          by_cases htype : (kind == .type) = true
          · simp [htype]
          · cases hscope : openedScope? (.mk kind span children) with
            | none =>
                simp only [htype, scopesInside, hscope]
                exact visitAll_eq s children
            | some names =>
                simp only [htype, scopesInside, hscope, visitAll_eq (s.enter names) children,
                  ScopeStack.exit_enter]
                rfl

theorem visitAll_eq (s : ScopeStack) (nodes : List Node) :
    visitAll s nodes = (findCandidatesAll s nodes, s) := by
  cases nodes with
  | nil => rfl
  | cons n rest => simp only [visitAll, findCandidatesAll, visit_eq s n, visitAll_eq s rest]

end

/-! ### Where a candidate stands -/

mutual

/-- The ways from a node down to the outermost candidates in it, in the order of a walk. -/
def candidateWays : Node → List (List Node)
  | .mk kind span children =>
    if (Candidate.ofNode? (.mk kind span children)).isSome then [[]]
    else if kind == .type then []
    else candidateWaysAll children

/-- The ways that lead through several nodes. -/
def candidateWaysAll : List Node → List (List Node)
  | [] => []
  | n :: rest => (candidateWays n).map (n :: ·) ++ candidateWaysAll rest

end

/-- A candidate is what its way from a node leads to, in the scopes that the nodes on the way open. -/
structure Found.StandsAt (f : Found) (scopes : ScopeStack) (n : Node) (way : List Node) : Prop where
  isWay : n.IsWay way
  candidate : Candidate.ofNode? (n.endOf way) = some f.candidate
  scopes : f.scopes = (n :: way).foldl scopesInside scopes

/-- The same of a way that begins with one of several nodes. -/
def Found.StandsIn (f : Found) (scopes : ScopeStack) (nodes way : List Node) : Prop :=
  ∃ n ∈ nodes, ∃ rest, way = n :: rest ∧ f.StandsAt scopes n rest

theorem scopesInside_of_ofNode? {n : Node} {c : Candidate} (h : Candidate.ofNode? n = some c)
    (scopes : ScopeStack) : scopesInside scopes n = scopes := by
  rcases ofNode?_kind h with hkind | hkind | hkind <;> simp [scopesInside, openedScope?, hkind]

theorem Found.StandsIn.standsAt {f : Found} {scopes : ScopeStack} {n : Node} {way : List Node}
    (h : f.StandsIn (scopesInside scopes n) n.children way) : f.StandsAt scopes n way := by
  obtain ⟨part, hpart, rest, rfl, hf⟩ := h
  exact ⟨⟨hpart, hf.isWay⟩, hf.candidate, hf.scopes⟩

theorem Found.StandsIn.tail {f : Found} {scopes : ScopeStack} {nodes way : List Node}
    (h : f.StandsIn scopes nodes way) (n : Node) : f.StandsIn scopes (n :: nodes) way := by
  obtain ⟨m, hm, hrest⟩ := h
  exact ⟨m, List.mem_cons_of_mem n hm, hrest⟩

mutual

/-- The candidates of a node stand at the ends of the ways to them. -/
theorem forall₂_findCandidates (scopes : ScopeStack) (n : Node) :
    List.Forall₂ (fun way f => f.StandsAt scopes n way) (candidateWays n) (findCandidates scopes n) := by
  cases n with
  | mk kind span children =>
      rw [candidateWays, findCandidates]
      cases hcandidate : Candidate.ofNode? (.mk kind span children) with
      | some c =>
          refine .cons ⟨trivial, hcandidate, ?_⟩ .nil
          exact (scopesInside_of_ofNode? hcandidate scopes).symm
      | none =>
          by_cases htype : (kind == .type) = true
          · simp [htype]
          · simp only [htype]
            have hparts := forall₂_findCandidatesAll
              (scopesInside scopes (.mk kind span children)) children
            exact hparts.imp fun way f hf => Found.StandsIn.standsAt hf

/-- The candidates of several nodes stand at the ends of the ways through those nodes. -/
theorem forall₂_findCandidatesAll (scopes : ScopeStack) (nodes : List Node) :
    List.Forall₂ (fun way f => f.StandsIn scopes nodes way) (candidateWaysAll nodes)
      (findCandidatesAll scopes nodes) := by
  cases nodes with
  | nil => exact .nil
  | cons n rest =>
      have hfirst := forall₂_findCandidates scopes n
      have hrest := forall₂_findCandidatesAll scopes rest
      refine List.rel_append ?_ ?_
      · refine List.forall₂_map_left_iff.mpr (hfirst.imp fun way f hf => ?_)
        exact ⟨n, List.mem_cons_self, way, rfl, hf⟩
      · exact hrest.imp fun way f hf => hf.tail n

end

/-- A name is bound inside nested nodes exactly if it was bound around them or one of them brings it. -/
theorem binds_foldl_scopesInside_iff {name : String} {scopes : ScopeStack} {way : List Node} :
    (way.foldl scopesInside scopes).binds name = true ↔
      scopes.binds name = true ∨ ∃ n ∈ way, name ∈ n.trackedNames := by
  induction way generalizing scopes with
  | nil => simp
  | cons n rest ih =>
      rw [List.foldl_cons, ih, binds_scopesInside_iff, List.exists_mem_cons_iff, or_assoc, or_left_comm]

theorem binds_moduleScope_iff {name : String} {module : Node} :
    (ScopeStack.empty.declare (Node.moduleNames module.children)).binds name = true ↔
      name ∈ Node.moduleNames module.children := by
  simp [ScopeStack.binds, ScopeStack.declare, ScopeStack.empty]

/-- A walk of a statement, an expression or a declaration leaves the scopes exactly as they were. So the scopes
at a candidate bind a name exactly if the module declares it or a function, an arrow function or a block around
the candidate brings it; what stands beside the way to the candidate does not count. Operations on scopes that
are well nested keep every name bound or unbound. -/
theorem scopes_do_not_leak :
    (∀ (s : ScopeStack) (n : Node), visit s n = (findCandidates s n, s)) ∧
      (∀ module : Node,
        visitModule .empty module = (moduleCandidates module,
          ScopeStack.empty.declare (Node.moduleNames module.children)) ∧
        List.Forall₂
          (fun way f => module.IsWay way ∧
            Candidate.ofNode? (module.endOf way) = some f.candidate ∧
            ∀ name, f.scopes.binds name = true ↔
              name ∈ Node.moduleNames module.children ∨ ∃ n ∈ way, name ∈ n.trackedNames)
          (candidateWaysAll module.children) (moduleCandidates module)) ∧
      ∀ (s : ScopeStack) (ops : List ScopeOp), ScopeOp.isNested 0 ops = true →
        ∀ name, (s.run ops).binds name = s.binds name := by
  refine ⟨visit_eq, fun module => ⟨visitAll_eq _ _, ?_⟩, fun s ops hops name => ?_⟩
  · have hstand := forall₂_findCandidatesAll
      (ScopeStack.empty.declare (Node.moduleNames module.children)) module.children
    refine hstand.imp ?_
    rintro way f ⟨item, hitem, rest, rfl, hway, hcandidate, hscopes⟩
    refine ⟨⟨hitem, hway⟩, hcandidate, fun name => ?_⟩
    rw [hscopes, binds_foldl_scopesInside_iff, binds_moduleScope_iff]
  · rw [s.run_of_isNested hops]

/-- A component in a function with a parameter of the name of the lookup function, and one behind it. -/
def lookupParameter : List Char :=
  ("function f(t) \x7b function A() \x7b return <p>안녕</p>; \x7d \x7d\n" ++
    "function B() \x7b return <p>안녕</p>; \x7d\n").toList

/-- The parameter counts for the component in its function alone, and a scope that was left for nothing. -/
theorem scopes_do_not_leak_from_lookupParameter :
    (∃ module, Source.parseFile "a.tsx" lookupParameter = .ok module ∧
      (moduleCandidates module).map (fun f => (f.candidate.name, f.scopes.binds lookupName)) =
        [("A", true), ("B", false)] ∧
      List.Forall₂
        (fun way f => f.scopes.binds lookupName = true ↔
          lookupName ∈ Node.moduleNames module.children ∨ ∃ n ∈ way, lookupName ∈ n.trackedNames)
        (candidateWaysAll module.children) (moduleCandidates module)) ∧
    ∀ s : ScopeStack,
      (s.run [.enter [lookupName], .enter [], .declare ["u"], .exit, .exit]).binds lookupName =
        s.binds lookupName := by
  obtain ⟨module, hmodule, hfound⟩ := exists_module "a.tsx" lookupParameter
    (p := fun module =>
      (moduleCandidates module).map (fun f => (f.candidate.name, f.scopes.binds lookupName)) ==
        [("A", true), ("B", false)]) (by decide +kernel)
  obtain ⟨-, hmodules, hoperations⟩ := scopes_do_not_leak
  refine ⟨⟨module, hmodule, beq_iff_eq.mp hfound, ?_⟩, fun s => hoperations s _ rfl lookupName⟩
  exact (hmodules module).2.imp fun way f hf => hf.2.2 lookupName

end Localization
