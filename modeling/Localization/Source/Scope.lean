/-!
Names in nested scopes. A stack of scopes always has its outermost scope.
-/

namespace Localization.Source

/-- The names of each enclosing scope, innermost first. -/
structure ScopeStack where
  inner : List (List String)
  outermost : List String
  deriving DecidableEq, Repr, Inhabited

namespace ScopeStack

def empty : ScopeStack :=
  ⟨[], []⟩

def enter (s : ScopeStack) (names : List String) : ScopeStack :=
  ⟨names :: s.inner, s.outermost⟩

/-- Leaves the innermost scope; the outermost one is never left. -/
def exit (s : ScopeStack) : ScopeStack :=
  ⟨s.inner.tail, s.outermost⟩

/-- Adds names to the innermost scope. -/
def declare (s : ScopeStack) (names : List String) : ScopeStack :=
  match s.inner with
  | [] => ⟨[], names ++ s.outermost⟩
  | scope :: rest => ⟨(names ++ scope) :: rest, s.outermost⟩

/-- Whether some scope has the name. -/
def binds (s : ScopeStack) (name : String) : Bool :=
  s.inner.any (·.contains name) || s.outermost.contains name

theorem exit_enter (s : ScopeStack) (names : List String) : (s.enter names).exit = s := rfl

theorem binds_enter (s : ScopeStack) (names : List String) (name : String) :
    (s.enter names).binds name = (names.contains name || s.binds name) := by
  simp [binds, enter, Bool.or_assoc]

end ScopeStack

end Localization.Source
