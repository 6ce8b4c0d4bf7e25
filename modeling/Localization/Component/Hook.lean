import Localization.Component.Basic
import Localization.Edit.Basic
import Localization.Text.Line
import Localization.Text.Quoted

/-!
The statement that declares the lookup function at the top of a component.
-/

namespace Localization

open Source (Node Kind)

/-- The statement that calls the hook, with the namespace if there is one. -/
def hookStatement (space : Option String) : String :=
  let argument :=
    match space with
    | some text => Text.Quoted.encode text
    | none => ""
  "const \x7b " ++ lookupName ++ " \x7d = " ++ hookName ++ "(" ++ argument ++ ");"

/-- Whether a node is a call of the hook by its name. -/
def isHookCall (n : Node) : Bool :=
  match n.kind, n.children with
  | .call, callee :: _ => callee.kind == .identifier hookName
  | _, _ => false

namespace Candidate

def callsHook (c : Candidate) : Bool :=
  c.body.walk.any isHookCall

/-- The text that puts a statement behind the opening brace of a block. -/
def statementInBlock (source : List Char) (statement : String) (block : Node) : String :=
  match block.children with
  | [] => " " ++ statement ++ " "
  | first :: _ =>
    if Text.sameLine source block.span.lo first.span.lo then " " ++ statement
    else
      Text.lineEnding source ++ String.ofList (Text.lineIndent source first.span.lo) ++ statement

/-- The edits that declare the lookup function; none if the body already calls the hook. An
expression becomes a block that returns it. -/
def hookEdits? (c : Candidate) (source : List Char) (space : Option String) :
    Option (List Edit) :=
  if c.callsHook then none
  else
    let statement := hookStatement space
    if c.hasBlock then
      some [Edit.insert (c.body.span.lo + 1) (statementInBlock source statement c.body)]
    else
      some [Edit.insert c.body.span.lo ("\x7b " ++ statement ++ " return "),
        Edit.insert c.body.span.hi "; \x7d"]

end Candidate

end Localization
