import Localization.Proofs.Component.Alike
import Localization.Proofs.Component.Wrap

/-!
The tree that a wrapped source is meant to have. It is the tree of the source in which the texts of the
components have become calls of the lookup function; besides, it has the hooks and the import that are
added. Main definitions: `wrappedModule`, `ReadsBack`.
-/

namespace Localization

open Source (Node Kind Span ScopeStack)

/-- A node that is not read from the source. -/
def newNode (kind : Kind) (children : List Node) : Node :=
  .mk kind ⟨0, 0⟩ children

/-- The call of a function by its name, with a string if there is one. -/
def callNode (name : String) (argument : Option String) : Node :=
  newNode .call (newNode (.identifier name) [] ::
    match argument with
    | some text => [newNode (.argument false) [newNode (.string (some text)) []]]
    | none => [])

/-- The tree of a call at a site. -/
def LiteralSite.node (site : LiteralSite) (call : Node) : Node :=
  match site with
  | .expression => call
  | .attribute | .elementText => newNode .jsxContainer [call]
  | .propertyKey => newNode .keyComputed [call]

/-- The text between tags that some white space is. -/
def blankNodes (blanks : List Char) (span : Span) : List Node :=
  if blanks.isEmpty then []
  else [.leaf (.jsxText (String.ofList (Source.Parser.joinLineEnds blanks))) span]

def leadingBlanks (cs : List Char) : List Char :=
  cs.takeWhile Text.isBlank

def trailingBlanks (cs : List Char) : List Char :=
  (cs.reverse.takeWhile Text.isBlank).reverse

/-- The nodes that take the place of a literal. Between tags, white space around the text stays. -/
def Literal.nodes (l : Literal) (generator : KeyGenerator) (source : List Char) (span : Span) :
    List Node :=
  let key := (generator.keyFor l.text OrderedMap.empty).1
  let call := l.site.node (callNode lookupName (some key))
  match l.site with
  | .elementText =>
    let raw := Text.sliceBytes source span.lo span.hi
    blankNodes (leadingBlanks raw) ⟨span.lo, l.start⟩ ++ call ::
      blankNodes (trailingBlanks raw) ⟨l.stop, span.hi⟩
  | _ => [call]

mutual

/-- The nodes that a node of a component becomes. `translated` says that it is a part of a call of the
lookup function. -/
def wrapTexts (o : WrapOptions) (source : List Char) (translated : Bool) : Node → List Node
  | .mk kind span children =>
    let n := Node.mk kind span children
    match Literal.ofNode? source n with
    | some l => if o.classifier.accepts l.text then l.nodes o.generator source span else [n]
    | none =>
      if kind == .type then [n]
      else if kind == .expressionStatement && children.any Node.isString then [n]
      else if translated && Literal.isStringArgument kind children then [n]
      else [.mk kind span (wrapTextsAll o source (Literal.isLookupCall kind children) children)]

def wrapTextsAll (o : WrapOptions) (source : List Char) (translated : Bool) :
    List Node → List Node
  | [] => []
  | n :: rest => wrapTexts o source translated n ++ wrapTextsAll o source translated rest

end

def hookNode (space : Option String) : Node :=
  newNode (.variables "const")
    [newNode .declarator
      [newNode .objectPattern [newNode .shorthandPattern [newNode (.binding lookupName) []]],
        callNode hookName space]]

/-- A body with the hook in it. An expression becomes a block that returns it. -/
def withHook (space : Option String) : List Node → Node
  | [.mk .block span children] => .mk .block span (hookNode space :: children)
  | body => newNode .block [hookNode space, newNode .returnStatement body]

def Found.wrappedBody (f : Found) (o : WrapOptions) (source : List Char) : List Node :=
  let body := wrapTexts o source false f.candidate.body
  if f.needsHook then [withHook o.space body] else body

/-- Whether a part of a function is its body. -/
def isBody (part : Node) : Bool :=
  !(part.kind == .parameter || part.kind == .decorator || part.kind == .type)

def replaceBody (body : List Node) : List Node → List Node
  | [] => []
  | part :: rest => if isBody part then body ++ rest else part :: replaceBody body rest

def withBody (body : List Node) (f : Node) : Node :=
  .mk f.kind f.span (replaceBody body f.children)

/-- An expression in which something is done inside any number of parentheses. -/
def insideParentheses (g : Node → Node) : Node → Node
  | .mk .paren span [inner] => .mk .paren span [insideParentheses g inner]
  | n => g n

/-- The node of a candidate with another body. -/
def withCandidateBody (body : List Node) (n : Node) : Node :=
  match n.kind, n.children with
  | .functionDeclaration, [name, f] => .mk n.kind n.span [name, withBody body f]
  | .exportDefaultDeclaration, [.mk kind span [name, f]] =>
    .mk n.kind n.span [.mk kind span [name, withBody body f]]
  | .declarator, [target, value] =>
    .mk n.kind n.span [target, insideParentheses (withBody body) value]
  | _, _ => n

mutual

/-- What a node becomes when the candidates in it are wrapped. -/
def wrapCandidates (o : WrapOptions) (source : List Char) (scopes : ScopeStack) : Node → Node
  | .mk kind span children =>
    let n := Node.mk kind span children
    match Candidate.ofNode? n with
    | some c =>
      if (c.literals source o.classifier).isEmpty then n
      else withCandidateBody ((Found.mk c scopes).wrappedBody o source) n
    | none =>
      if kind == .type then n
      else .mk kind span (wrapCandidatesAll o source (scopesInside scopes n) children)

def wrapCandidatesAll (o : WrapOptions) (source : List Char) (scopes : ScopeStack) :
    List Node → List Node
  | [] => []
  | n :: rest => wrapCandidates o source scopes n :: wrapCandidatesAll o source scopes rest

end

def hookSpecifier : Node :=
  newNode (.importNamed (some hookName) hookName false) []

def hookImport (space : String) : Node :=
  newNode (.importDeclaration false (some space)) [hookSpecifier, newNode .moduleName []]

/-- Puts a node behind the last one with a property. -/
def insertBehindLast (p : Node → Bool) (new : Node) : List Node → List Node
  | [] => []
  | n :: rest =>
    if p n && !rest.any p then n :: new :: rest else n :: insertBehindLast p new rest

def withHookSpecifier (item : Node) : Node :=
  let p := if item.children.any isNamedSpecifier then isNamedSpecifier else isSpecifier
  .mk item.kind item.span (insertBehindLast p hookSpecifier item.children)

/-- Extends the first import from a module that can be extended. -/
def extendFirst (space : String) : List Node → List Node
  | [] => []
  | item :: rest =>
    if isValueImportFrom space item && (extendImport? item).isSome then
      withHookSpecifier item :: rest
    else item :: extendFirst space rest

def withHookImport (space : String) (items : List Node) : List Node :=
  let imports := items.filter (isValueImportFrom space)
  if imports.any providesHook then items
  else if imports.any fun item => (extendImport? item).isSome then extendFirst space items
  else
    items.takeWhile Node.isStringStatement ++
      hookImport space :: items.dropWhile Node.isStringStatement

/-- The tree that a module is meant to have when its texts are wrapped. -/
def wrappedModule (o : WrapOptions) (source : List Char) (module : Node) : Node :=
  let scopes := ScopeStack.empty.declare (Node.moduleNames module.children)
  let items := wrapCandidatesAll o source scopes module.children
  .mk module.kind module.span
    (if (wrapModule o source module).hookCount = 0 then items
      else withHookImport o.importSource items)

/-- The output of a wrapping reads as the module that is meant. -/
def ReadsBack (o : WrapOptions) (path : String) (source output : List Char) : Prop :=
  ∃ module again, Source.parseFile path source = .ok module ∧
    Source.parseFile path output = .ok again ∧
    alike output source again (wrappedModule o source module) = true

theorem readsBack_iff_any {o : WrapOptions} {path : String} {source output : List Char} :
    ReadsBack o path source output ↔ ((Source.parseFile path source).toOption.any fun module =>
      (Source.parseFile path output).toOption.any fun again =>
        alike output source again (wrappedModule o source module)) = true := by
  constructor
  · rintro ⟨module, again, hmodule, hagain, halike⟩
    simp [hmodule, hagain, halike, Except.toOption]
  · intro h
    obtain ⟨module, hmodule, hoften⟩ := exists_module path source h
    obtain ⟨again, hagain, halike⟩ := exists_module path output hoften
    exact ⟨module, again, hmodule, hagain, halike⟩

end Localization
