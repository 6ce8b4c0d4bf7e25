import Localization.Proofs.Source.Order.Type

/-!
Functions and classes: their parts are read in the order of the text, and stored in another one.
-/

namespace Localization.Source.Parser

variable {self : Goal → Parser Node} [g : Gap] [ReadsParts self] [∀ goal, Reader true (self goal)]
  {base lo : Nat} {marks acc : List Node}

instance reader_statementsToBrace {item : Parser Node} [Reader true item] :
    Reader true (statementsToBrace item) := by
  refine ⟨fun base => .bind (reader_many ⟨fun base => ?_⟩) fun items => .skip fun _ => .pure (.refl _)⟩
  exact .skip fun _ => .skip fun _ => .ite .none (.some .only)

instance reader_blockStatement : Reader true (blockStatement self) := by
  refine ⟨fun base => ⟨?_⟩⟩
  intro c n c' hc hbase hacc hrun
  have hopening : ∃ rest, g.Admits ⟨'\x7b' :: rest, c.token.span.lo⟩ := by
    obtain ⟨_, c₁, hhere, hmark⟩ := bind_eq_ok.mp hrun
    cases hhere
    obtain ⟨_, c₁, hmark, -⟩ := bind_eq_ok.mp hmark
    obtain ⟨rest, hstart⟩ := hc.head_start (kind_of_expectMark hmark) rfl
    exact ⟨rest, hstart ▸ hc.start⟩
  have hread : Reads true base [] (do
      expectMark .leftBrace
      let items ← bracketed (statementsToBrace (self (.statement true)))
      node .block c.token.span.lo items) :=
    .skip fun _ => .read fun items => .block hc.stops_lo hopening
  exact hread.of_run hc hbase hacc hrun

instance reader_functionBody? : Reader true (functionBody? self) :=
  ⟨fun _ => .skip fun _ => .ite (.read fun _ => .pure (.refl _)) (.skip fun _ => .pure (.refl _))⟩

theorem reads_functionRest {o : Bool} (hlo : g.Stops lo) (isAsync isGenerator : Bool) :
    Reads o base marks (functionRest self lo marks isAsync isGenerator) := by
  refine .ofLoose (.withFlags (.read fun typeParams => .read fun ps => .read fun result => .read fun body => ?_) _)
  exact .loose hlo rfl nofun (by grind)

theorem reader_namedFunction (hlo : g.Stops lo) (isAsync : Bool) :
    Reader true (namedFunction self lo isAsync) := by
  refine ⟨fun base => .skip fun _ => .skip fun isGenerator => .skip fun _ => .named fun name hname => ?_⟩
  exact .bind ⟨fun _ => reads_functionRest hlo isAsync isGenerator⟩ fun f => .front hname (.pure (.refl _))

/-! ### Arrow functions -/

theorem reader_arrowHead {isAsync : Bool} {result : Parser (List Node)} [Reader true result] :
    Reader false (arrowHead isAsync self result) := by
  refine ⟨fun base => .withFlags (.read fun typeParams => .read fun ps => .read fun types => ?_) _⟩
  exact .skip fun _ => .ite .failBind (.skip fun _ => .pureLoose (by grind))

omit [ReadsParts self] in
theorem reads_arrowRest {isAsync : Bool} {ps types : List Node} (hlo : g.Stops lo)
    (hacc : ps ++ types ⊆ acc) : Reads false base acc (arrowRest self lo isAsync ps types) := by
  refine .withFlags (.skip fun _ => .ite (.read fun body => ?_) (.read fun body => ?_)) _
  · exact .loose hlo rfl nofun (by grind)
  · exact .loose hlo rfl nofun (by grind)

omit [ReadsParts self] in
instance reader_colonAnnotation : Reader true (do
    unless ← isMark .colon do fail
    returnAnnotation? self : Parser (List Node)) := by
  refine ⟨fun _ => .skip fun _ => .require ?_⟩
  exact .only

theorem reader_arrowFrom? (hlo : g.Stops lo) (isAsync : Bool) :
    Reader true (arrowFrom? self lo isAsync) := by
  have hannotated : Reader false (do
      let head ← arrowHead isAsync self do
        unless ← isMark .colon do fail
        returnAnnotation? self
      let e ← arrowRest self lo isAsync head.1 head.2
      unless ← isMark .colon do fail
      return e) := by
    refine ⟨fun base => .bind reader_arrowHead fun head => ?_⟩
    refine .last (reads_arrowRest hlo (List.Subset.refl _)) fun e => .skip fun _ => ?_
    exact .require (.pure (.refl _))
  refine ⟨fun base => .ofLooseOption (.skip fun c => ?_)⟩
  -- What follows an annotated arrow that was not found follows at once where none is looked for.
  refine .ite (.bind (.attempt hannotated) ?hrest) (?hrest none)
  refine fun annotated => .ite (.pure (.refl _)) (.shrink ?_ (List.nil_sublist _))
  refine .bind (.attempt reader_arrowHead) fun head => ?_
  cases head with
  | none => exact .none
  | some head => exact .some (reads_arrowRest hlo (List.Subset.refl _))

instance reader_soleParameter : Reader true soleParameter := by
  refine ⟨fun base => .token fun t hlo => .skip fun name => .skip fun _ => .ite .failBind (.skip fun _ => ?_)⟩
  refine .leaf (.binding name) _ hlo rfl (.regroup (.pure (.refl _)) fun hi hbase h => ?_)
  exact h.node hlo nofun nofun nofun hbase fun _ => rfl

instance passes_beginsTypeParameters : Passes beginsTypeParameters := passes_looksLike _

instance reader_arrowFunction? : Reader true (arrowFunction? self) := by
  refine ⟨fun base => .ofLooseOption (.here fun lo hlo => .skip fun next => .skip fun _ => ?_)⟩
  have hfrom (isAsync : Bool) : Reader true (arrowFrom? self lo isAsync) := reader_arrowFrom? hlo isAsync
  have hsole {isAsync : Bool} {p : Node} : Reads false base ([] ++ parts p) (do
      return some (← arrowRest self lo isAsync [p] []) : Parser (Option Node)) :=
    .some (reads_arrowRest hlo (List.Subset.refl _))
  have hasync : Reader true (do bump; soleParameter) := ⟨fun _ => .skip fun _ => .only⟩
  have hrest : Reads false base [] (do
      if ← isIdentifier then
        match ← attempt soleParameter with
        | some p => return some (← arrowRest self lo false [p] [])
        | none => return none
      else if ← isMark .leftParen then arrowFrom? self lo false
      else if (← isMark .less) && (nameOf? next).isSome then
        if (← get).flags.jsx && !(← beginsTypeParameters) then return none
        return (← attempt (arrowFrom? self lo false)).join
      else return none : Parser (Option Node)) := by
    refine .skip fun _ => .ite (.read fun found => ?_) (.skip fun _ => .ite .only (.skip fun _ => .ite ?_ .none))
    · cases found with
      | none => exact .none
      | some p => exact hsole
    · refine .skip fun _ => .skip fun _ => .ite .none (.read fun found => ?_)
      cases found <;> exact .pure (.refl _)
  refine .ite (.ite reads_retry (.read fun found => ?_)) hrest
  cases found with
  | none => exact hrest
  | some p => exact hsole

/-! ### Classes -/

instance passes_modifier? (words : List String) : Passes (modifier? words) :=
  passes_of_keeps fun _ => modifier?_spec words

instance passes_modifiers : Passes modifiers := passes_of_keeps fun _ => modifiers_spec

omit [ReadsParts self] in
theorem reads_classPropertyRest {key : Node} (hlo : g.Stops lo) :
    Reads false base (marks ++ [key]) (classPropertyRest self lo marks key) := by
  refine .ite .failBind (.read fun types => .skip fun _ => .optional fun value => .skip fun _ => ?_)
  exact .loose hlo rfl nofun (by grind)

theorem reads_memberFromKey {words : List String} {isAsync isGenerator isAccessor : Bool} (hlo : g.Stops lo) :
    Reads true base marks (memberFromKey self lo marks words isAsync isGenerator isAccessor) := by
  refine .ofLoose (.here fun functionLo hstops => .read fun key => .skip fun _ => .otherwise ?_)
  refine .skip fun _ => .skip fun _ => .ite (.refuse (.ite (.withFlags ?_ _) ?_)) (.ite .fail ?_)
  · refine .read fun typeParams => .read fun ps => .read fun result => .read fun body => ?_
    exact .loose hlo rfl nofun (by grind)
  · have hmethod : Reads false base ([key] ++ marks) (do
        let f ← functionRest self functionLo marks isAsync isGenerator
        node .classMethod lo [key, f]) :=
      .tail (fun _ => reads_functionRest hstops isAsync isGenerator) fun f =>
        .loose hlo rfl nofun (List.Subset.refl _)
    exact .regroup hmethod fun hi _ h => h.subset (by grind)
  · exact reads_classPropertyRest hlo

instance reader_classMember : Reader true (classMember self) := by
  refine ⟨fun base => .here fun lo hlo => .skip fun _ => .ite (.node hlo rfl (.refl _)) ?_⟩
  refine .read fun marks => .skip fun words => .skip fun next => .skip fun _ => .ite ?_ (.skip fun _ => .ite ?_ ?_)
  · exact .skip fun _ => .read fun body => .node hlo rfl (List.sublist_append_right _ _)
  · exact .read fun items => .skip fun _ => .node hlo rfl (List.sublist_append_right _ _)
  · refine .skip fun _ => .when (.skip fun _ => .skip fun next => .skip fun _ => .skip fun _ => .when ?_)
    exact reads_memberFromKey hlo

instance reader_heritage : Reader true (heritage self) :=
  ⟨fun _ => .here fun _ hlo => .skip fun _ => .read fun _ => .node hlo rfl (.refl _)⟩

omit [ReadsParts self] in
instance reader_listed {item : Parser Node} [Reader true item] : Reader true (listed item) := by
  refine ⟨fun base => .read fun first => .bind (reader_many ⟨fun base => ?_⟩) fun rest => .pure (.refl _)⟩
  exact .skip fun _ => .ite (.some .only) .none

instance reader_superclass : Reader true (superclass self) := by
  refine ⟨fun base => .here fun lo hlo => .read fun e => .read fun args => .ite ?_ (.node hlo rfl (.refl _))⟩
  exact .pure (List.sublist_append_left _ _)

instance reader_implemented : Reader true (heritageClauses.implemented self) :=
  ⟨fun _ => .skip fun _ => .ite .only (.pure (.refl _))⟩

instance reader_heritageClauses : Reader false (heritageClauses self) := by
  have hrest (base : Nat) (supers : List Node) : Reads false base supers (do
      let interfaces ← heritageClauses.implemented self
      let _ ← heritageClauses.implemented self
      if ← takeWord "extends" then
        let late ← superclass self
        return (if supers.isEmpty then [late] else supers, interfaces)
      else return (supers, interfaces)) := by
    refine .read fun interfaces => .skip fun _ => .skip fun _ => .ite (.read fun late => .pureLoose ?_) ?_
    · split <;> grind
    · exact .pure (.refl _)
  refine ⟨fun base => .skip fun _ => .ite (.read fun first => .skip fun _ => ?_) (hrest base [])⟩
  have hlate : Reads false base ([] ++ parts first) (do
      if ← takeWord "extends" then
        let _ ← superclass self
      let supers ← pure [first]
      let interfaces ← heritageClauses.implemented self
      let _ ← heritageClauses.implemented self
      if ← takeWord "extends" then
        let late ← superclass self
        return (if supers.isEmpty then [late] else supers, interfaces)
      else return (supers, interfaces)) :=
    .skip fun _ => .ite (.skip fun _ => hrest base [first]) (hrest base [first])
  exact .ite (.skip fun _ => hlate) hlate

theorem reads_classTail (hlo : g.Stops lo) : Reads true base marks (classTail self lo marks) := by
  refine .ofLoose (.read fun typeParams => .read fun (supers, interfaces) => .skip fun _ => ?_)
  refine .bind (.bracketed (reader_many ⟨fun base => ?_⟩)) fun members => .skip fun _ => ?_
  · exact .skip fun _ => .skip fun _ => .ite .none (.some .only)
  · exact .loose hlo rfl nofun (by grind)

theorem reads_namedClass (hlo : g.Stops lo) : Reads true base marks (namedClass self lo marks) := by
  refine .skip fun _ => .skip fun _ => .skip fun _ => .named fun name hname => ?_
  exact .last (reads_classTail hlo) fun c => .front hname (.pure (.refl _))

end Localization.Source.Parser
