import Localization.Proofs.Source.Grammar.Expression
import Localization.Proofs.Source.Grammar.Jsx
import Localization.Proofs.Source.Order.Function

/-!
Elements, and operands with the accesses and calls behind them, are in the order of the text; an opening tag
has its type arguments behind its attributes. A call begins where its callee does, so that it begins in front of
the calls in its callee and in its arguments.
-/

namespace Localization.Source.Parser

variable {self : Goal → Parser Node} [g : Gap] [ReadsParts self] [∀ goal, Reader true (self goal)]
  {base lo : Nat} {acc items : List Node} {kind : Kind} {e : Node}

/-! ## Elements -/

instance passes_tagWord : Passes tagWord := passes_of_keeps fun _ => tagWord_spec
instance passes_tagName : Passes tagName := passes_of_keeps fun _ => tagName_spec

theorem reads_nodeThrough (hlo : g.Stops lo) (hkind : kind.keepsOrder = true) (hitems : items.Sublist acc) :
    Reads true base acc (nodeThrough kind lo items) :=
  .skip fun _ => .pureNode hlo hkind hitems

theorem reads_opening (hlo : g.Stops lo) (hitems : items ⊆ acc) :
    Reads true base acc (nodeThrough .jsxOpening lo items) :=
  .skip fun _ => .pureLooseNode hlo rfl nofun hitems

theorem reader_closing (hlo : g.Stops lo) : Reader true (nodeThrough .jsxClosing lo []) :=
  ⟨fun _ => reads_nodeThrough hlo rfl (.refl _)⟩

/-! ### Tags -/

theorem readsAt_attributeString {quote : Char} {rest : List Char} {c : Cursor} (hc : c.Behind g)
    (hstart : c.start = quote :: rest) (hquote : quote = '\x22' ∨ quote = '\x27') :
    ReadsAt true base [] c (attributeString c quote) := by
  unfold attributeString
  split
  · exact .of_reads .fail hc
  · next text after hscan =>
    refine .moveTo hc (fun g hc => hc.admits_attributeString hstart hquote hscan) ?_
    exact .leaf (.jsxString _) ⟨c.token.span.lo, after.offset⟩ hc.stops_lo rfl (.pure (.refl _))

instance reader_attributeValue : Reader true (attributeValue self) := by
  refine ⟨fun base => .atCursor fun c hc => ?_⟩
  split
  · next hstart => exact readsAt_attributeString hc hstart (.inl rfl)
  · next hstart => exact readsAt_attributeString hc hstart (.inr rfl)
  · refine .of_reads (.skip fun _ => .ite ?_ ?_) hc
    · exact .read fun e => .skip fun _ => .node hc.stops_lo rfl (.refl _)
    · exact .skip fun _ => .read fun e => .skip fun _ => .pure (.refl _)

instance reader_tagAttribute : Reader true (tagAttribute self) := by
  refine ⟨fun base => .here fun lo hlo => .skip fun _ => .ite ?_ (.skip fun _ => .skip fun _ => ?_)⟩
  · exact .skip fun _ => .read fun e => .skip fun _ => .node hlo rfl (.refl _)
  · have hrest : Reads true base [] (do
        let name ← node .jsxName lo []
        if ← takeMark .equal then
          let value ← attributeValue self
          node .jsxAttribute lo [name, value]
        else node .jsxAttribute lo [name]) := by
      refine .bind (reader_emptyNode hlo rfl) fun name => .skip fun _ => .ite (.read fun value => ?_) ?_
      · exact .node hlo rfl (.refl _)
      · exact .node hlo rfl (.refl _)
    exact .ite (.skip fun _ => hrest) hrest

instance reader_tagAttributes : Reader true (tagAttributes self) :=
  reader_many ⟨fun _ => .skip fun _ => .skip fun _ => .ite .none (.some .only)⟩

/-! ### Elements -/

instance reader_childText : Reader true childText := by
  refine ⟨fun base => .atCursor fun c hc => ?_⟩
  split
  · exact .of_reads .fail hc
  · next text place hscan =>
    have hle := (behind_childText (g := Cursor.tailGap _ _ hc.ordered) hc.behind_tail hscan).lo
    refine .set (behind_childText hc hscan) hle (.ite (.pure (.refl _)) ?_)
    exact .leaf (.jsxText _) ⟨c.after.offset, place.offset⟩ (g.stops hc.after) rfl (.pure (.refl _))

instance reader_childContainer : Reader true (childContainer self) := by
  refine ⟨fun base => .here fun lo hlo => .skip fun _ => .skip fun _ => .ite ?_ (.skip fun _ => .ite ?_ ?_)⟩
  · refine .cursor fun c hc => .bind (reader_emptyNode hc.previousEnd rfl) fun e => ?_
    exact reads_nodeThrough hlo rfl (.refl _)
  · exact .read fun e => .skip fun _ => reads_nodeThrough hlo rfl (.refl _)
  · exact .read fun e => .skip fun _ => reads_nodeThrough hlo rfl (.refl _)

instance reader_children : Reader true (children self) := by
  refine ⟨fun base => .read fun first => .bind ?_ fun more => .pure (.refl _)⟩
  refine reader_many_of_parts ⟨fun base => ?_⟩ fun items => List.flatMap_id.symm
  refine .skip fun _ => .ite ?_ (.skip fun _ => .ite .none ?_)
  · exact .read fun e => .read fun text => .pure (.refl _)
  · exact .read fun e => .read fun text => .pure (.refl _)

instance reader_jsxElement : Reader true (jsxElement self) := by
  refine ⟨fun base => .here fun lo hlo => .skip fun _ => .skip fun _ => .ite ?_ ?_⟩
  · refine .last (reads_opening hlo (List.Subset.refl _)) fun opening => .read fun inner => ?_
    refine .here fun closingLo hclosing => .skip fun _ => .skip fun _ => .skip fun _ => ?_
    exact .bind (reader_closing hclosing) fun closing => reads_nodeThrough hlo rfl (.refl _)
  · refine .here fun nameLo hname => .skip fun name => .bind (reader_emptyNode hname rfl) fun nameNode => ?_
    refine .skip fun _ => .optional fun types => .read fun values => .skip fun _ => .ite (.skip fun _ => ?_) ?_
    · refine .last (reads_opening hlo (by grind)) fun opening => ?_
      exact reads_nodeThrough hlo rfl (.refl _)
    · refine .last (reads_opening hlo (by grind)) fun opening => .read fun inner => ?_
      refine .here fun closingLo hclosing => .skip fun _ => .skip fun _ => .skip fun _ => .require (.skip fun _ => ?_)
      exact .bind (reader_closing hclosing) fun closing => reads_nodeThrough hlo rfl (.refl _)

/-! ## Operands -/

/-! ### Parts of operands -/

instance reader_argument : Reader true (argument self) :=
  ⟨fun _ => .here fun _ hlo => .skip fun _ => .read fun _ => .node hlo rfl (.refl _)⟩

instance reader_callArguments : Reader true (callArguments self) :=
  ⟨fun _ => .skip fun _ => .only⟩

instance reader_templateNode (tagged : Bool) : Reader true (templateNode self tagged) :=
  ⟨fun _ => .here fun _ hlo => .skip fun _ => .read fun _ => .node hlo rfl (.refl _)⟩

instance reader_objectProperty : Reader true (objectProperty self) := by
  refine ⟨fun base => .here fun lo hlo => .skip fun _ => .ite ?_ (.skip fun next => .skip fun _ => .when ?_)⟩
  · exact .read fun e => .node hlo rfl (.refl _)
  refine .skip fun isGenerator => .skip fun next => .skip fun _ => .skip fun _ => .ite ?_ ?_
  · refine .skip fun _ => .read fun key => .withFlags (.read fun ps => .read fun types => .read fun body => ?_) _
    refine .ite (.node hlo rfl ?_) (.node hlo rfl ?_)
    · exact ((List.sublist_append_left [key] ps).append_right types).append_right body
    · exact (List.sublist_append_left (key :: ps) types).append_right body
  · refine .here fun functionLo hstops => .token fun t _ => .read fun key => .skip fun _ => .skip fun _ => .ite ?_ ?_
    · exact .bind ⟨fun _ => reads_functionRest hstops _ _⟩ fun f => .node hlo rfl (.refl _)
    · refine .ite .fail (.skip fun _ => .ite (.read fun value => .node hlo rfl (.refl _)) (.ite .fail ?_))
      refine .skip fun _ => .ite (.read fun value => .node hlo rfl (.refl _)) ?_
      exact .node hlo rfl (List.nil_sublist _)

instance reader_arrayElement : Reader true (arrayElement self) :=
  ⟨fun _ => .skip fun _ => .ite .only .only⟩

instance reader_importExpression : Reader true (importExpression self) := by
  refine ⟨fun base => .start fun lo hlo => .skip fun _ => .bind (reader_emptyNode hlo rfl) fun keyword => ?_⟩
  have hcall : Reads true lo ([] ++ parts keyword) (importExpression.call self lo keyword) :=
    .read fun args => .refuse (.loose hlo rfl (fun _ => rfl) (List.Subset.refl _))
  refine .skip fun _ => .ite (.skip fun _ => .ite ?_ (.skip fun _ => .skip fun _ => .require hcall)) hcall
  exact .node hlo rfl (List.nil_sublist _)

instance reader_superExpression_memberName : Reader true superExpression.memberName := by
  refine ⟨fun base => .skip fun t => ?_⟩
  split
  · exact (reader_leaf rfl).reads base
  · exact .fail

instance reader_superExpression : Reader true (superExpression self) := by
  refine ⟨fun base => .start fun lo hlo => .skip fun _ => .bind (reader_emptyNode hlo rfl) fun keyword => ?_⟩
  refine .here fun keyLo hkey => .skip fun _ => .ite ?_ (.skip fun _ => .ite ?_ ?_)
  · exact .read fun property => .node hlo rfl (.refl _)
  · refine .read fun property => .skip fun _ => .tail (fun _ => .node hkey rfl (.refl _)) fun key => ?_
    exact .node hlo rfl (.refl _)
  · exact .read fun args => .loose hlo rfl (fun _ => rfl) (List.Subset.refl _)

instance reader_memberName : Reader true memberName := by
  refine ⟨fun base => .skip fun t => ?_⟩
  split
  · exact (reader_leaf rfl).reads base
  · exact (reader_leaf rfl).reads base
  · exact .fail

instance reader_newExpression : Reader true (newExpression self) := by
  refine ⟨fun base => .here fun lo hlo => .skip fun _ => .skip fun _ => .ite ?_ ?_⟩
  · exact .skip fun _ => .node hlo rfl (.refl _)
  have hrest (callee : Node) (types : List Node) : Reads true base ([callee] ++ types) (do
      let args ← if ← isMark .leftParen then callArguments self else pure []
      node .newCall lo (callee :: args ++ types)) := by
    refine .skip fun _ => .ite (.read fun args => .loose hlo rfl nofun (by grind)) ?_
    exact .loose hlo rfl nofun (List.Subset.refl _)
  refine .read fun callee => .skip fun _ => .refuse (.skip fun _ => .ite (.bind (.attempt ?_) fun found => ?_) ?_)
  · exact ⟨fun _ => .read fun t => .skip fun _ => .pure (.refl _)⟩
  · cases found with
    | none => exact hrest callee []
    | some types => exact hrest callee [types]
  · exact hrest callee []

theorem readsAt_regularExpression {c : Cursor} (hc : c.Behind g) (hkind : c.token.kind = .mark .slash) :
    ReadsAt true base [] c regularExpression := by
  refine .look rfl ?_
  split
  · exact .of_reads .fail hc
  · next after hscan =>
    have hadmits (g : Gap) (hc : c.Behind g) : g.Admits after := hc.admits_regularExpression hkind hscan
    exact .moveTo hc hadmits (.node hc.stops_lo rfl (.refl _))

theorem reads_identifierNode (hlo : g.Stops lo) : Reads true base [] (primary.identifierNode lo) :=
  .skip fun _ => .node hlo rfl (.refl _)

instance reader_primary : Reader true (primary self) := by
  refine ⟨fun base => .atCursor fun c hc => ?_⟩
  have hlo := hc.stops_lo
  dsimp only
  split
  · exact .of_reads ((reader_leaf rfl).reads base) hc
  · exact .of_reads ((reader_leaf rfl).reads base) hc
  · exact .of_reads ((reader_leaf rfl).reads base) hc
  · exact .of_reads (.bind (reader_leaf rfl) fun n => .skip fun _ => .ite (.pure (.refl _)) .fail) hc
  · exact .of_reads .only hc
  · next hkind => exact readsAt_regularExpression hc hkind
  · exact .of_reads (.skip fun _ => .read fun e => .skip fun _ => .node hlo rfl (.refl _)) hc
  · exact .of_reads (.skip fun _ => .read fun items => .node hlo rfl (.refl _)) hc
  · exact .of_reads (.skip fun _ => .read fun items => .node hlo rfl (.refl _)) hc
  · exact .of_reads (.skip fun _ => .require (.read fun e => .skip fun _ => .pure (.refl _))) hc
  · exact .of_reads (.read fun marks => .last (reads_namedClass hlo) fun (name, c) => .node hlo rfl (.refl _)) hc
  · refine .of_reads (.ite (reads_identifierNode hlo) (.ite ((reader_leaf rfl).reads base) ?_)) hc
    refine .ite ((reader_leaf rfl).reads base) (.ite ?_ (.ite ?_ (.ite .only (.ite .only (.ite .only ?_)))))
    · exact .bind (reader_namedFunction hlo false) fun (name, f) => .node hlo rfl (.refl _)
    · exact .last (reads_namedClass hlo) fun (name, c) => .node hlo rfl (.refl _)
    · refine .ite (.skip fun next => .ite (.skip fun _ => ?_) (reads_identifierNode hlo)) (reads_identifierNode hlo)
      exact .bind (reader_namedFunction hlo true) fun (name, f) => .node hlo rfl (.refl _)
  · exact .of_reads .fail hc

/-! ### Accesses and calls -/

instance reader_appliedTypeArguments (calls : Bool) : Reader true (appliedTypeArguments self calls) :=
  ⟨fun _ => .read fun _ => .cursor fun _ _ => .ite (.pure (.refl _)) .fail⟩

omit [ReadsParts self] in
theorem reads_optionalAccess (hlo : g.Stops lo) : Reads true base [e] (optionalAccess self lo e) := by
  refine .here fun keyLo hkey => .skip fun _ => .ite ?_ (.skip fun _ => .ite ?_ (.skip fun _ => .ite ?_ ?_))
  · exact .read fun args => .loose hlo rfl nofun (List.Subset.refl _)
  · exact .read fun types => .read fun args => .loose hlo rfl nofun (by grind)
  · refine .read fun property => .skip fun _ => .tail (fun _ => .node hkey rfl (.refl _)) fun key => ?_
    exact .node hlo rfl (.refl _)
  · exact .read fun property => .node hlo rfl (.refl _)

omit [ReadsParts self] in
theorem reads_access? (calls : Bool) (hlo : g.Stops lo) (he : e.span.lo = lo) :
    Reads true lo [e] (access? self calls e) := by
  subst he
  have haccess : (if isChain e then Kind.optionalChain else Kind.member).keepsOrder = true := by
    split <;> rfl
  have hcall : (if isChain e then Kind.chainCall else Kind.call).isLoose = true := by
    split <;> rfl
  refine .skip fun t => ?_
  split
  · exact .skip fun _ => .read fun property => .some (.node hlo haccess (.refl _))
  · exact .ite (.skip fun _ => .some (reads_optionalAccess hlo)) .none
  · refine .here fun keyLo hkey => .skip fun _ => .read fun property => .skip fun _ => ?_
    refine .tail (fun _ => .node hkey rfl (.refl _)) fun key => .some (.node hlo haccess (.refl _))
  · exact .skip fun _ => .ite .none (.skip fun _ => .some (.node hlo rfl (.refl _)))
  · exact .ite (.read fun args => .some (.loose hlo hcall (fun _ => rfl) (List.Subset.refl _))) .none
  · exact .read fun t => .some (.node hlo rfl (.refl _))
  · refine .read fun found => ?_
    cases found with
    | none => exact .none
    | some types =>
        refine .skip fun _ => .ite (.read fun args => ?_) (.skip fun _ => .ite (.read fun t => ?_) ?_)
        · exact .some (.loose hlo hcall (fun _ => rfl) (by grind))
        · exact .some (.node hlo rfl (.refl _))
        · exact .some (.node hlo rfl (.refl _))
  · exact .none

end Localization.Source.Parser
