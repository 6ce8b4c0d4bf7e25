import Localization.Proofs.Source.Grammar.Run
import Localization.Proofs.Text.Boundary

/-!
Where statements and the items of a module end: with the last token that their reader passes. The items are
read one after another, so an item ends where the next one begins or in front of it. Main statements:
`ends_construct`, `pairwise_of_readsItems`, `isBoundary_of_clear`.
-/

namespace Localization.Source.Parser

/-- Results of a reader that may end at a byte. -/
class HasEnd (α : Type) where
  EndsAt : α → Nat → Prop

export HasEnd (EndsAt)

/-- A node without parts may stand for a statement that goes on. -/
instance : HasEnd Node := ⟨fun n stop => n.children ≠ [] → n.span.hi = stop⟩
instance : HasEnd (Option Node) := ⟨fun found stop => ∀ n ∈ found, EndsAt n stop⟩

/-- What a reader gives ends with the last token that it passes. -/
structure Ends {α : Type} [HasEnd α] (p : Parser α) : Prop where
  of_run : ∀ {c a c'}, p c = .ok (a, c') → EndsAt a c'.previousEnd

section

variable {α β : Type} [HasEnd α] [HasEnd β] {p q : Parser α} {x : Parser β} {f : β → Parser α}

theorem ends_fail : Ends (fail : Parser α) :=
  ⟨fun hrun => nomatch hrun⟩

omit [HasEnd β] in
theorem ends_fail_bind : Ends (fail >>= f) :=
  ⟨fun hrun => nomatch hrun⟩

omit [HasEnd β] in
theorem Ends.bind (h : ∀ b, Ends (f b)) : Ends (x >>= f) := by
  constructor
  intro c a c' hrun
  obtain ⟨b, c₁, -, hrun⟩ := bind_eq_ok.mp hrun
  exact (h b).of_run hrun

theorem Ends.ite {P : Prop} [Decidable P] (hp : Ends p) (hq : Ends q) : Ends (if P then p else q) := by
  split
  · exact hp
  · exact hq

theorem ends_node (kind : Kind) (lo : Nat) (children : List Node) : Ends (node kind lo children) := by
  constructor
  intro c n c' hrun _
  cases hrun
  rfl

theorem ends_none : Ends (pure none : Parser (Option Node)) := by
  constructor
  intro c found c' hrun
  cases hrun
  exact nofun

theorem Ends.some {p : Parser Node} (h : Ends p) : Ends (do return some (← p)) := by
  constructor
  intro c found c' hrun
  obtain ⟨n, c₁, hn, hrun⟩ := bind_eq_ok.mp hrun
  cases hrun
  rintro m ⟨⟩
  exact h.of_run hn

/-- Where `x` reads a node, it is passed on. -/
theorem Ends.orElse {x : Parser (Option Node)} {f : Option Node → Parser α} (hx : Ends x)
    (hsome : ∀ n c a c', EndsAt n c.previousEnd → f (Option.some n) c = .ok (a, c') → EndsAt a c'.previousEnd)
    (hnone : Ends (f none)) : Ends (x >>= f) := by
  constructor
  intro c a c' hrun
  obtain ⟨found, c₁, hfound, hrun⟩ := bind_eq_ok.mp hrun
  cases found with
  | none => exact hnone.of_run hrun
  | some n => exact hsome n c₁ a c' (hx.of_run hfound n rfl) hrun

theorem endsAt_of_pure {n m : Node} {c c' : Cursor} (h : EndsAt n c.previousEnd)
    (hrun : (pure n : Parser Node) c = .ok (m, c')) : EndsAt m c'.previousEnd := by
  cases hrun
  exact h

theorem endsAt_of_some {n : Node} {found : Option Node} {c c' : Cursor} (h : EndsAt n c.previousEnd)
    (hrun : (pure (some n) : Parser (Option Node)) c = .ok (found, c')) : EndsAt found c'.previousEnd := by
  cases hrun
  rintro m ⟨⟩
  exact h

theorem Ends.attempt {p : Parser Node} (h : Ends p) : Ends (attempt p) := by
  constructor
  intro c found c' hrun
  rw [Parser.attempt] at hrun
  split at hrun
  · next hp =>
      cases hrun
      rintro m ⟨⟩
      exact h.of_run hp
  · cases hrun
    intro n hn
    cases hn

theorem Ends.withFlags (h : Ends p) (change : Flags → Flags) : Ends (withFlags change p) := by
  constructor
  intro c a c' hrun
  obtain ⟨after, hp, rfl⟩ := exists_of_withFlags hrun
  have hend := h.of_run hp
  exact hend

end

/-! ## Declarations -/

section

variable {self : Goal → Parser Node} (lo : Nat) (marks : List Node)

theorem ends_blockStatement : Ends (blockStatement self) :=
  .bind fun _ => .bind fun _ => .bind fun _ => ends_node ..

theorem ends_variableDeclaration (keyword : String) : Ends (variableDeclaration self lo keyword) :=
  .bind fun _ => .bind fun _ => .bind fun _ => ends_node ..

theorem ends_interfaceRest : Ends (interfaceRest self lo) :=
  .bind fun _ => .bind fun _ => .bind fun _ => .ite
    (.bind fun _ => .bind fun _ => ends_node ..) (.bind fun _ => .bind fun _ => ends_node ..)

theorem ends_typeAliasRest : Ends (typeAliasRest self lo) :=
  .bind fun _ => .bind fun _ => .bind fun _ => .bind fun _ => .bind fun _ => ends_node ..

theorem ends_enumRest : Ends (enumRest self lo) :=
  .bind fun _ => .bind fun _ => .bind fun _ => ends_node ..

theorem ends_namespaceRest : Ends (namespaceRest self lo) :=
  .bind fun _ => .bind fun _ => .bind fun _ => ends_node ..

theorem ends_externalModuleRest : Ends (externalModuleRest self lo) :=
  .bind fun _ => .bind fun _ => .ite (.bind fun _ => ends_node ..) (.bind fun _ => ends_node ..)

theorem ends_classDeclaration : Ends (classDeclaration self lo marks) :=
  .bind fun _ => .ite (.bind fun _ => ends_node ..) (ends_node ..)

theorem ends_functionDeclaration (isAsync : Bool) : Ends (functionDeclaration self lo isAsync) :=
  .bind fun _ => .ite (.bind fun _ => ends_node ..) (ends_node ..)

theorem ends_typeDeclaration? : Ends (typeDeclaration? self lo marks) := by
  refine .bind fun _ => .bind fun _ => .ite (.bind fun _ => .some (ends_interfaceRest lo)) ?_
  refine .bind fun _ => .ite (.bind fun _ => .some (ends_typeAliasRest lo)) ?_
  refine .bind fun _ => .ite (.bind fun _ => .some (ends_namespaceRest lo)) ?_
  refine .bind fun _ => .ite (.bind fun _ => .some (ends_externalModuleRest lo)) ?_
  refine .bind fun _ => .ite (.bind fun _ => .some (ends_namespaceRest lo)) ?_
  refine .bind fun _ => .ite (.bind fun _ => .bind fun _ => .some (ends_node ..)) ?_
  refine .bind fun _ => .ite (.bind fun _ => .some (ends_enumRest lo)) ?_
  refine .bind fun _ => .ite (.bind fun _ => .bind fun _ => .some (ends_enumRest lo)) ?_
  exact .bind fun _ => .ite (.bind fun _ => .some (ends_classDeclaration lo marks)) ends_none

theorem ends_declaration? : Ends (declaration? self lo marks) := by
  refine .orElse (ends_typeDeclaration? lo marks) (fun _ _ _ _ => endsAt_of_some) ?_
  refine .bind fun _ => .bind fun _ => .ite (.some (ends_functionDeclaration lo false)) ?_
  refine .bind fun _ => .ite (.bind fun _ => .some (ends_functionDeclaration lo true)) ?_
  refine .bind fun _ => .ite (.some (ends_classDeclaration lo marks)) ?_
  refine .bind fun _ => .ite (.some (ends_variableDeclaration lo _)) ?_
  refine .bind fun _ => .ite (.some (ends_variableDeclaration lo _)) ?_
  refine .bind fun _ => .ite (.some (ends_variableDeclaration lo _)) ?_
  exact .bind fun _ => .ite (.bind fun _ => .bind fun _ => .some (ends_node ..)) ends_none

theorem ends_anyDeclaration? : Ends (anyDeclaration? self lo marks) := by
  refine .bind fun _ => .bind fun _ => .ite ?_ (ends_declaration? lo marks)
  refine .orElse (.attempt ?_) (fun _ _ _ _ => endsAt_of_some) (ends_declaration? lo marks)
  exact .bind fun _ => .orElse ((ends_declaration? lo marks).withFlags _)
    (fun _ _ _ _ => endsAt_of_pure) ends_fail

/-! ## Statements -/

theorem ends_expressionStatement : Ends (expressionStatement self lo) := by
  refine .bind fun _ => .bind fun _ => .bind fun _ => .ite ?_ ?_
  · exact .bind fun _ => .bind fun _ => .bind fun _ => ends_node ..
  · refine .bind fun _ => .bind fun _ => .ite (.bind fun _ => ends_node ..) (.bind fun c => ?_)
    split
    · exact .bind fun _ => ends_node ..
    · exact ends_fail

theorem ends_jump (kind : Kind) : Ends (keywordStatement?.jump lo kind) :=
  .bind fun _ => .bind fun _ => .ite (.bind fun _ => ends_node ..)
    (.bind fun _ => .bind fun _ => ends_node ..)

theorem ends_switchStatement : Ends (switchStatement self lo) := by
  refine .bind fun _ => .bind fun _ => .bind fun _ => .bind fun _ => .bind fun _ => ?_
  exact .ite (.bind fun _ => ends_node ..) (ends_node ..)

theorem ends_tryStatement : Ends (tryStatement self lo) :=
  .bind fun _ => .bind fun _ => .bind fun _ => .bind fun _ => ends_node ..

/-- The keyword of a stray handler is a node without parts. -/
theorem ends_strayHandler : Ends (strayHandler self) := by
  constructor
  intro c n c' hrun
  obtain ⟨t, c₁, -, hrun⟩ := bind_eq_ok.mp hrun
  obtain ⟨handler, c₂, -, hrun⟩ := bind_eq_ok.mp hrun
  obtain ⟨finalizer, c₃, -, hrun⟩ := bind_eq_ok.mp hrun
  cases hrun
  exact fun hparts => absurd rfl hparts

theorem ends_keywordStatement? (hblock : Ends (self .block)) : Ends (keywordStatement? self lo) := by
  refine .bind fun t => ?_
  split
  · refine .bind fun _ => .bind fun _ => .bind fun _ => .bind fun _ => .ite ?_ ?_
    · exact .bind fun _ => .bind fun _ => .some (ends_node ..)
    · exact .bind fun _ => .some (ends_node ..)
  · exact .bind fun _ => .bind fun _ => .bind fun _ => .bind fun _ => .some (ends_node ..)
  · exact .bind fun _ => .bind fun _ => .bind fun _ => .some (ends_node ..)
  · exact .bind fun _ => .bind fun _ => .bind fun _ => .bind fun _ => .bind fun _ => .some (ends_node ..)
  · refine .bind fun _ => .bind fun _ => .ite ?_ ?_
    · exact .bind fun _ => .bind fun _ => .some (ends_node ..)
    · exact .bind fun _ => .bind fun _ => .bind fun _ => .some (ends_node ..)
  · exact .some (ends_jump lo _)
  · exact .some (ends_jump lo _)
  · refine .bind fun _ => .bind fun _ => .ite ?_ ?_
    · exact .bind fun _ => .bind fun _ => .bind fun _ => .some (ends_node ..)
    · exact .bind fun _ => .bind fun _ => .some (ends_node ..)
  · exact .some (ends_tryStatement lo)
  · exact .some ends_strayHandler
  · exact .some ends_strayHandler
  · exact .some (ends_switchStatement lo)
  · exact .bind fun _ => .bind fun _ => .bind fun _ => .some (ends_node ..)
  · exact .bind fun _ => .bind fun _ => .some (ends_node ..)
  · exact .some hblock
  · exact .bind fun _ => .some (ends_node ..)
  · exact ends_none

theorem ends_statement (hblock : Ends (self .block)) (isListed : Bool) :
    Ends (statement self isListed) := by
  refine .bind fun lo => .bind fun marks => .bind fun inner => ?_
  refine .orElse (ends_keywordStatement? inner hblock) (fun _ _ _ _ => endsAt_of_pure) ?_
  refine .bind fun _ => .bind fun _ => .bind fun _ => .bind fun _ => .bind fun _ => .bind fun _ => .ite ?_ ?_
  · exact .orElse (ends_anyDeclaration? _ marks) (fun _ _ _ _ => endsAt_of_pure)
      (ends_expressionStatement lo)
  · exact .orElse (ends_typeDeclaration? _ marks) (fun _ _ _ _ => endsAt_of_pure)
      (ends_expressionStatement lo)

/-! ## Items of a module -/

theorem ends_importEquals? : Ends (importEquals? lo) := by
  refine .bind fun found => ?_
  cases found with
  | none => exact ends_none
  | some name =>
      refine .bind fun _ => .bind fun _ => .ite ?_ ?_
      · refine .bind fun _ => .bind fun _ => .bind fun _ => .ite ?_ ?_
        · exact .bind fun _ => .bind fun _ => .bind fun _ => .some (ends_node ..)
        · exact .bind fun _ => .bind fun _ => .bind fun _ => .bind fun _ => .some (ends_node ..)
      · exact .bind fun _ => .bind fun _ => .some (ends_node ..)

theorem ends_importItem_finish (typeOnly : Bool) (names : List Node) :
    Ends (importItem.finish self lo typeOnly names) :=
  .bind fun _ => .bind fun _ => ends_node ..

theorem ends_importItem : Ends (importItem self lo) := by
  refine .orElse (ends_importEquals? lo) (fun _ _ _ _ => endsAt_of_pure) ?_
  refine .bind fun _ => .bind fun _ => .ite (ends_importItem_finish lo _ _) ?_
  refine .bind fun _ => .bind fun found => ?_
  cases found with
  | none => exact .bind fun _ => ends_importItem_finish lo _ _
  | some names => exact ends_importItem_finish lo _ _

theorem ends_exportNames : Ends (exportNames self lo) := by
  refine .bind fun _ => .ite ?_ ?_
  · refine .bind fun _ => .ite ?_ ?_
    · exact .bind fun _ => .bind fun _ => .bind fun _ => .bind fun _ => ends_node ..
    · exact .bind fun _ => .bind fun _ => .bind fun _ => ends_node ..
  · refine .bind fun _ => .bind fun _ => .bind fun _ => .ite ?_ ?_
    · exact .bind fun _ => .bind fun _ => ends_node ..
    · exact .bind fun _ => ends_node ..

theorem ends_exportDefault : Ends (exportDefault self lo marks) := by
  refine .bind fun more => .ite ?_ ends_fail_bind
  refine .bind fun _ => .bind fun _ => .bind fun _ => .bind fun _ => .ite ?_ ?_
  · exact .bind fun _ => .bind fun _ => .bind fun _ => ends_node ..
  refine .bind fun _ => .bind fun _ => .ite ?_ ?_
  · exact .bind fun _ => .bind fun _ => .bind fun _ => ends_node ..
  refine .bind fun _ => .ite ?_ ?_
  · exact .bind fun _ => .bind fun _ => ends_node ..
  · exact .bind fun _ => .bind fun _ => ends_node ..

theorem ends_exportItem : Ends (exportItem self lo marks) := by
  refine .bind fun _ => .bind fun _ => .bind fun _ => .ite (ends_exportDefault lo marks) ?_
  refine .bind fun _ => .ite (.bind fun _ => .bind fun _ => ends_node ..) ?_
  refine .bind fun _ => .ite ?_ ?_
  · exact .bind fun _ => .bind fun _ => .bind fun _ => .bind fun _ => ends_node ..
  refine .bind fun _ => .bind fun _ => .ite (ends_exportNames lo) ?_
  refine .bind fun _ => .ite (.bind fun _ => ends_exportNames lo) ?_
  refine .orElse (ends_importEquals? lo) (fun _ _ _ _ => endsAt_of_pure) ?_
  refine .bind fun more => .ite ?_ ends_fail_bind
  refine .bind fun declLo => .bind fun found => ?_
  cases found with
  | none => exact ends_fail
  | some d => exact ends_node ..

theorem ends_moduleItem (hstatement : Ends (self (.statement true))) : Ends (moduleItem self) := by
  refine .bind fun lo => .bind fun _ => .bind fun _ => .ite (ends_importItem lo) ?_
  refine .bind fun _ => .ite (ends_exportItem lo []) ?_
  refine .bind fun _ => .ite (.bind fun found => ?_) hstatement
  cases found with
  | none => exact hstatement
  | some marks => exact .bind fun lo => ends_exportItem lo marks

/-- A statement or an item of a module ends with the last token that is passed. -/
theorem ends_construct (depth : Nat) : Ends (construct depth .block) ∧
    (∀ isListed, Ends (construct depth (.statement isListed))) ∧ Ends (construct depth .moduleItem) := by
  induction depth with
  | zero => exact ⟨ends_fail, fun _ => ends_fail, ends_fail⟩
  | succ depth ih =>
      obtain ⟨hblock, hstatement, -⟩ := ih
      exact ⟨ends_blockStatement, ends_statement hblock, ends_moduleItem (hstatement true)⟩

end

end Localization.Source.Parser

/-! ## Items -/

namespace Localization.Source

open Text (IsBoundary)

namespace Parser

/-- Items that are read one after another, up to the end of the text. -/
def ReadsItems (depth : Nat) : Cursor → List Node → Prop
  | c, [] => c.token.kind = .endOfText
  | c, n :: rest => c.token.kind ≠ .endOfText ∧
      ∃ c₁, construct depth .moduleItem c = .ok (n, c₁) ∧ ReadsItems depth c₁ rest

variable {depth : Nat} {c c' : Cursor} {items : List Node} {n : Node} {g : Gap}

theorem readsItems_of_loop {fuel : Nat}
    (h : many.loop (do if (← token).kind == .endOfText then return none
                       return some (← construct depth .moduleItem)) fuel c = .ok (items, c')) :
    ReadsItems depth c items := by
  induction fuel generalizing c items with
  | zero => exact nomatch h
  | succ fuel ih =>
      obtain ⟨found, c₁, hfirst, hall⟩ := exists_of_loop h
      rw [run_bind_of_ok run_token] at hfirst
      split at hfirst
      · next hend =>
          cases hfirst
          obtain ⟨rfl, -⟩ := hall
          exact beq_iff_eq.mp hend
      · next hmore =>
          obtain ⟨n, c₂, hitem, hfirst⟩ := bind_eq_ok.mp hfirst
          cases hfirst
          obtain ⟨rest, hrest, rfl⟩ := hall
          exact ⟨fun hend => hmore (beq_iff_eq.mpr hend), c₁, hitem, ih hrest⟩

theorem readsItems_of_moduleBody {module : Node} (h : moduleBody depth c = .ok (module, c')) :
    ReadsItems depth c module.children := by
  obtain ⟨items, c₁, hmany, h⟩ := bind_eq_ok.mp h
  cases h
  exact readsItems_of_loop hmany

theorem readsItems_of_parseFile {path : String} {source : List Char} {module : Node}
    (h : parseFile path source = .ok module) : ReadsItems (16 * (Text.byteLength source + 4))
      (firstCursor (allowsElements path) source) module.children := by
  obtain ⟨c', hrun⟩ := parseModule_eq_ok_iff.mp h
  exact readsItems_of_moduleBody hrun

theorem behind_of_item (hc : c.Behind g) (h : construct depth .moduleItem c = .ok (n, c')) :
    c'.Behind g ∧ n.Clear g := by
  obtain ⟨hbehind, hplaced, -⟩ := keeps_iff.mp (construct_spec depth .moduleItem) c n c' hc h
  exact ⟨hbehind, hplaced.2⟩

theorem clear_of_readsItems (hc : c.Behind g) (h : ReadsItems depth c items) :
    ∀ n ∈ items, n.Clear g := by
  induction items generalizing c with
  | nil => simp
  | cons n rest ih =>
      obtain ⟨-, c₁, hitem, hrest⟩ := h
      obtain ⟨hbehind, hclear⟩ := behind_of_item hc hitem
      exact List.forall_mem_cons.mpr ⟨hclear, ih hbehind hrest⟩

/-- Items begin at the current token or behind it. -/
theorem le_lo_of_readsItems (hc : c.Behind g) (h : ReadsItems depth c items) :
    ∀ n ∈ items, c.token.span.lo ≤ n.span.lo := by
  intro n hn
  exact (clear_of_readsItems hc.behind_tail h n hn).misses_lo.resolve_left id

/-- An item with parts ends in front of the items behind it. -/
theorem pairwise_of_readsItems (hc : c.Behind g) (h : ReadsItems depth c items) :
    items.Pairwise fun n m => n.children ≠ [] → n.span.hi ≤ m.span.lo ∧ n.span.hi ≤ m.span.hi := by
  induction items generalizing c with
  | nil => exact .nil
  | cons n rest ih =>
      obtain ⟨-, c₁, hitem, hrest⟩ := h
      obtain ⟨hbehind, -⟩ := behind_of_item hc hitem
      refine .cons (fun m hm hparts => ?_) (ih hbehind hrest)
      have hend : n.span.hi = c₁.previousEnd := (ends_construct depth).2.2.of_run hitem hparts
      have hclear := clear_of_readsItems hbehind.behind_tail hrest m hm
      rw [hend]
      exact ⟨Nat.le_trans hbehind.ordered (le_lo_of_readsItems hbehind hrest m hm),
        hclear.endsOff.resolve_left id⟩

end Parser

/-! ### Sources -/

theorem isBoundary_of_reaches {source : List Char} {p : Place} (h : Place.Reaches ⟨source, 0⟩ p) :
    IsBoundary source p.offset := by
  obtain ⟨text, hrest, hoffset⟩ := h
  exact Text.isBoundary_iff.mpr ⟨text, p.rest, hrest, by rw [hoffset, Nat.zero_add]⟩

/-- Every node of a module ends between two characters. -/
theorem isBoundary_of_clear {source : List Char} {n : Node} (h : n.Clear (Parser.sourceGap source)) :
    IsBoundary source n.span.hi := by
  rcases h.endsOff with hzero | ⟨p, hp, hend⟩
  · rw [show n.span.hi = 0 from hzero]
    exact Text.isBoundary_iff.mpr ⟨[], source, rfl, rfl⟩
  · rw [← hend]
    exact isBoundary_of_reaches hp.reaches

end Localization.Source
