import Localization.Proofs.Component.Complete
import Localization.Proofs.Component.ImportPlace
import Localization.Proofs.Component.Written
import Localization.Proofs.Edit.Seam
import Localization.Proofs.Source.Order.Module

/-!
The line ends of a wrapped source. A wrapping writes the line ending in use in front of a text or behind it,
at places that are not within a line end. Main statement: `wrapSource_keeps_line_ends`.
-/

namespace Localization

open Source (Node Place)
open Source.Parser (sourceGap)
open Text (byteLength EachFeed EachFeedBehind OneLine eachFeedBehind_append)

variable {o : WrapOptions} {path : String} {source front back : List Char} {module : Node} {e : Edit}

/-! ### What is written -/

/-- A text within a line, with a line ending behind it, or with one in front of it where `begun` allows for
that. -/
inductive IsLine (ending : List Char) (begun : Prop) : List Char → Prop where
  | within {line : List Char} (nonempty : line ≠ []) (oneLine : OneLine line) : IsLine ending begun line
  | ended {line : List Char} (nonempty : line ≠ []) (oneLine : OneLine line) :
      IsLine ending begun (line ++ ending)
  | begun {line : List Char} (nonempty : line ≠ []) (oneLine : OneLine line) (allowed : begun) :
      IsLine ending begun (ending ++ line)

/-- Where a line may be begun: behind the brace of a block, and behind the last directive if an import is
added. -/
def BeginsLine (o : WrapOptions) (source : List Char) (module : Node) (x : Nat) : Prop :=
  (∃ b ∈ module.walk, b.kind = .block ∧ x = b.span.lo + 1) ∨
    (withImport o source module (wrapModule o source module)).1 = some .added ∧
      ∃ d ∈ module.directiveItems.getLast?, x = d.span.hi

theorem oneLine_hookStatement (space : Option String) : OneLine (hookStatement space).toList := by
  cases space <;> simp [hookStatement, lookupName, hookName]

theorem oneLine_lookupCall (key : String) (site : LiteralSite) :
    OneLine (site.wrap (lookupCall key)).toList := by
  cases site <;> simp [LiteralSite.wrap, lookupCall, lookupName]

theorem wrap_ne_nil (key : String) (site : LiteralSite) : (site.wrap (lookupCall key)).toList ≠ [] := by
  cases site <;> simp [LiteralSite.wrap, lookupCall]

theorem oneLine_importDeclaration (space : String) : OneLine (importDeclaration space).toList := by
  simp [importDeclaration, hookName]

theorem isLine_statementInBlock (source : List Char) (space : Option String) (block : Node) {begun : Prop}
    (h : begun) : IsLine (Text.lineEnding source).toList begun
      (Candidate.statementInBlock source (hookStatement space) block).toList := by
  have hstatement := oneLine_hookStatement space
  unfold Candidate.statementInBlock
  split
  · exact .within (by simp) (by simp [hstatement])
  · split
    · exact .within (by simp) (by simp [hstatement])
    · rw [String.append_assoc, String.toList_append]
      refine .begun ?_ ?_ h
      · simp [hookStatement]
      · simp [hstatement]

theorem WrittenEdit.isLine (h : WrittenEdit o source module e) :
    IsLine (Text.lineEnding source).toList (BeginsLine o source module e.start) e.text.toList := by
  cases h with
  | text inside isLiteral => exact .within (wrap_ne_nil _ _) (oneLine_lookupCall _ _)
  | hook inside isBlock =>
      apply isLine_statementInBlock
      exact .inl ⟨_, inside, isBlock, rfl⟩
  | opening inside =>
      have hstatement := oneLine_hookStatement o.space
      exact .within (by simp [Edit.insert]) (by simp [Edit.insert, hstatement])
  | closing inside => exact .within (by simp [Edit.insert]) (by simp [Edit.insert])
  | specifier inside => exact .within (by simp [Edit.insert]) (by simp [Edit.insert, hookName])
  | specifiers inside => exact .within (by simp [Edit.insert]) (by simp [Edit.insert, hookName])
  | importBehind inside added isLast =>
      rw [Edit.insert, String.toList_append]
      exact .begun (by simp [importDeclaration]) (oneLine_importDeclaration _) (.inr ⟨added, _, isLast, rfl⟩)
  | importFirst =>
      rw [Edit.insert, String.toList_append]
      exact .ended (by simp [importDeclaration]) (oneLine_importDeclaration _)

namespace IsLine

variable {ending text : List Char} {begun : Prop}

theorem ne_nil (h : IsLine ending begun text) : text ≠ [] := by
  cases h with
  | within nonempty oneLine => exact nonempty
  | ended nonempty oneLine => exact List.append_ne_nil_of_left_ne_nil nonempty _
  | begun nonempty oneLine allowed => exact List.append_ne_nil_of_right_ne_nil _ nonempty

theorem head?_ne_feed {line more : List Char} (hline : line ≠ []) (h : OneLine line) :
    (line ++ more).head? ≠ some '\n' := by
  cases line with
  | nil => contradiction
  | cons c rest =>
      intro hhead
      exact (h c List.mem_cons_self).1 (Option.some.inj hhead)

/-- A text that begins with a line feed begins a line. -/
theorem allowed_of_head? (h : IsLine ending begun text) (hhead : text.head? = some '\n') : begun := by
  cases h with
  | within nonempty oneLine =>
      rw [← List.append_nil text] at hhead
      exact absurd hhead (head?_ne_feed nonempty oneLine)
  | ended nonempty oneLine => exact absurd hhead (head?_ne_feed nonempty oneLine)
  | begun nonempty oneLine allowed => exact allowed

theorem head?_of_returned (h : IsLine ['\r', '\n'] begun text) : text.head? ≠ some '\n' := by
  cases h with
  | within nonempty oneLine =>
      rw [← List.append_nil text]
      exact head?_ne_feed nonempty oneLine
  | ended nonempty oneLine => exact head?_ne_feed nonempty oneLine
  | begun nonempty oneLine allowed => simp

theorem eachFeedBehind_of_returned (h : IsLine ['\r', '\n'] begun text) :
    EachFeedBehind (· = some '\r') none text := by
  cases h with
  | within nonempty oneLine => exact oneLine.eachFeedBehind
  | ended nonempty oneLine =>
      exact eachFeedBehind_append.mpr ⟨oneLine.eachFeedBehind, nofun, fun _ => rfl, trivial⟩
  | begun nonempty oneLine allowed =>
      exact eachFeedBehind_append.mpr ⟨⟨nofun, fun _ => rfl, trivial⟩, oneLine.eachFeedBehind⟩

theorem not_mem_of_bare (h : IsLine ['\n'] begun text) : '\r' ∉ text := by
  have hline {line : List Char} (oneLine : OneLine line) : '\r' ∉ line :=
    fun hreturn => (oneLine _ hreturn).2 rfl
  cases h with
  | within nonempty oneLine => exact hline oneLine
  | ended nonempty oneLine => simpa using hline oneLine
  | begun nonempty oneLine allowed => simpa using hline oneLine

end IsLine

/-! ### Where it is written -/

theorem eq_of_byteLength_eq {front' back' : List Char} (h : front ++ back = front' ++ back')
    (hlength : byteLength front = byteLength front') : front = front' ∧ back = back' := by
  have hcut := Text.splitAtByte_append front back
  rw [h, hlength, Text.splitAtByte_append, Option.some.injEq, Prod.mk.injEq] at hcut
  exact ⟨hcut.1.symm, hcut.2.symm⟩

/-- A place that a reader comes to is not within a line end. -/
theorem head?_of_stops {x : Nat} (h : (sourceGap source).Stops x) (hsource : source = front ++ back)
    (hfront : byteLength front = x) (hreturn : front.getLast? = some '\r') : back.head? ≠ some '\n' := by
  obtain ⟨p, ⟨text, ⟨hrest, hoffset⟩, hfeed⟩, rfl⟩ := h
  obtain ⟨rfl, rfl⟩ := eq_of_byteLength_eq (hsource.symm.trans hrest) (by simpa [hfront] using hoffset)
  exact hfeed hreturn

theorem stops_of_endsOff {x : Nat} (h : (sourceGap source).EndsOff x) : (sourceGap source).Stops x := by
  rcases h with hfront | hstops
  · exact ⟨⟨source, 0⟩, .refl _, hfront.symm⟩
  · exact hstops

/-- Behind the brace of a block. -/
theorem exists_opening {b : Node} (htidy : b.Tidy (g := sourceGap source)) (hblock : b.kind = .block) :
    ∃ front rest, source = front ++ '\x7b' :: rest ∧ b.span.lo + 1 = byteLength (front ++ ['\x7b']) := by
  obtain ⟨rest, front, ⟨hrest, hoffset⟩, -⟩ := htidy.opening (g := sourceGap source) hblock
  refine ⟨front, rest, hrest, ?_⟩
  rw [Text.byteLength_append, show b.span.lo = byteLength front by simpa using hoffset]
  rfl

theorem stops_of_split {x : Nat} (hsource : source = front ++ back) (hfront : byteLength front = x)
    (hfeed : front.getLast? = some '\r' → back.head? ≠ some '\n') : (sourceGap source).Stops x :=
  ⟨⟨back, x⟩, ⟨front, ⟨hsource, by simp [hfront]⟩, hfeed⟩, rfl⟩

/-- Text between tags is replaced up to a character that is no blank. -/
theorem stops_of_ofElementText? {span : Source.Span} {value : String} {l : Literal}
    (h : Literal.ofElementText? source span value = some l)
    (hwritten : (sourceGap source).Writes span value) :
    (sourceGap source).Stops l.stop := by
  obtain ⟨hinside, hwide⟩ := Literal.range_inside_of_ofElementText? h
  obtain ⟨p, q, text, hp, hpasses, rfl, -⟩ := hwritten
  have hlo : Text.IsBoundary source p.offset := Source.isBoundary_of_reaches hp.reaches
  have hhi : Text.IsBoundary source q.offset :=
    Source.isBoundary_of_reaches (hp.reaches.trans ⟨text, hpasses⟩)
  obtain ⟨before, after, hsource, hbefore, hstop⟩ := Text.exists_slice hlo hhi (by rw [hpasses.2]; omega)
  have hend : l.stop = q.offset - (byteLength (Text.sliceBytes source p.offset q.offset) -
      byteLength (Text.trimRight (Text.sliceBytes source p.offset q.offset))) := by
    simp only [Literal.ofElementText?] at h
    split at h
    · contradiction
    · exact Option.some.inj h ▸ rfl
  generalize Text.sliceBytes source p.offset q.offset = written at hsource hstop hend
  obtain ⟨blanks, -, hwritten⟩ := Text.exists_trimRight_append written
  have hlength : byteLength written = byteLength (Text.trimRight written) + byteLength blanks := by
    rw [← Text.byteLength_append, ← hwritten]
  have hle : p.offset ≤ l.start := hinside.1
  have hcut : source = (before ++ Text.trimRight written) ++ (blanks ++ after) := by
    rw [hsource, List.append_assoc, ← List.append_assoc (Text.trimRight written), ← hwritten]
  refine stops_of_split hcut ?_ ?_
  · rw [Text.byteLength_append]
    omega
  · intro hreturn
    have hkept : Text.trimRight written ≠ [] := by
      intro hnil
      rw [hnil, byteLength] at hlength hend
      omega
    rw [List.getLast?_append, List.getLast?_eq_some_getLast hkept, Option.some_or,
      ← List.getLast?_eq_some_getLast hkept] at hreturn
    exact absurd (Text.getLast?_trimRight _ hreturn) (by decide)

theorem stops_of_ofNode? {n : Node} {l : Literal} (h : Literal.ofNode? source n = some l)
    (hclear : n.Clear (sourceGap source)) : (sourceGap source).Stops l.stop := by
  unfold Literal.ofNode? at h
  split at h
  · exact Option.some.inj h ▸ stops_of_endsOff hclear.endsOff
  · exact Option.some.inj h ▸ stops_of_endsOff hclear.endsOff
  · split at h
    · exact Option.some.inj h ▸ stops_of_endsOff hclear.endsOff
    · contradiction
  · next value hkind => exact stops_of_ofElementText? h (hclear.written hkind)
  · contradiction

/-- Behind its first line a source is not within a line end. -/
theorem stops_behindFirstLine (source : List Char) :
    (sourceGap source).Stops (behindFirstLine (Source.textStart source)) := by
  have hstart := Source.Parser.enters_textStart source
  rcases behindFirstLine_cases (Source.textStart source) with
    ⟨-, hplace⟩ | ⟨-, line, -, ⟨hrest, hplace⟩ | ⟨rest, hrest, hplace⟩⟩
  · exact ⟨_, hstart, hplace.symm⟩
  · refine ⟨⟨[], behindFirstLine _⟩, hstart.trans ⟨line, ⟨?_, hplace⟩, nofun⟩, rfl⟩
    rw [hrest, List.append_nil]
  · refine ⟨⟨rest, behindFirstLine _⟩, hstart.trans ⟨line ++ ['\n'], ⟨?_, ?_⟩, ?_⟩, rfl⟩
    · rw [hrest, List.append_assoc]
      rfl
    · rw [hplace, Text.byteLength_append, Nat.add_assoc]
      rfl
    · intro hreturn
      simp at hreturn

theorem WrittenEdit.stops (h : WrittenEdit o source module e) (hclear : module.Clear (sourceGap source))
    (htidy : module.Tidy (g := sourceGap source)) : (sourceGap source).Stops e.stop := by
  have hend {n : Node} (hn : n ∈ module.walk) : (sourceGap source).Stops n.span.hi :=
    stops_of_endsOff (hclear.of_mem_walk hn).endsOff
  cases h with
  | text inside isLiteral => exact stops_of_ofNode? isLiteral (hclear.of_mem_walk inside)
  | hook inside isBlock =>
      obtain ⟨front, rest, hsource, hfront⟩ :=
        exists_opening (htidy.of_mem_walk (g := sourceGap source) inside) isBlock
      refine stops_of_split (by rw [hsource, List.append_cons]) hfront.symm ?_
      simp
  | opening inside => exact (htidy.of_mem_walk (g := sourceGap source) inside).lo (g := sourceGap source)
  | closing inside => exact hend inside
  | specifier inside => exact hend inside
  | specifiers inside => exact hend inside
  | importBehind inside added isLast => exact hend inside
  | importFirst => exact stops_behindFirstLine source

/-! ### Line ends -/

/-- A carriage return stands directly in front of a byte. -/
def Source.HasReturnBefore (source : List Char) (offset : Nat) : Prop :=
  ∃ front back, source = front ++ '\r' :: back ∧ byteLength front + 1 = offset

/-- Where each line feed follows a carriage return, an edit keeps it so. -/
theorem WrittenEdit.joins_returned (h : WrittenEdit o source module e)
    (hending : Text.lineEnding source = "\r\n")
    (hfeeds : EachFeed (· = some '\r') source) (hstops : (sourceGap source).Stops e.stop) :
    e.Joins (· = some '\r') source := by
  have hline := h.isLine
  rw [hending] at hline
  refine ⟨hline.ne_nil, ⟨none, hline.eachFeedBehind_of_returned⟩, ?_, ?_⟩
  · intro front back hsource hfront hhead
    exact absurd hhead hline.head?_of_returned
  · -- The place is not within a line end, so no line feed stands behind it.
    intro front back hsource hfront hhead
    obtain ⟨rest, rfl⟩ := List.head?_eq_some_iff.mp hhead
    exact absurd rfl (head?_of_stops hstops hsource hfront (hfeeds front rest hsource))

/-- Where no line feed follows a carriage return, an edit keeps it so, unless it begins a line behind one. -/
theorem WrittenEdit.joins_bare (h : WrittenEdit o source module e) (hending : Text.lineEnding source = "\n")
    (htidy : module.Tidy (g := sourceGap source))
    (hdirective : (withImport o source module (wrapModule o source module)).1 = some .added →
      ∀ d ∈ module.directiveItems.getLast?, ¬ Source.HasReturnBefore source d.span.hi) :
    e.Joins (· ≠ some '\r') source := by
  have hline := h.isLine
  rw [hending] at hline
  have hreturn := hline.not_mem_of_bare
  refine ⟨hline.ne_nil, ⟨none, Text.eachFeedBehind_of_noReturn hreturn nofun⟩, ?_, ?_⟩
  · intro front back hsource hfront hhead hlast
    rcases hline.allowed_of_head? hhead with ⟨b, hb, hblock, hplace⟩ | ⟨hadded, d, hd, hplace⟩
    · obtain ⟨before, rest, hbrace, hbefore⟩ :=
        exists_opening (htidy.of_mem_walk (g := sourceGap source) hb) hblock
      rw [List.append_cons] at hbrace
      obtain ⟨rfl, -⟩ := eq_of_byteLength_eq (hsource.symm.trans hbrace) (by omega)
      simp at hlast
    · obtain ⟨kept, rfl⟩ := List.getLast?_eq_some_iff.mp hlast
      refine hdirective hadded d hd ⟨kept, back, by simpa using hsource, ?_⟩
      rw [← hplace, ← hfront, Text.byteLength_append]
      rfl
  · intro front back hsource hfront hhead hlast
    exact hreturn (List.mem_of_getLast? hlast)

/-- Wrapping keeps the line ends of a source. Where each line feed follows a carriage return, so does each
line feed of the output. Where none does, none of the output does, unless an import is added behind a directive
that ends with a carriage return. -/
theorem wrapSource_keeps_line_ends {w : WrappedSource} (h : wrapSource? o path source = .ok (some w))
    (hmodule : Source.parseFile path source = .ok module) :
    ('\n' ∈ source → EachFeed (· = some '\r') source → EachFeed (· = some '\r') w.output) ∧
      (EachFeed (· ≠ some '\r') source →
        (w.importChange = some .added →
          ∀ d ∈ module.directiveItems.getLast?, ¬ Source.HasReturnBefore source d.span.hi) →
        EachFeed (· ≠ some '\r') w.output) := by
  obtain ⟨module', hparse, -, hchanges, hchange, houtput⟩ := wrapSource?_eq_some h
  rw [hmodule, Except.ok.injEq] at hparse
  subst hparse
  rw [hchanges] at hchange houtput
  have hclear := Source.Parser.clear_parseFile hmodule
  have htidy := Source.Parser.tidy_parseFile hmodule
  have hwritten := @writtenEdit_of_mem_withImport o source module
  constructor
  · intro hfeed hfeeds
    have hending := Text.lineEnding_of_returned (Text.eachFeed_iff.mp hfeeds) nofun hfeed
    refine Edit.eachFeed_of_applyAll houtput hfeeds ?_ ?_
    · intro e he
      exact (hwritten he).joins_returned hending hfeeds ((hwritten he).stops hclear htidy)
    · intro e he f hf hhead
      have hline := (hwritten hf).isLine
      rw [hending] at hline
      exact absurd hhead hline.head?_of_returned
  · intro hfeeds hdirective
    have hending := Text.lineEnding_of_bare (Text.eachFeed_iff.mp hfeeds)
    rw [hchange] at hdirective
    refine Edit.eachFeed_of_applyAll houtput hfeeds ?_ ?_
    · intro e he
      exact (hwritten he).joins_bare hending htidy hdirective
    · intro e he f hf hhead hlast
      have hline := (hwritten he).isLine
      rw [hending] at hline
      exact hline.not_mem_of_bare (List.mem_of_getLast? hlast)

/-- A component behind a directive, with the line ending that is given. -/
def clientComponent (ending : String) : List Char :=
  ("\"use client\";" ++ ending ++ "function A() \x7b" ++ ending ++ "  return <p>안녕</p>;" ++ ending ++
    "\x7d" ++ ending).toList

theorem wrapSource_keeps_line_ends_clientComponent :
    (∃ w, wrapSource? (koreanOptions none) "a.tsx" (clientComponent "\r\n") = .ok (some w) ∧
      EachFeed (· = some '\r') (clientComponent "\r\n") ∧ EachFeed (· = some '\r') w.output) ∧
    ∃ w, wrapSource? (koreanOptions none) "a.tsx" (clientComponent "\n") = .ok (some w) ∧
      EachFeed (· ≠ some '\r') (clientComponent "\n") ∧ EachFeed (· ≠ some '\r') w.output := by
  constructor
  · obtain ⟨w, hrun, -⟩ := exists_wrapped (koreanOptions none) "a.tsx" (clientComponent "\r\n")
      (p := fun _ => true) (by decide +kernel)
    obtain ⟨module, hmodule, -⟩ := exists_module "a.tsx" (clientComponent "\r\n") (p := fun _ => true)
      (by decide +kernel)
    have hfeeds : EachFeed (· = some '\r') (clientComponent "\r\n") := by decide +kernel
    exact ⟨w, hrun, hfeeds, (wrapSource_keeps_line_ends hrun hmodule).1 (by decide +kernel) hfeeds⟩
  · obtain ⟨w, hrun, -⟩ := exists_wrapped (koreanOptions none) "a.tsx" (clientComponent "\n")
      (p := fun _ => true) (by decide +kernel)
    obtain ⟨module, hmodule, -⟩ := exists_module "a.tsx" (clientComponent "\n") (p := fun _ => true)
      (by decide +kernel)
    have hreturn : '\r' ∉ clientComponent "\n" := by decide +kernel
    have hfeeds : EachFeed (· ≠ some '\r') (clientComponent "\n") := by decide +kernel
    refine ⟨w, hrun, hfeeds, (wrapSource_keeps_line_ends hrun hmodule).2 hfeeds ?_⟩
    rintro - d - ⟨front, back, hsource, -⟩
    rw [hsource] at hreturn
    exact hreturn (by simp)

/-- A component behind a string that goes on in the next line and does not end there. -/
def returnedDirective : List Char :=
  "'a\\\r\rfunction A() \x7b return <p>안녕</p>; \x7d\n".toList

/-- Behind a directive that ends with a carriage return the line feed of a new import makes a line end of two
characters, in a source without one. -/
theorem wrapSource_not_always_keeps_line_ends :
    ¬ ∀ (o : WrapOptions) (path : String) (source : List Char) (w : WrappedSource),
      wrapSource? o path source = .ok (some w) →
        ('\n' ∈ source → EachFeed (· = some '\r') source → EachFeed (· = some '\r') w.output) ∧
          (EachFeed (· ≠ some '\r') source → EachFeed (· ≠ some '\r') w.output) := by
  intro hall
  obtain ⟨w, hrun, hfeeds⟩ := exists_wrapped (koreanOptions none) "a.tsx" returnedDirective
    (p := fun w => !decide (EachFeed (· ≠ some '\r') w.output)) (by decide +kernel)
  rw [Bool.not_eq_true', decide_eq_false_iff_not] at hfeeds
  exact hfeeds ((hall _ _ _ w hrun).2 (by decide +kernel))

end Localization
