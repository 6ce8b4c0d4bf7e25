import Localization.Proofs.Component.Wrap
import Localization.Proofs.Source.Grammar.Items
import Localization.Component.Import

/-!
Where a new import is put: behind the byte order mark, the line that begins with `#!` and the directives of
the module, and in front of its other items. Main statement: `newImport_placed`.
-/

namespace Localization

open Source (Node Place)
open Source.Parser (sourceGap)
open Text (byteLength IsBoundary)

namespace Source

/-- The first line of a source is written for an interpreter. -/
def HasInterpreterLine (source : List Char) : Prop :=
  (textStart source).rest.take 2 = ['#', '!']

instance (source : List Char) : Decidable (HasInterpreterLine source) :=
  inferInstanceAs (Decidable (_ = _))

/-- A line feed stands in front of a byte. -/
def HasLineFeedBefore (source : List Char) (offset : Nat) : Prop :=
  ∃ front rest, source = front ++ '\n' :: rest ∧ byteLength front < offset

/-- The first token of a source. -/
def firstToken (source : List Char) : Token :=
  (nextToken true (skipInterpreterLine (textStart source))).token

/-- The directives that a module begins with. -/
def Node.directiveItems (module : Node) : List Node :=
  module.children.takeWhile Node.isStringStatement

/-- The items behind the directives of a module. -/
def Node.otherItems (module : Node) : List Node :=
  module.children.dropWhile Node.isStringStatement

theorem Node.directiveItems_append_otherItems (module : Node) :
    module.directiveItems ++ module.otherItems = module.children :=
  List.takeWhile_append_dropWhile

theorem Node.children_ne_nil_of_isStringStatement {n : Node} (h : n.isStringStatement = true) :
    n.children ≠ [] := by
  intro hnil
  simp [isStringStatement, hnil] at h

end Source

/-! ### The first line -/

theorem byteLength_takeWhile_le {p q : Char → Bool} (h : ∀ c, p c = true → q c = true) (cs : List Char) :
    byteLength (cs.takeWhile p) ≤ byteLength (cs.takeWhile q) := by
  induction cs with
  | nil => exact Nat.le_refl _
  | cons c rest ih =>
      cases hc : p c with
      | false => simp [hc, byteLength]
      | true =>
          rw [List.takeWhile_cons_of_pos hc, List.takeWhile_cons_of_pos (h c hc), byteLength, byteLength]
          exact Nat.add_le_add_left ih _

/-- A text up to its first line feed. -/
theorem exists_line (cs : List Char) : ∃ line, cs.takeWhile (· != '\n') = line ∧ '\n' ∉ line ∧
    (cs = line ∨ ∃ rest, cs = line ++ '\n' :: rest) := by
  induction cs with
  | nil => exact ⟨[], rfl, by simp, .inl rfl⟩
  | cons c cs ih =>
      by_cases hc : c = '\n'
      · subst hc
        exact ⟨[], rfl, by simp, .inr ⟨cs, rfl⟩⟩
      · obtain ⟨line, htake, hline, hcs⟩ := ih
        refine ⟨c :: line, ?_, ?_, ?_⟩
        · rw [List.takeWhile_cons_of_pos (by simpa using hc), htake]
        · simpa [Ne.symm hc] using hline
        · rcases hcs with rfl | ⟨rest, rfl⟩
          · exact .inl rfl
          · exact .inr ⟨rest, rfl⟩

/-- A new import in a module without directives is put in front of everything, or behind the first line,
which ends with its line feed or with the text. -/
theorem behindFirstLine_cases (start : Place) :
    (start.rest.take 2 ≠ ['#', '!'] ∧ behindFirstLine start = start.offset) ∨
    (start.rest.take 2 = ['#', '!'] ∧ ∃ line, '\n' ∉ line ∧
      ((start.rest = line ∧ behindFirstLine start = start.offset + byteLength line) ∨
        ∃ rest, start.rest = line ++ '\n' :: rest ∧
          behindFirstLine start = start.offset + byteLength line + 1)) := by
  obtain ⟨line, htake, hline, hrest⟩ := exists_line start.rest
  unfold behindFirstLine
  split
  · next hmark =>
      refine .inr ⟨hmark, line, hline, hrest.imp (fun hrest => ⟨hrest, ?_⟩) fun ⟨rest, hrest⟩ => ⟨rest, hrest, ?_⟩⟩
      · have hnil : start.rest.drop line.length = [] := by rw [hrest, List.drop_length]
        rw [htake]
        simp [hnil]
      · have hfeed : start.rest.drop line.length = '\n' :: rest := by rw [hrest, List.drop_left]
        rw [htake]
        simp [hfeed]
  · next hmark => exact .inl ⟨hmark, rfl⟩

theorem exists_place_behindFirstLine (start : Place) :
    ∃ p, start.Reaches p ∧ p.offset = behindFirstLine start := by
  rcases behindFirstLine_cases start with ⟨-, h⟩ | ⟨-, line, -, ⟨hrest, h⟩ | ⟨rest, hrest, h⟩⟩
  · exact ⟨start, .refl start, h.symm⟩
  · exact ⟨⟨[], start.offset + byteLength line⟩, ⟨line, by simpa using hrest, rfl⟩, h.symm⟩
  · refine ⟨⟨rest, start.offset + byteLength line + 1⟩, ⟨line ++ ['\n'], by simpa using hrest, ?_⟩, h.symm⟩
    rw [Text.byteLength_append, Nat.add_assoc]
    rfl

/-- The line of an interpreter ends at its line feed or in front of it. -/
theorem skipInterpreterLine_le (start : Place) :
    (Source.skipInterpreterLine start).offset ≤ behindFirstLine start := by
  unfold Source.skipInterpreterLine behindFirstLine
  split
  · have hline := byteLength_takeWhile_le (p := fun c => !Source.isLineTerminator c) (q := (· != '\n'))
      (by simp +contextual [Source.isLineTerminator]) start.rest
    dsimp only at hline ⊢
    omega
  · exact Nat.le_refl _

theorem exists_mark (source : List Char) : ∃ mark, source = mark ++ (Source.textStart source).rest ∧
    (Source.textStart source).offset = byteLength mark ∧ '\n' ∉ mark := by
  unfold Source.textStart
  split
  · next hmark =>
      obtain ⟨rest, rfl⟩ := List.head?_eq_some_iff.mp hmark
      exact ⟨[Source.byteOrderMark], rfl, rfl, by decide⟩
  · exact ⟨[], rfl, rfl, by simp⟩

/-- The bytes behind the first line of an interpreter are those behind a line feed. -/
theorem behindFirstLine_le_iff {source : List Char} {offset : Nat} (h : Source.HasInterpreterLine source)
    (hoffset : offset < byteLength source) :
    behindFirstLine (Source.textStart source) ≤ offset ↔ Source.HasLineFeedBefore source offset := by
  obtain ⟨mark, hsource, hmark, hnoFeed⟩ := exists_mark source
  rcases behindFirstLine_cases (Source.textStart source) with ⟨hnone, -⟩ | ⟨-, line, hline, hcases⟩
  · exact absurd h hnone
  have hfront : '\n' ∉ mark ++ line := by simp [hnoFeed, hline]
  have hlength := Text.byteLength_append mark line
  rcases hcases with ⟨hrest, hplace⟩ | ⟨rest, hrest, hplace⟩
  · rw [hrest] at hsource
    constructor
    · intro hle
      rw [hsource] at hoffset
      omega
    · rintro ⟨front, behind, hfeed, -⟩
      exact absurd (by rw [← hsource, hfeed]; simp) hfront
  · rw [hrest, ← List.append_assoc] at hsource
    constructor
    · exact fun hle => ⟨mark ++ line, rest, hsource, by omega⟩
    · rintro ⟨front, behind, hfeed, hlt⟩
      have hle : byteLength (mark ++ line) ≤ byteLength front := by
        rcases List.append_eq_append_iff.mp (hsource.symm.trans hfeed) with ⟨more, rfl, -⟩ | ⟨more, hmore, htail⟩
        · rw [Text.byteLength_append (mark ++ line)]
          exact Nat.le_add_right _ _
        · cases more with
          | nil => exact Nat.le_of_eq (congrArg byteLength (hmore.trans (List.append_nil front)))
          | cons d more =>
              obtain ⟨rfl, -⟩ := List.cons.inj htail
              exact absurd (by rw [hmore]; simp) hfront
      omega

/-! ### Items -/

section

variable {path space : String} {source : List Char} {module : Node} {edits : List Edit}

theorem pairwise_children (h : Source.parseFile path source = .ok module) :
    module.children.Pairwise fun n m => n.children ≠ [] → n.span.hi ≤ m.span.lo ∧ n.span.hi ≤ m.span.hi :=
  Source.Parser.pairwise_of_readsItems (Source.Parser.behind_firstCursor _ source)
    (Source.Parser.readsItems_of_parseFile h)

/-- Items do not begin in front of the first token. -/
theorem le_lo_of_parseFile (h : Source.parseFile path source = .ok module) :
    ∀ item ∈ module.children, (Source.firstToken source).span.lo ≤ item.span.lo :=
  Source.Parser.le_lo_of_readsItems (Source.Parser.behind_firstCursor (Source.allowsElements path) source)
    (Source.Parser.readsItems_of_parseFile h)

/-- Items end behind the line of an interpreter. -/
theorem le_hi_of_parseFile (h : Source.parseFile path source = .ok module) :
    ∀ item ∈ module.children,
      (Source.skipInterpreterLine (Source.textStart source)).offset ≤ item.span.hi := by
  intro item hitem
  have hclear := Source.Parser.clear_of_readsItems
    (Source.Parser.behind_firstCursor (Source.allowsElements path) source).behind_tail
    (Source.Parser.readsItems_of_parseFile h) item hitem
  exact hclear.endsOff.resolve_left id

theorem tokenAt_of_nil {p : Place} (h : p.rest = []) : (Source.tokenAt p).1 = .endOfText := by
  obtain ⟨rest, offset⟩ := p
  obtain rfl : rest = [] := h
  rfl

/-- Where there is an item, the first token stands in the text. -/
theorem firstToken_lt (h : Source.parseFile path source = .ok module) (hitems : module.children ≠ []) :
    (Source.firstToken source).span.lo < byteLength source := by
  obtain ⟨n, rest, hcons⟩ := List.exists_cons_of_ne_nil hitems
  have hreads := Source.Parser.readsItems_of_parseFile h
  rw [hcons] at hreads
  obtain ⟨text, hsource, hoffset⟩ :=
    (Source.Parser.behind_firstCursor (Source.allowsElements path) source).start.reaches
  dsimp only at hsource hoffset
  have hmore : (Source.Parser.firstCursor (Source.allowsElements path) source).start ≠ [] :=
    fun hnil => hreads.1 (tokenAt_of_nil hnil)
  have hlength := congrArg byteLength hsource
  rw [Text.byteLength_append] at hlength
  have hpos : byteLength (Source.Parser.firstCursor (Source.allowsElements path) source).start ≠ 0 :=
    fun hzero => hmore (Text.byteLength_eq_zero.mp hzero)
  have hlo : (Source.firstToken source).span.lo = 0 + byteLength text := hoffset
  omega

/-- Behind the first line stands the first token, unless that line ends with another line terminator. -/
theorem behindFirstLine_le_firstToken_iff (h : Source.parseFile path source = .ok module)
    (hitems : module.children ≠ []) :
    behindFirstLine (Source.textStart source) ≤ (Source.firstToken source).span.lo ↔
      ¬Source.HasInterpreterLine source ∨
        Source.HasLineFeedBefore source (Source.firstToken source).span.lo := by
  by_cases hline : Source.HasInterpreterLine source
  · simp only [hline, not_true_eq_false, false_or]
    exact behindFirstLine_le_iff hline (firstToken_lt h hitems)
  · simp only [hline, not_false_eq_true, true_or, iff_true]
    have hordered := (Source.Parser.behind_firstCursor (Source.allowsElements path) source).ordered
    rw [show behindFirstLine (Source.textStart source) = (Source.textStart source).offset from if_neg hline]
    exact Nat.le_trans (Source.Parser.enters_skipInterpreterLine _).reaches.le hordered

/-- The last directive of a module is behind the others, and the other items are behind it. -/
theorem placed_directive (h : Source.parseFile path source = .ok module) {directive : Node}
    (hlast : module.directiveItems.getLast? = some directive) :
    (∀ d ∈ module.directiveItems, d.span.hi ≤ directive.span.hi) ∧
      ∀ item ∈ module.otherItems, directive.span.hi ≤ item.span.lo := by
  obtain ⟨front, hfront⟩ := List.getLast?_eq_some_iff.mp hlast
  have hstring : ∀ d ∈ module.directiveItems, d.children ≠ [] := fun d hd =>
    Node.children_ne_nil_of_isStringStatement (List.mem_takeWhile_imp hd)
  have hordered := pairwise_children h
  rw [← module.directiveItems_append_otherItems, hfront, List.append_assoc, List.pairwise_append] at hordered
  obtain ⟨-, hrest, hbefore⟩ := hordered
  have hdirective : directive ∈ module.directiveItems := by simp [hfront]
  refine ⟨fun d hd => ?_, fun item hitem => ?_⟩
  · rw [hfront] at hd
    rcases List.mem_append.mp hd with hd | hd
    · exact (hbefore d hd directive (by simp) (hstring d (by simp [hfront, hd]))).2
    · rw [List.mem_singleton.mp hd]
  · exact ((List.pairwise_cons.mp hrest).1 item hitem (hstring directive hdirective)).1

theorem eq_newImport_of_added (h : importEdits module source space = (.added, edits)) :
    edits = [newImport module source space] := by
  simp only [importEdits] at h
  split at h
  · cases h
  · split at h
    · cases h
    · exact (Prod.mk.inj h).2.symm

theorem start_newImport (module : Node) (source : List Char) (space : String) :
    (newImport module source space).start =
      match module.directiveItems.getLast? with
      | some directive => directive.span.hi
      | none => behindFirstLine (Source.textStart source) := by
  have hitems : module.children.takeWhile Node.isStringStatement = module.directiveItems := rfl
  rw [newImport, hitems]
  cases module.directiveItems.getLast? <;> rfl

theorem exists_place_newImport (space : String) (h : Source.parseFile path source = .ok module) :
    ∃ at_ text, newImport module source space = Edit.insert at_ text ∧ IsBoundary source at_ := by
  rw [newImport]
  split
  · next directive hlast =>
      have hmem : directive ∈ module.children :=
        (List.takeWhile_sublist _).subset (List.mem_of_getLast? hlast)
      exact ⟨_, _, rfl, Source.isBoundary_of_clear ((Source.Parser.clear_parseFile h).child hmem)⟩
  · obtain ⟨p, hp, hoffset⟩ := exists_place_behindFirstLine (Source.textStart source)
    refine ⟨_, _, rfl, ?_⟩
    rw [← hoffset]
    exact Source.isBoundary_of_reaches ((Source.Parser.enters_textStart source).reaches.trans hp)

/-- A new import is put between two characters, behind the byte order mark, the line that is written for an
interpreter and all directives. It is put in front of all other items if there are directives, if no line is
written for an interpreter, or if a line feed stands between that line and the first token; in any other case
it is put behind the first token of the first item. -/
theorem newImport_placed (h : Source.parseFile path source = .ok module)
    (hadded : importEdits module source space = (.added, edits)) :
    ∃ at_ text, edits = [Edit.insert at_ text] ∧ IsBoundary source at_ ∧
      (Source.textStart source).offset ≤ at_ ∧
      (Source.skipInterpreterLine (Source.textStart source)).offset ≤ at_ ∧
      (∀ directive ∈ module.directiveItems, directive.span.hi ≤ at_) ∧
      (module.directiveItems ≠ [] ∨ ¬Source.HasInterpreterLine source ∨
          Source.HasLineFeedBefore source (Source.firstToken source).span.lo →
        ∀ item ∈ module.otherItems, at_ ≤ item.span.lo) ∧
      (¬(module.directiveItems ≠ [] ∨ ¬Source.HasInterpreterLine source ∨
          Source.HasLineFeedBefore source (Source.firstToken source).span.lo) →
        module.otherItems ≠ [] → (Source.firstToken source).span.lo < at_) := by
  obtain ⟨at_, text, hnew, hboundary⟩ := exists_place_newImport space h
  refine ⟨at_, text, by rw [eq_newImport_of_added hadded, hnew], hboundary, ?_⟩
  have hstart : (Source.textStart source).offset ≤
      (Source.skipInterpreterLine (Source.textStart source)).offset :=
    (Source.Parser.enters_skipInterpreterLine _).reaches.le
  have hplace := start_newImport module source space
  rw [hnew] at hplace
  cases hlast : module.directiveItems.getLast? with
  | some directive =>
      rw [hlast] at hplace
      obtain rfl : at_ = directive.span.hi := hplace
      have hmem : directive ∈ module.directiveItems := List.mem_of_getLast? hlast
      have hchild : directive ∈ module.children := (List.takeWhile_sublist _).subset hmem
      have hline := le_hi_of_parseFile h directive hchild
      obtain ⟨hbefore, hbehind⟩ := placed_directive h hlast
      refine ⟨Nat.le_trans hstart hline, hline, hbefore, fun _ => hbehind, fun hnot => ?_⟩
      exact absurd (.inl (List.ne_nil_of_mem hmem)) hnot
  | none =>
      rw [hlast] at hplace
      obtain rfl : at_ = behindFirstLine (Source.textStart source) := hplace
      have hnone : module.directiveItems = [] := List.getLast?_eq_none_iff.mp hlast
      have hall : module.otherItems = module.children := by
        rw [← module.directiveItems_append_otherItems, hnone, List.nil_append]
      have hline := skipInterpreterLine_le (Source.textStart source)
      simp only [hnone, ne_eq, not_true_eq_false, false_or, hall]
      refine ⟨Nat.le_trans hstart hline, hline, by simp, fun hcases item hitem => ?_, fun hnot hitems => ?_⟩
      · have hfirst := (behindFirstLine_le_firstToken_iff h (List.ne_nil_of_mem hitem)).mpr hcases
        exact Nat.le_trans hfirst (le_lo_of_parseFile h item hitem)
      · exact Nat.lt_of_not_le fun hle => hnot ((behindFirstLine_le_firstToken_iff h hitems).mp hle)

end

/-- A script for an interpreter, with a directive. -/
def clientScript : List Char :=
  "#!/usr/bin/env node\n\"use client\";\nfunction A() \x7b\x7d\n".toList

/-- A script of which the first line ends with a carriage return. -/
def returnedScript : List Char :=
  "#!/usr/bin/env node\rfunction A() \x7b\n  return 1;\n\x7d\n".toList

theorem newImport_placed_clientScript : ∃ module edits,
    Source.parseFile "a.tsx" clientScript = .ok module ∧
    importEdits module clientScript "i18nexus" = (.added, edits) ∧
    ∃ at_ text, edits = [Edit.insert at_ text] ∧ IsBoundary clientScript at_ ∧
      (∀ directive ∈ module.directiveItems, directive.span.hi ≤ at_) ∧
      ∀ item ∈ module.otherItems, at_ ≤ item.span.lo := by
  obtain ⟨module, hmodule, hp⟩ := exists_module "a.tsx" clientScript
    (p := fun module => decide ((importEdits module clientScript "i18nexus").1 = .added) &&
      !module.directiveItems.isEmpty)
    (by decide +kernel)
  rw [Bool.and_eq_true, decide_eq_true_eq, Bool.not_eq_true', List.isEmpty_eq_false_iff] at hp
  obtain ⟨hadded, hdirective⟩ := hp
  refine ⟨module, _, hmodule, Prod.ext hadded rfl, ?_⟩
  obtain ⟨at_, text, hedits, hboundary, -, -, hbehind, hfront, -⟩ :=
    newImport_placed hmodule (Prod.ext hadded rfl)
  exact ⟨at_, text, hedits, hboundary, hbehind, hfront (.inl hdirective)⟩

/-- Behind a first line that ends with a carriage return a new import is not put in front of the items. -/
theorem newImport_not_always_placed :
    ¬ ∀ (path space : String) (source : List Char) (module : Node) (edits : List Edit),
      Source.parseFile path source = .ok module → importEdits module source space = (.added, edits) →
      ∃ at_ text, edits = [Edit.insert at_ text] ∧ IsBoundary source at_ ∧
        (Source.textStart source).offset ≤ at_ ∧
        (Source.skipInterpreterLine (Source.textStart source)).offset ≤ at_ ∧
        (∀ directive ∈ module.directiveItems, directive.span.hi ≤ at_) ∧
        ∀ item ∈ module.otherItems, at_ ≤ item.span.lo := by
  intro hall
  obtain ⟨module, hmodule, hp⟩ := exists_module "a.tsx" returnedScript
    (p := fun module => decide ((importEdits module returnedScript "i18nexus").1 = .added) &&
      module.otherItems.any fun item => (importEdits module returnedScript "i18nexus").2.any
        fun edit => decide (item.span.lo < edit.start))
    (by decide +kernel)
  simp only [Bool.and_eq_true, decide_eq_true_eq, List.any_eq_true] at hp
  obtain ⟨hadded, item, hitem, edit, hedit, hlt⟩ := hp
  obtain ⟨at_, text, hedits, -, -, -, -, hfront⟩ :=
    hall _ "i18nexus" _ module (importEdits module returnedScript "i18nexus").2 hmodule (Prod.ext hadded rfl)
  rw [hedits, List.mem_singleton] at hedit
  rw [hedit] at hlt
  exact absurd (hfront item hitem) (Nat.not_le.mpr hlt)

end Localization
