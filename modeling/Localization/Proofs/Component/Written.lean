import Localization.Proofs.Component.Placed
import Localization.Proofs.Json.Opening
import Localization.Proofs.Source.Gap

/-!
What the edits of a wrapping write and where. No text that is written begins as a JSON object does, and
what is written inside of a gap of the source is short or begins with a line end.
-/

namespace Localization

open Source (Node Kind Gap)
open Json (IsPlain)
open Json.Reader (IsBlank)

variable {o : WrapOptions} {source : List Char} {module : Node} {e : Edit}

/-- The import that is added. -/
def importDeclaration (space : String) : String :=
  "import \x7b " ++ hookName ++ " \x7d from " ++ Text.Quoted.encode space ++ ";"

/-- The edits of a wrapping, each with the node that it stands at. -/
inductive WrittenEdit (o : WrapOptions) (source : List Char) (module : Node) : Edit → Prop where
  | text {n : Node} {l : Literal} {key : String} (inside : n ∈ module.walk)
      (isLiteral : Literal.ofNode? source n = some l) :
      WrittenEdit o source module (replacementEdit l key)
  | hook {b : Node} (inside : b ∈ module.walk) (isBlock : b.kind = .block) :
      WrittenEdit o source module
        (.insert (b.span.lo + 1) (Candidate.statementInBlock source (hookStatement o.space) b))
  | opening {b : Node} (inside : b ∈ module.walk) :
      WrittenEdit o source module
        (.insert b.span.lo ("\x7b " ++ hookStatement o.space ++ " return "))
  | closing {b : Node} (inside : b ∈ module.walk) :
      WrittenEdit o source module (.insert b.span.hi "; \x7d")
  | specifier {n : Node} (inside : n ∈ module.walk) :
      WrittenEdit o source module (.insert n.span.hi (", " ++ hookName))
  | specifiers {n : Node} (inside : n ∈ module.walk) :
      WrittenEdit o source module (.insert n.span.hi (", \x7b " ++ hookName ++ " \x7d"))
  | importBehind {n : Node} (inside : n ∈ module.walk)
      (added : (withImport o source module (wrapModule o source module)).1 = some .added)
      (isLast : (module.children.takeWhile Node.isStringStatement).getLast? = some n) :
      WrittenEdit o source module
        (.insert n.span.hi (Text.lineEnding source ++ importDeclaration o.importSource))
  | importFirst :
      WrittenEdit o source module
        (.insert (behindFirstLine (Source.textStart source))
          (importDeclaration o.importSource ++ Text.lineEnding source))

theorem writtenEdit_of_mem_hookEdits {f : Found} (hf : f ∈ moduleCandidates module)
    (he : e ∈ f.hookEdits source o.space) : WrittenEdit o source module e := by
  have hbody := Found.body_mem_walk hf
  simp only [Found.hookEdits, Candidate.hookEdits?] at he
  split at he
  · simp at he
  · split at he
    · simp at he
    · split at he
      · next hblock =>
          obtain rfl := List.mem_singleton.mp he
          exact .hook hbody (beq_iff_eq.mp hblock)
      · simp only [Option.getD_some, List.mem_cons, List.not_mem_nil, or_false] at he
        rcases he with rfl | rfl
        · exact .opening hbody
        · exact .closing hbody

theorem writtenEdit_of_mem_wrapModule (he : e ∈ (wrapModule o source module).edits) :
    WrittenEdit o source module e := by
  rw [edits_wrapModule] at he
  obtain ⟨f, hf, he⟩ := List.mem_flatMap.mp he
  have hcandidate := (List.mem_filter.mp hf).1
  rcases List.mem_append.mp he with htext | hhook
  · obtain ⟨l, hl, rfl⟩ := List.mem_map.mp htext
    obtain ⟨n, hn, hnode⟩ := exists_node_of_mem_moduleCandidates hcandidate
    obtain ⟨way, hway, hliteral⟩ :=
      Literal.exists_way_of_mem_collect false f.candidate.body l (List.mem_filter.mp hl).1
    refine .text ?_ hliteral
    refine Node.mem_walk_trans hn (Node.mem_walk_trans (Candidate.body_mem_walk hnode) ?_)
    exact Node.mem_walk_of_isWay hway (Node.endOf_mem _ way)
  · exact writtenEdit_of_mem_hookEdits hcandidate hhook

theorem writtenEdit_of_extendImport? {item : Node} (hitem : item ∈ module.children)
    (h : extendImport? item = some e) : WrittenEdit o source module e := by
  have hinside {specifier : Node} (h : specifier ∈ item.children) : specifier ∈ module.walk :=
    Node.mem_walk_of_child hitem (Node.mem_walk_of_child h specifier.mem_walk_self)
  unfold extendImport? at h
  dsimp only at h
  split at h
  · next last hlast =>
      obtain rfl := Option.some.inj h
      have hmem := (List.mem_filter.mp (List.mem_of_getLast? hlast)).1
      exact .specifier (hinside (List.mem_filter.mp hmem).1)
  · split at h
    · next specifier hspecifier =>
        split at h
        · obtain rfl := Option.some.inj h
          have hmem : specifier ∈ item.children.filter isSpecifier := by
            rw [hspecifier]
            exact List.mem_singleton_self specifier
          exact .specifiers (hinside (List.mem_filter.mp hmem).1)
        · contradiction
    · contradiction

theorem writtenEdit_newImport
    (h : (withImport o source module (wrapModule o source module)).1 = some .added) :
    WrittenEdit o source module (newImport module source o.importSource) := by
  unfold newImport
  dsimp only
  split
  · next directive hlast =>
      have hmem : directive ∈ module.children :=
        (List.takeWhile_prefix _).subset (List.mem_of_getLast? hlast)
      exact .importBehind (Node.mem_walk_of_child hmem directive.mem_walk_self) h hlast
  · exact .importFirst

theorem writtenEdit_of_mem_importEdits
    (h : (withImport o source module (wrapModule o source module)).1 =
      some (importEdits module source o.importSource).1)
    (he : e ∈ (importEdits module source o.importSource).2) : WrittenEdit o source module e := by
  unfold importEdits at h he
  dsimp only at h he
  split at h
  · next hpresent =>
      rw [if_pos hpresent] at he
      contradiction
  · next hpresent =>
      rw [if_neg hpresent] at he
      split at h
      · next edit hextend =>
          rw [hextend] at he
          obtain rfl := List.mem_singleton.mp he
          obtain ⟨item, hitem, hedit⟩ := List.exists_of_findSome?_eq_some hextend
          exact writtenEdit_of_extendImport? (List.mem_filter.mp hitem).1 hedit
      · next hextend =>
          rw [hextend] at he
          obtain rfl := List.mem_singleton.mp he
          exact writtenEdit_newImport h

theorem writtenEdit_of_mem_withImport
    (he : e ∈ (withImport o source module (wrapModule o source module)).2) :
    WrittenEdit o source module e := by
  by_cases hcount : (wrapModule o source module).hookCount = 0
  · rw [withImport, if_pos hcount] at he
    exact writtenEdit_of_mem_wrapModule he
  · have hchange : (withImport o source module (wrapModule o source module)).1 =
        some (importEdits module source o.importSource).1 := by
      rw [withImport, if_neg hcount]
    rw [withImport, if_neg hcount] at he
    rcases List.mem_append.mp he with hwrapped | himport
    · exact writtenEdit_of_mem_wrapModule hwrapped
    · exact writtenEdit_of_mem_importEdits hchange himport

/-! ## How texts begin -/

/-- The characters of a text that are no blanks. -/
def marks (text : List Char) : List Char :=
  text.filter fun c => !decide (IsBlank c)

theorem marks_append (front back : List Char) : marks (front ++ back) = marks front ++ marks back :=
  List.filter_append ..

theorem marks_of_blank {blanks : List Char} (h : ∀ b ∈ blanks, IsBlank b) : marks blanks = [] := by
  refine List.filter_eq_nil_iff.mpr fun b hb => ?_
  simp [h b hb]

/-- The marks with which objects begin. -/
def objectMarks : List Char :=
  ['\x7b', '\x7d', '\x22', ':']

/-- The first mark of a text, or the first one behind a brace, is none with which an object begins. -/
def BeginsCode (text : List Char) : Prop :=
  ∃ c rest, c ∉ objectMarks ∧ (marks text = c :: rest ∨ marks text = '\x7b' :: c :: rest)

theorem BeginsCode.append {front : List Char} (h : BeginsCode front) (back : List Char) :
    BeginsCode (front ++ back) := by
  obtain ⟨c, rest, hc, hmarks⟩ := h
  refine ⟨c, rest ++ marks back, hc, ?_⟩
  rw [marks_append]
  rcases hmarks with hmarks | hmarks
  · left
    rw [hmarks, List.cons_append]
  · right
    rw [hmarks, List.cons_append, List.cons_append]

theorem BeginsCode.behind_blanks {text blanks : List Char} (h : BeginsCode text)
    (hblanks : ∀ b ∈ blanks, IsBlank b) : BeginsCode (blanks ++ text) := by
  obtain ⟨c, rest, hc, hmarks⟩ := h
  refine ⟨c, rest, hc, ?_⟩
  rwa [marks_append, marks_of_blank hblanks, List.nil_append]

theorem beginsCode_of_marks {text : List Char} {c : Char} (front : List Char)
    (hfront : marks front = [c] ∨ marks front = ['\x7b', c]) (hbegins : front <+: text)
    (hc : c ∉ objectMarks) : BeginsCode text := by
  obtain ⟨back, rfl⟩ := hbegins
  exact BeginsCode.append ⟨c, [], hc, hfront⟩ back

theorem beginsCode_hookStatement (space : Option String) : BeginsCode (hookStatement space).toList :=
  beginsCode_of_marks ['c'] (.inl rfl) (by simp [hookStatement]) (by decide)

theorem beginsCode_importDeclaration (space : String) : BeginsCode (importDeclaration space).toList :=
  beginsCode_of_marks ['i'] (.inl rfl) (by simp [importDeclaration]) (by decide)

theorem isBlank_of_mem_lineEnding (source : List Char) :
    ∀ b ∈ (Text.lineEnding source).toList, IsBlank b := by
  rcases Text.lineEnding_eq source with h | h
  · rw [h]
    exact List.forall_mem_singleton.mpr (by decide)
  · rw [h]
    exact List.forall_mem_cons.mpr ⟨by decide, List.forall_mem_singleton.mpr (by decide)⟩

theorem isBlank_of_mem_lineIndent (source : List Char) (offset : Nat) :
    ∀ b ∈ Text.lineIndent source offset, IsBlank b := by
  intro b hb
  have hindent := List.mem_takeWhile_imp hb
  simp only [Bool.or_eq_true, decide_eq_true_eq] at hindent
  rcases hindent with rfl | rfl <;> decide

theorem beginsCode_statementInBlock (source : List Char) (space : Option String) (block : Node) :
    BeginsCode (Candidate.statementInBlock source (hookStatement space) block).toList := by
  have hstatement := beginsCode_hookStatement space
  have hspace : ∀ b ∈ " ".toList, IsBlank b := List.forall_mem_singleton.mpr (by decide)
  unfold Candidate.statementInBlock
  split
  · rw [String.toList_append, String.toList_append]
    exact (hstatement.behind_blanks hspace).append _
  · split
    · rw [String.toList_append]
      exact hstatement.behind_blanks hspace
    · rw [String.toList_append, String.toList_append, String.toList_ofList]
      refine hstatement.behind_blanks fun b hb => ?_
      rcases List.mem_append.mp hb with hend | hindent
      · exact isBlank_of_mem_lineEnding source b hend
      · exact isBlank_of_mem_lineIndent source _ b hindent

theorem beginsCode_lookupCall (key : String) : ∀ site : LiteralSite,
    BeginsCode (site.wrap (lookupCall key)).toList
  | .expression =>
      beginsCode_of_marks ['t'] (.inl rfl) (by simp [LiteralSite.wrap, lookupCall, lookupName])
        (by decide)
  | .attribute | .elementText =>
      beginsCode_of_marks ['\x7b', 't'] (.inr rfl)
        (by simp [LiteralSite.wrap, lookupCall, lookupName]) (by decide)
  | .propertyKey =>
      beginsCode_of_marks ['['] (.inl rfl) (by simp [LiteralSite.wrap]) (by decide)

theorem WrittenEdit.beginsCode (h : WrittenEdit o source module e) : BeginsCode e.text.toList := by
  cases h with
  | text inside isLiteral => exact beginsCode_lookupCall _ _
  | hook inside isBlock => exact beginsCode_statementInBlock _ _ _
  | opening inside =>
      exact beginsCode_of_marks ['\x7b', ' ', 'c'] (.inr rfl) (by simp [Edit.insert, hookStatement])
        (by decide)
  | closing inside => exact beginsCode_of_marks [';'] (.inl rfl) (by simp [Edit.insert]) (by decide)
  | specifier inside =>
      exact beginsCode_of_marks [','] (.inl rfl) (by simp [Edit.insert]) (by decide)
  | specifiers inside =>
      exact beginsCode_of_marks [','] (.inl rfl) (by simp [Edit.insert]) (by decide)
  | importBehind inside added isLast =>
      rw [Edit.insert, String.toList_append]
      exact (beginsCode_importDeclaration _).behind_blanks (isBlank_of_mem_lineEnding source)
  | importFirst =>
      rw [Edit.insert, String.toList_append]
      exact (beginsCode_importDeclaration _).append _

/-! ## Where texts are written -/

/-- What is written inside of a gap does not leave a string: it goes on in the string or begins with a
control character. -/
def StaysInside (text : List Char) : Prop :=
  (∀ c ∈ text, IsPlain c) ∨ ∃ c rest, text = c :: rest ∧ c.toNat < 0x20

/-- An edit is made outside of a gap, or it writes what does not leave a string. -/
def Edit.Clears (g : Gap) (e : Edit) : Prop :=
  g.Misses e.start ∨ (g.EndsOff e.start ∧ e.start = e.stop ∧ StaysInside e.text.toList)

theorem staysInside_lineEnding (source : List Char) (rest : String) :
    StaysInside (Text.lineEnding source ++ rest).toList := by
  right
  rw [String.toList_append]
  rcases Text.lineEnding_eq source with h | h
  · rw [h]
    exact ⟨'\n', _, rfl, by decide⟩
  · rw [h]
    exact ⟨'\r', _, rfl, by decide⟩

theorem Literal.misses_start {g : Gap} {n : Node} {l : Literal} (hn : n.Clear g)
    (h : Literal.ofNode? source n = some l) : g.Misses l.start := by
  unfold Literal.ofNode? at h
  split at h
  · exact Option.some.inj h ▸ hn.misses_lo
  · exact Option.some.inj h ▸ hn.misses_lo
  · split at h
    · exact Option.some.inj h ▸ hn.misses_lo
    · contradiction
  · next value hkind =>
      -- Text between tags does not begin in front of the gap, so that blanks at its front do not matter.
      obtain ⟨hinside, -⟩ := range_inside_of_ofElementText? h
      rcases hn.text (by rw [hkind]; rfl) with hbehind | ⟨-, helement⟩
      · exact .inr (Nat.le_trans hbehind hinside.1)
      · rw [hkind] at helement
        contradiction
  · contradiction

theorem WrittenEdit.clears {g : Gap} (h : WrittenEdit o source module e) (hmodule : module.Clear g)
    (hfirst : g.Front (behindFirstLine (Source.textStart source))) : e.Clears g := by
  cases h with
  | text inside isLiteral => exact .inl (Literal.misses_start (hmodule.of_mem_walk inside) isLiteral)
  | hook inside isBlock => exact .inl ((hmodule.of_mem_walk inside).misses_opening isBlock)
  | opening inside => exact .inl (hmodule.of_mem_walk inside).misses_lo
  | closing inside =>
      refine .inr ⟨(hmodule.of_mem_walk inside).endsOff, rfl, .inl ?_⟩
      simp [Edit.insert, IsPlain]
  | specifier inside =>
      refine .inr ⟨(hmodule.of_mem_walk inside).endsOff, rfl, .inl ?_⟩
      simp [Edit.insert, IsPlain, hookName]
  | specifiers inside =>
      refine .inr ⟨(hmodule.of_mem_walk inside).endsOff, rfl, .inl ?_⟩
      simp [Edit.insert, IsPlain, hookName]
  | importBehind inside added isLast =>
      exact .inr ⟨(hmodule.of_mem_walk inside).endsOff, rfl, staysInside_lineEnding source _⟩
  | importFirst => exact .inl (.inl hfirst)

end Localization
