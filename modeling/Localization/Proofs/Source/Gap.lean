import Localization.Proofs.Source.Reach
import Localization.Proofs.Source.Text
import Localization.Source.Grammar.Expression

/-!
Gaps in a source: bytes at which no construct begins or ends. What is read behind a gap stays behind it,
because a reader only goes on.
-/

namespace Localization.Source

/-- A gap between two bytes. What is read behind it begins at `next` or later, at places that the gap
admits. It is a class so that a lemma about a reader is used with the gap at hand. -/
class Gap where
  /-- The bytes in front of the gap. -/
  Front : Nat → Prop
  next : Nat
  /-- The places that a reader behind the gap may come to. -/
  Admits : Place → Prop
  /-- The bytes where what is read behind the gap may end. -/
  Stops : Nat → Prop
  next_le : ∀ {p}, Admits p → next ≤ p.offset
  admits : ∀ {p q}, Admits p → p.Enters q → Admits q
  stops : ∀ {p}, Admits p → Stops p.offset

namespace Gap

variable {g : Gap} {x : Nat}

/-- A construct that begins at a byte misses the gap. -/
def Misses (g : Gap) (x : Nat) : Prop :=
  g.Front x ∨ g.next ≤ x

/-- A construct does not end in the gap. -/
def EndsOff (g : Gap) (x : Nat) : Prop :=
  g.Front x ∨ g.Stops x

@[simp]
theorem misses_of_next_le (h : g.next ≤ x) : g.Misses x :=
  .inr h

@[simp]
theorem endsOff_of_stops (h : g.Stops x) : g.EndsOff x :=
  .inr h

@[simp]
theorem misses_succ_of_next_le (h : g.next ≤ x) : g.Misses (x + 1) :=
  g.misses_of_next_le (Nat.le_trans h (Nat.le_succ x))

/-- The text between tags that some bytes write, at a place that the gap admits. -/
def Writes (g : Gap) (span : Span) (value : String) : Prop :=
  ∃ (p q : Place) (text : List Char), g.Admits p ∧ p.Passes text q ∧ span = ⟨p.offset, q.offset⟩ ∧
    value = String.ofList (Entity.decode (Parser.joinLineEnds text))

end Gap

namespace Node

/-- A node and its parts begin and end outside of a gap, blocks open outside of it, and texts do not reach
over it. What stands between tags is written there, and a string takes up some bytes. -/
inductive Clear (g : Gap) : Node → Prop where
  | mk {kind : Kind} {span : Span} {children : List Node} (lo : g.Misses span.lo)
      (hi : g.EndsOff span.hi) (opening : kind = .block → g.Misses (span.lo + 1))
      (text : kind.isText = true → g.next ≤ span.lo ∨ (g.Front span.lo ∧ kind.isElementText = false))
      (written : ∀ value, kind = .jsxText value → g.Writes span value)
      (filled : kind.isText = true → kind.isElementText = false → span.lo < span.hi)
      (parts : ∀ part ∈ children, part.Clear g) : Clear g (.mk kind span children)

namespace Clear

variable {g : Gap} {n part : Node}

@[simp]
theorem misses_lo (h : n.Clear g) : g.Misses n.span.lo := by
  cases h with
  | mk lo hi opening text written filled parts => exact lo

@[simp]
theorem endsOff (h : n.Clear g) : g.EndsOff n.span.hi := by
  cases h with
  | mk lo hi opening text written filled parts => exact hi

theorem misses_opening (h : n.Clear g) (hkind : n.kind = .block) : g.Misses (n.span.lo + 1) := by
  cases h with
  | mk lo hi opening text written filled parts => exact opening hkind

theorem text (h : n.Clear g) (hkind : n.kind.isText = true) :
    g.next ≤ n.span.lo ∨ (g.Front n.span.lo ∧ n.kind.isElementText = false) := by
  cases h with
  | mk lo hi opening text written filled parts => exact text hkind

theorem written (h : n.Clear g) {value : String} (hkind : n.kind = .jsxText value) :
    g.Writes n.span value := by
  cases h with
  | mk lo hi opening text written filled parts => exact written value hkind

theorem filled (h : n.Clear g) (hkind : n.kind.isText = true) (helement : n.kind.isElementText = false) :
    n.span.lo < n.span.hi := by
  cases h with
  | mk lo hi opening text written filled parts => exact filled hkind helement

theorem child (h : n.Clear g) (hpart : part ∈ n.children) : part.Clear g := by
  cases h with
  | mk lo hi opening text written filled parts => exact parts part hpart

theorem endOf {way : List Node} (h : n.Clear g) (hway : n.IsWay way) : (n.endOf way).Clear g := by
  induction way generalizing n with
  | nil => exact h
  | cons first rest ih => exact ih (h.child hway.1) hway.2

theorem of_mem_walk (h : n.Clear g) (hpart : part ∈ n.walk) : part.Clear g := by
  obtain ⟨way, hway, rfl⟩ := exists_way_of_mem_walk n part hpart
  exact h.endOf hway

end Clear

theorem writes_of_isElementText {g : Gap} {kind : Kind} {span : Span}
    (h : kind.isElementText = false) (value : String) (hvalue : kind = .jsxText value) :
    g.Writes span value := by
  rw [hvalue] at h
  contradiction

theorem filled_of_isText {kind : Kind} {span : Span} (h : kind.isText = false)
    (htext : kind.isText = true) (_ : kind.isElementText = false) : span.lo < span.hi := by
  rw [h] at htext
  contradiction

theorem clear_mk {g : Gap} {kind : Kind} {span : Span} {children : List Node}
    (lo : g.next ≤ span.lo) (hi : g.Stops span.hi)
    (written : ∀ value, kind = .jsxText value → g.Writes span value)
    (filled : kind.isText = true → kind.isElementText = false → span.lo < span.hi)
    (parts : ∀ part ∈ children, part.Clear g) : (Node.mk kind span children).Clear g :=
  .mk (g.misses_of_next_le lo) (g.endsOff_of_stops hi) (fun _ => g.misses_succ_of_next_le lo)
    (fun _ => .inl lo) written filled parts

@[simp]
theorem clear_leaf_iff {g : Gap} {kind : Kind} {span : Span} (lo : g.next ≤ span.lo)
    (hi : g.Stops span.hi) :
    (Node.leaf kind span).Clear g ↔ (∀ value, kind = .jsxText value → g.Writes span value) ∧
      (kind.isText = true → kind.isElementText = false → span.lo < span.hi) := by
  constructor
  · exact fun h => ⟨fun value => h.written, h.filled⟩
  · exact fun h => clear_mk lo hi h.1 h.2 (by simp)

/-- A leaf in the place of a node. -/
theorem Clear.leaf_span {g : Gap} {n : Node} {kind : Kind} (h : n.Clear g)
    (htext : kind.isText = true → n.kind.isText = true ∧ n.kind.isElementText = false)
    (helement : kind.isElementText = false) (hblock : kind ≠ .block) : (Node.leaf kind n.span).Clear g :=
  .mk h.misses_lo h.endsOff (fun hkind => absurd hkind hblock)
    (fun hkind => (h.text (htext hkind).1).imp_right fun hlo => ⟨hlo.1, helement⟩)
    (writes_of_isElementText helement) (fun hkind _ => h.filled (htext hkind).1 (htext hkind).2) (by simp)

end Node

namespace Cursor

variable {g : Gap} {c : Cursor} {p : Place}

/-- What is left to read is behind a gap; the current token may have been put there by a reader of a
template. -/
structure Ahead (g : Gap) (c : Cursor) : Prop where
  lo : g.next ≤ c.token.span.lo
  hi : g.Stops c.token.span.hi
  after : g.Admits c.after
  previousEnd : g.Stops c.previousEnd

/-- A reader is behind a gap, and its current token stands in the text. -/
structure Behind (g : Gap) (c : Cursor) : Prop extends Ahead g c where
  start : g.Admits ⟨c.start, c.token.span.lo⟩
  reaches : Place.Reaches ⟨c.start, c.token.span.lo⟩ c.after
  stop : c.token.span.hi = c.after.offset
  ordered : c.previousEnd ≤ c.token.span.lo
  kind : c.token.kind = (tokenAt ⟨c.start, c.token.span.lo⟩).1
  next : c.after = (tokenAt ⟨c.start, c.token.span.lo⟩).2

theorem Behind.le_lo (h : c.Behind g) : g.next ≤ c.token.span.lo :=
  h.lo

theorem Behind.stops_lo (h : c.Behind g) : g.Stops c.token.span.lo :=
  g.stops h.start

/-- A mark is read where it stands. -/
theorem Behind.head_start (h : c.Behind g) {m : Mark} {sign : Char} (hkind : c.token.kind = .mark m)
    (hsign : m.sign? = some sign) : ∃ rest, c.start = sign :: rest :=
  head_of_tokenAt (h.kind.symm.trans hkind) hsign

/-- A string takes up some bytes. -/
theorem Behind.lt_of_string (h : c.Behind g) {value : Option String} (hkind : c.token.kind = .string value) :
    c.token.span.lo < c.token.span.hi := by
  rw [h.stop, h.next]
  exact lt_of_tokenAt (h.kind.symm.trans hkind)

theorem Ahead.le_after (h : c.Ahead g) : g.next ≤ c.after.offset :=
  g.next_le h.after

@[simp]
theorem Behind.endsOff_previousEnd (h : c.Behind g) : g.EndsOff c.previousEnd :=
  .inr h.previousEnd

theorem Behind.withFlags (h : c.Behind g) (flags : Flags) :
    Behind g { c with flags := flags } :=
  ⟨⟨h.lo, h.hi, h.after, h.previousEnd⟩, h.start, h.reaches, h.stop, h.ordered, h.kind, h.next⟩

/-- The current token is read at a place that the gap admits. -/
theorem behind_of_tokenAt (hp : g.Admits p) (hreturn : p.rest.head? ≠ some '\r') (hprevious : g.Stops c.previousEnd)
    (hordered : c.previousEnd ≤ p.offset)
    (hkind : c.token.kind = (tokenAt p).1) (hspan : c.token.span = ⟨p.offset, (tokenAt p).2.offset⟩)
    (hstart : c.start = p.rest) (hafter : c.after = (tokenAt p).2) : c.Behind g := by
  have hbehind := g.admits hp (enters_tokenAt hreturn)
  refine ⟨⟨?_, ?_, ?_, hprevious⟩, ?_, ?_, ?_, ?_, ?_, ?_⟩
  · rw [hspan]
    exact g.next_le hp
  · rw [hspan]
    exact g.stops hbehind
  · rw [hafter]
    exact hbehind
  · rw [hspan, hstart]
    exact hp
  · rw [hspan, hstart, hafter]
    exact (enters_tokenAt hreturn).reaches
  · rw [hspan, hafter]
  · rw [hspan]
    exact hordered
  · rw [hspan, hstart]
    exact hkind
  · rw [hspan, hstart]
    exact hafter

/-- What is left to read at a reader: it begins at the current token or later, and ends where the token in
front of that one does or later. -/
@[reducible]
def tailGap (next stop : Nat) (h : stop ≤ next) : Gap where
  Front _ := False
  next := next
  Admits p := next ≤ p.offset
  Stops x := stop ≤ x
  next_le hp := hp
  admits hp hq := Nat.le_trans hp hq.reaches.le
  stops hp := Nat.le_trans h hp

theorem Behind.behind_tail (h : c.Behind g) :
    c.Behind (tailGap c.token.span.lo c.previousEnd h.ordered) := by
  have hafter : c.token.span.lo ≤ c.after.offset := h.reaches.le
  refine ⟨⟨Nat.le_refl _, ?_, hafter, Nat.le_refl _⟩, Nat.le_refl _, h.reaches, h.stop, h.ordered, h.kind, h.next⟩
  change c.previousEnd ≤ c.token.span.hi
  rw [h.stop]
  exact Nat.le_trans h.ordered hafter

/-- A reader of which the current token is the next one at a place. -/
def movedTo (c : Cursor) (p : Place) : Cursor :=
  { c with
    token := (nextToken false p).token
    start := (nextToken false p).start
    after := (nextToken false p).after
    previousEnd := p.offset }

theorem behind_movedTo (h : g.Admits p) : (c.movedTo p).Behind g :=
  behind_of_tokenAt (g.admits h (enters_skipBlanks .outside false p.rest p.offset))
    (head_skipBlanks .outside false p.rest p.offset rfl) (g.stops h) (le_skipBlanks .outside false p.rest p.offset) rfl rfl rfl rfl

theorem Behind.admits_tagWord {name : ScannedName} (h : c.Behind g)
    (hscan : scanTagName ⟨c.start, c.token.span.lo⟩ = some name) : g.Admits name.after :=
  g.admits h.start (enters_scanTagName hscan)

theorem Behind.admits_attributeString {quote : Char} {rest text : List Char} (h : c.Behind g)
    (hstart : c.start = quote :: rest) (hquote : quote = '\x22' ∨ quote = '\x27')
    (hscan : scanAttributeString quote [] c.start.tail (c.token.span.lo + 1) = some (text, p)) :
    g.Admits p := by
  have hplace := h.start
  rw [hstart] at hplace hscan
  have hmark : quote.utf8Size = 1 ∧ quote ≠ '\r' := by rcases hquote with rfl | rfl <;> decide
  exact g.admits hplace (.cons hmark.1 (.inl hmark.2) (enters_scanAttributeString hquote hscan))

theorem Behind.admits_regularExpression (h : c.Behind g) (hkind : c.token.kind = .mark .slash)
    (hscan : scanRegularExpression false false c.start.tail (c.token.span.lo + 1) = some p) :
    g.Admits p := by
  obtain ⟨rest, hstart⟩ := h.head_start hkind rfl
  have hplace := h.start
  rw [hstart] at hplace hscan
  exact g.admits hplace
    (.cons (rfl : '/'.utf8Size = 1) (.inl (by decide)) (enters_scanRegularExpression hscan))

theorem not_return_of_longOperator {cs : List Char} {op : Parser.Operator} {n : Nat}
    (h : Parser.longOperator cs = some (op, n)) : ∀ c ∈ cs.take n, c ≠ '\r' := by
  unfold Parser.longOperator at h
  split at h
  all_goals first | contradiction | (cases h; simp)

theorem admits_of_operator? {op : Parser.Operator} (hop : Parser.operator? c = some (op, p))
    (h : c.Behind g) : g.Admits p := by
  have hlong (hop : (Parser.longOperator c.start).map (fun found =>
      (found.1, Place.advance ⟨c.start, c.token.span.lo⟩ found.2)) = some (op, p)) : g.Admits p := by
    obtain ⟨⟨found, length⟩, hoperator, hfound⟩ := Option.map_eq_some_iff.mp hop
    obtain ⟨-, rfl⟩ := Prod.mk.inj hfound
    exact g.admits h.start (Place.enters_advance _ (not_return_of_longOperator hoperator))
  have hafter {op op' : Parser.Operator} (hop : some (op', c.after) = some (op, p)) : g.Admits p := by
    obtain ⟨-, rfl⟩ := Prod.mk.inj (Option.some.inj hop)
    exact h.after
  unfold Parser.operator? at hop
  split at hop
  · exact hlong hop
  · exact hlong hop
  · exact hlong hop
  · obtain ⟨found, -, hfound⟩ := Option.map_eq_some_iff.mp hop
    exact hafter (congrArg some hfound)
  · exact hafter hop
  · split at hop
    · contradiction
    · exact hafter hop
  · split at hop
    · contradiction
    · exact hafter hop
  · split at hop
    · contradiction
    · exact hafter hop
  · contradiction

end Cursor

end Localization.Source
