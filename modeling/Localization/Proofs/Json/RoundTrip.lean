import Localization.Proofs.Json.Brackets
import Localization.Proofs.Json.Range
import Localization.Proofs.Json.WrittenFloat
import Localization.Proofs.Results

/-!
Reading what was written. A value in range is read from its written form as it was, but for its floats.
Without floats the written form of what was read from a text is a fixed point of reading and writing.
-/

namespace Localization

def JsonNumber.isFloat : JsonNumber → Bool
  | .float _ _ => true
  | _ => false

namespace Json

mutual

/-- Whether there is a float in a value. -/
def hasFloat : Json → Bool
  | number n => n.isFloat
  | array items => itemsHaveFloat items
  | object members => membersHaveFloat members
  | _ => false

def itemsHaveFloat : List Json → Bool
  | [] => false
  | item :: rest => item.hasFloat || itemsHaveFloat rest

def membersHaveFloat : List (String × Json) → Bool
  | [] => false
  | (_, value) :: rest => value.hasFloat || membersHaveFloat rest

end

theorem membersHaveFloat_eq_any (members : List (String × Json)) :
    membersHaveFloat members = members.any fun m => m.2.hasFloat := by
  induction members with
  | nil => rfl
  | cons m rest ih => rw [membersHaveFloat, List.any_cons, ih]

namespace Reader

/-! ## Values without brackets -/

/-- Blanks in front of a value do not matter. -/
theorem reads_valueAround_blanks {inner : Option (Reader Json)} {blanks text left : List Char}
    {c : Char} {j : Json} (h : Reads (valueAround inner) (c :: text) j left)
    (hblanks : ∀ b ∈ blanks, IsBlank b) (hc : ¬ IsBlank c) :
    Reads (valueAround inner) (blanks ++ c :: text) j left := by
  have hhead : ∀ line column, skipBlanks ⟨c :: text, line, column⟩ =
      .ok (some c, ⟨c :: text, line, column⟩) := by
    intro line column
    change Except.ok ((behindBlanks (c :: text) ⟨c :: text, line, column⟩).rest.head?,
      behindBlanks (c :: text) ⟨c :: text, line, column⟩) = _
    rw [behindBlanks_cons hc]
    rfl
  unfold valueAround at h ⊢
  refine (reads_skipBlanks hblanks (by simpa using hc)).bind ?_
  intro line column
  obtain ⟨line', column', hread⟩ := h line column
  refine ⟨line', column', ?_⟩
  change (skipBlanks ⟨c :: text, line, column⟩ >>= fun p => _) = _ at hread
  rw [hhead] at hread
  exact hread

section

variable (inner : Option (Reader Json)) (rest : List Char)

theorem reads_null : Reads (valueAround inner) (['n', 'u', 'l', 'l'] ++ rest) .null rest :=
  (reads_skipBlanks_cons (by decide) _).bind ((reads_bump _ _).bind
    ((reads_word ['u', 'l', 'l'] rest).bind (reads_pure _ rest)))

theorem reads_true : Reads (valueAround inner) (['t', 'r', 'u', 'e'] ++ rest) (.bool true) rest :=
  (reads_skipBlanks_cons (by decide) _).bind ((reads_bump _ _).bind
    ((reads_word ['r', 'u', 'e'] rest).bind (reads_pure _ rest)))

theorem reads_false :
    Reads (valueAround inner) (['f', 'a', 'l', 's', 'e'] ++ rest) (.bool false) rest :=
  (reads_skipBlanks_cons (by decide) _).bind ((reads_bump _ _).bind
    ((reads_word ['a', 'l', 's', 'e'] rest).bind (reads_pure _ rest)))

theorem reads_quoted (s : String) :
    Reads (valueAround inner) ((Text.Quoted.encode s).toList ++ rest) (.string s) rest := by
  rw [Text.Quoted.toList_encode]
  exact (reads_skipBlanks_cons (by decide) _).bind ((reads_bump _ _).bind
    ((reads_string s rest).bind (reads_pure _ rest)))

variable {rest}

theorem ne_of_isDigit {c d : Char} (hc : isDigit c = true) (hd : isDigit d = false) : c ≠ d := by
  rintro rfl
  rw [hc] at hd
  contradiction

theorem not_isBlank_of_isDigit {c : Char} (hc : isDigit c = true) : ¬ IsBlank c := by
  rintro (h | h | h | h)
  all_goals exact ne_of_isDigit hc rfl h

theorem exists_digit_of_reads_number {isNegative : Bool} {text left : List Char} {x : JsonNumber}
    (h : Reads (number isNegative) text x left) : ∃ c more, text = c :: more ∧ isDigit c = true := by
  obtain ⟨line, column, hread⟩ := h 0 0
  cases text with
  | nil => cases hread
  | cons c more =>
      refine ⟨c, more, rfl, ?_⟩
      by_contra hc
      change (ite _ _ _ : Reader JsonNumber) ⟨c :: more, 0, 0⟩ = _ at hread
      rw [Bool.eq_false_of_not_eq_true hc] at hread
      -- the branch taken refuses the character, whatever would be read behind it
      obtain ⟨u, between, hrefused, -⟩ := bind_eq_ok.mp hread
      exact not_refuseNext .invalidNumber hrefused

/-- A number is read as a value, with its sign in front if it has one. -/
theorem reads_number_value {isNegative : Bool} {text : List Char} {x : JsonNumber}
    (h : Reads (number isNegative) text x rest) :
    Reads (valueAround inner) (if isNegative then '-' :: text else text) (.number x) rest := by
  cases isNegative with
  | true =>
      exact (reads_skipBlanks_cons (by decide) _).bind ((reads_bump _ _).bind
        (h.bind (reads_pure _ rest)))
  | false =>
      obtain ⟨c, more, rfl, hc⟩ := exists_digit_of_reads_number h
      have hne : ∀ d, isDigit d = false → c ≠ d := fun d => ne_of_isDigit hc
      refine (reads_skipBlanks_cons (not_isBlank_of_isDigit hc) _).bind ?_
      simp only [hne 'n' rfl, hne 't' rfl, hne 'f' rfl, hne '-' rfl, if_false, hc, if_true]
      exact h.bind (reads_pure _ rest)

end

/-! ## Arrays and objects -/

theorem reads_array {inside : Reader Json} {text rest : List Char} {list : List Json}
    (h : Reads (items inside) text list (']' :: rest)) :
    Reads (valueAround (some inside)) ('[' :: text) (.array list) rest := by
  refine (reads_skipBlanks_cons (by decide) _).bind ((reads_bump _ _).bind (h.bind ?_))
  exact (reads_endArray rest).bind (reads_pure _ rest)

/-- The reader of the part of a member behind its name. -/
def member (inside : Reader Json) (name : String) (m : OrderedMap Json) : Reader (OrderedMap Json) := do
  colon
  let v ← inside
  return m.insert name v

theorem reads_object {inside : Reader Json} {text rest : List Char} {m : OrderedMap Json}
    (h : Reads (members OrderedMap.empty (member inside)) text m ('\x7d' :: rest)) :
    Reads (valueAround (some inside)) ('\x7b' :: text) (.object m.entries) rest := by
  refine (reads_skipBlanks_cons (by decide) _).bind ((reads_bump _ _).bind (h.bind ?_))
  exact (reads_endObject rest).bind (reads_pure _ rest)

theorem reads_renderAt_array {inside : Reader Json} {level : Nat} {list read : List Json}
    (h : List.Forall₂ (ReadsAs inside (level + 1)) list read) (rest : List Char) :
    Reads (valueAround (some inside)) ((array list).renderAt level ++ rest) (.array read) rest := by
  obtain ⟨text, htext, hitems⟩ := exists_reads_items h rest
  rw [htext]
  exact reads_array hitems

/-- A reader gives the same name and `k` on the written form of a member. -/
def ReadsMemberAs (inside : Reader Json) (level : Nat) (m k : String × Json) : Prop :=
  k.1 = m.1 ∧ ReadsAs inside level m.2 k.2

theorem reads_member {inside : Reader Json} {level : Nat} {j k : Json} (h : ReadsAs inside level j k)
    (name : String) (m : OrderedMap Json) {rest : List Char} (hrest : Stops rest) :
    Reads (member inside name m) (':' :: ' ' :: (j.renderAt level ++ rest)) (m.insert name k) rest :=
  (reads_colon _).bind ((h.2 [' '] rest (by simp; decide) hrest).bind (reads_pure _ rest))

/-- The members behind others are appended to those, as long as all names are different. -/
theorem readsMembers_append {inside : Reader Json} {level : Nat} {list read : List (String × Json)}
    (h : List.Forall₂ (ReadsMemberAs inside level) list read) {m : OrderedMap Json}
    (hnames : ((m.entries ++ read).map Prod.fst).Nodup) :
    ReadsMembers (member inside) level list m ⟨m.entries ++ read⟩ := by
  induction h generalizing m with
  | nil =>
      rw [List.append_nil]
      exact .nil m
  | @cons e k list read hek _ ih =>
      obtain ⟨name, j⟩ := e
      obtain ⟨name', k⟩ := k
      obtain ⟨rfl, hj⟩ := hek
      have hnew : (m.insert name' k).entries = m.entries ++ [(name', k)] := by
        apply OrderedMap.insertEntry_of_notMem
        intro hname
        rw [List.map_append, List.map_cons] at hnames
        exact List.disjoint_of_nodup_append hnames hname List.mem_cons_self
      have hall : m.entries ++ (name', k) :: read = (m.insert name' k).entries ++ read := by
        rw [hnew, List.append_assoc]
        rfl
      rw [hall] at hnames ⊢
      exact .cons (fun rest hrest => reads_member hj name' m hrest) (ih hnames)

theorem reads_renderAt_object {inside : Reader Json} {level : Nat} {list read : List (String × Json)}
    (h : List.Forall₂ (ReadsMemberAs inside (level + 1)) list read)
    (hnames : (read.map Prod.fst).Nodup) (rest : List Char) :
    Reads (valueAround (some inside)) ((object list).renderAt level ++ rest) (.object read) rest := by
  have hmembers : ReadsMembers (member inside) (level + 1) list OrderedMap.empty ⟨read⟩ :=
    readsMembers_append h hnames
  obtain ⟨text, htext, hread⟩ := exists_reads_members hmembers rest
  rw [htext]
  exact reads_object hread

/-! ## All values -/

theorem readsAs_of_begins {inner : Option (Reader Json)} {level : Nat} {j k : Json}
    (hbegins : BeginsValue (j.renderAt level))
    (h : ∀ rest, Stops rest → Reads (valueAround inner) (j.renderAt level ++ rest) k rest) :
    ReadsAs (valueAround inner) level j k := by
  refine ⟨hbegins, ?_⟩
  obtain ⟨c, text, htext, hblank, -⟩ := hbegins
  intro blanks rest hblanks hrest
  have hread := h rest hrest
  rw [htext] at hread ⊢
  exact reads_valueAround_blanks hread hblanks hblank

/-- What is read from the written form of `j`: the same, but for the floats in it. -/
structure Resembles (j k : Json) : Prop where
  same : j.hasFloat = false → k = j
  text : ∀ s, k = .string s → j = .string s

theorem Resembles.refl (j : Json) : Resembles j j :=
  ⟨fun _ => rfl, fun _ => id⟩

def ResemblesMember (m k : String × Json) : Prop :=
  k.1 = m.1 ∧ Resembles m.2 k.2

theorem eq_of_resembles {list read : List Json} (h : List.Forall₂ Resembles list read)
    (hfloat : itemsHaveFloat list = false) : read = list := by
  induction h with
  | nil => rfl
  | cons hjk _ ih =>
      rw [itemsHaveFloat, Bool.or_eq_false_iff] at hfloat
      rw [hjk.same hfloat.1, ih hfloat.2]

theorem eq_of_resemblesMember {list read : List (String × Json)}
    (h : List.Forall₂ ResemblesMember list read) (hfloat : membersHaveFloat list = false) :
    read = list := by
  induction h with
  | nil => rfl
  | @cons m k list read hmk _ ih =>
      rw [membersHaveFloat, Bool.or_eq_false_iff] at hfloat
      obtain ⟨hname, hjk⟩ := hmk
      rw [ih hfloat.2, Prod.ext hname (hjk.same hfloat.1)]

theorem map_fst_of_resemblesMember {list read : List (String × Json)}
    (h : List.Forall₂ ResemblesMember list read) : read.map Prod.fst = list.map Prod.fst := by
  induction h with
  | nil => rfl
  | cons hmk _ ih => rw [List.map_cons, List.map_cons, hmk.1, ih]

theorem readsAs_number (inner : Option (Reader Json)) (isNegative : Bool) {n x : JsonNumber}
    {text : List Char} (level : Nat)
    (htext : n.render.toList = if isNegative then '-' :: text else text)
    (h : ∀ rest, Stops rest → Reads (number isNegative) (text ++ rest) x rest) :
    ReadsAs (valueAround inner) level (.number n) (.number x) := by
  have hfull : ∀ rest, (Json.number n).renderAt level ++ rest =
      if isNegative then '-' :: (text ++ rest) else text ++ rest := by
    intro rest
    rw [renderAt, htext]
    split
    · rfl
    · rfl
  refine readsAs_of_begins ?_ fun rest hrest => ?_
  · rw [renderAt, htext]
    cases isNegative with
    | true => exact ⟨'-', text, rfl, by decide, by decide⟩
    | false =>
        obtain ⟨c, more, hcons, hc⟩ := exists_digit_of_reads_number (h [] (by simp [Stops]))
        rw [List.append_nil] at hcons
        exact ⟨c, more, hcons, not_isBlank_of_isDigit hc, ne_of_isDigit hc rfl⟩
  · rw [hfull]
    exact reads_number_value inner (h rest hrest)

theorem exists_readsAs_number (inner : Option (Reader Json)) {n : JsonNumber} (hrange : n.InRange)
    (level : Nat) : ∃ k, ReadsAs (valueAround inner) level (.number n) k ∧ Resembles (.number n) k := by
  cases n with
  | natural n =>
      refine ⟨_, readsAs_number inner false level ?_ fun rest hrest =>
        reads_number false hrange nofun hrest, .refl _⟩
      exact toList_toString n
  | negative n =>
      have hpow : Nat.pow 2 63 ≤ maxNatural := by decide
      refine ⟨_, readsAs_number inner true level ?_ fun rest hrest =>
        reads_number true (hrange.2.trans hpow) (fun _ => hrange) hrest, .refl _⟩
      rw [JsonNumber.render, String.toList_append, toList_toString]
      rfl
  | float isNegative x =>
      obtain ⟨y, hy⟩ := exists_reads_text isNegative hrange
      refine ⟨_, readsAs_number inner isNegative level ?_ hy, nofun, nofun⟩
      cases isNegative with
      | true => rw [JsonNumber.render, String.toList_append]; rfl
      | false => rw [JsonNumber.render, String.toList_append]; rfl

/-- Values without brackets are read at any depth. -/
theorem exists_readsAs_plain (inner : Option (Reader Json)) {j : Json} (hrange : j.InRange 0)
    (level : Nat) : ∃ k, ReadsAs (valueAround inner) level j k ∧ Resembles j k := by
  cases j with
  | null =>
      exact ⟨_, readsAs_of_begins ⟨'n', _, rfl, by decide, by decide⟩ fun rest _ => reads_null inner rest,
        .refl _⟩
  | bool b =>
      cases b with
      | false =>
          exact ⟨_, readsAs_of_begins ⟨'f', _, rfl, by decide, by decide⟩
            fun rest _ => reads_false inner rest, .refl _⟩
      | true =>
          exact ⟨_, readsAs_of_begins ⟨'t', _, rfl, by decide, by decide⟩
            fun rest _ => reads_true inner rest, .refl _⟩
  | number n => exact exists_readsAs_number inner hrange level
  | string s =>
      refine ⟨_, readsAs_of_begins ?_ fun rest _ => reads_quoted inner rest s, .refl _⟩
      rw [renderAt, ← List.append_nil (String.toList _), Text.Quoted.toList_encode]
      exact ⟨'\x22', _, rfl, by decide, by decide⟩
  | array items => contradiction
  | object members => contradiction

theorem exists_readsAs_object {inside : Reader Json} (level : Nat) {members : List (String × Json)}
    (h : ∀ m ∈ members, ∃ k, ReadsAs inside (level + 1) m.2 k ∧ Resembles m.2 k)
    (hnames : (members.map Prod.fst).Nodup) :
    ∃ read, ReadsAs (valueAround (some inside)) level (.object members) (.object read) ∧
      List.Forall₂ ResemblesMember members read := by
  obtain ⟨read, hread⟩ := exists_forall₂ (P := fun m k : String × Json =>
      ReadsMemberAs inside (level + 1) m k ∧ ResemblesMember m k) fun m hm => by
    obtain ⟨k, hk, hresembles⟩ := h m hm
    exact ⟨(m.1, k), ⟨rfl, hk⟩, rfl, hresembles⟩
  have hresembles := hread.imp fun _ _ => And.right
  refine ⟨read, readsAs_of_begins ?_ fun rest _ => ?_, hresembles⟩
  · exact beginsValue_object level members
  · refine reads_renderAt_object (hread.imp fun _ _ => And.left) ?_ rest
    rw [map_fst_of_resemblesMember hresembles]
    exact hnames

theorem exists_readsAs_value {depth : Nat} {j : Json} (hrange : j.InRange depth) (level : Nat) :
    ∃ k, ReadsAs (value depth) level j k ∧ Resembles j k := by
  induction depth generalizing j level with
  | zero => exact exists_readsAs_plain none hrange level
  | succ depth ih =>
      cases j with
      | array items =>
          obtain ⟨read, hread⟩ := exists_forall₂ (P := fun j k =>
              ReadsAs (value depth) (level + 1) j k ∧ Resembles j k) fun item hitem =>
            ih (hrange item hitem) (level + 1)
          refine ⟨.array read, readsAs_of_begins ?_ fun rest _ =>
            reads_renderAt_array (hread.imp fun _ _ => And.left) rest, fun hfloat => ?_, nofun⟩
          · exact beginsValue_array level items
          · rw [eq_of_resembles (hread.imp fun _ _ => And.right) hfloat]
      | object members =>
          obtain ⟨read, hread, hresembles⟩ := exists_readsAs_object level
            (fun m hm => ih (hrange.2 m hm) (level + 1)) hrange.1
          exact ⟨_, hread, fun hfloat => by rw [eq_of_resemblesMember hresembles hfloat], nofun⟩
      | null | bool b | number n | string s => exact exists_readsAs_plain _ (by exact hrange) level

end Reader

theorem parse?_of_readsAs {j k : Json} (h : Reader.ReadsAs (Reader.value Reader.depthLimit) 0 j k) :
    parse? (j.render ++ "\n").toList = .ok k := by
  have htext : (j.render ++ "\n").toList = j.renderAt 0 ++ ['\n'] := by
    rw [String.toList_append, render, String.toList_ofList]
    rfl
  rw [htext]
  exact Reader.run_eq_ok h (by simp; decide) (Reader.stops_newline 0 [])

/-- The written form of a value, with a line end behind it, is read as that value. -/
theorem parse?_render {j : Json} (hrange : j.InRange Reader.depthLimit) (hfloat : j.hasFloat = false) :
    parse? (j.render ++ "\n").toList = .ok j := by
  obtain ⟨k, hread, hresembles⟩ := Reader.exists_readsAs_value hrange 0
  rw [parse?_of_readsAs hread, hresembles.same hfloat]

/-- The written form of an object is read as an object with the same names, and with the same values but
for floats. -/
theorem exists_parse?_render_object {members : List (String × Json)}
    (hrange : (Json.object members).InRange Reader.depthLimit) :
    ∃ read, parse? ((Json.object members).render ++ "\n").toList = .ok (.object read) ∧
      List.Forall₂ Reader.ResemblesMember members read := by
  obtain ⟨read, hread, hresembles⟩ := Reader.exists_readsAs_object 0
    (fun m hm => Reader.exists_readsAs_value (hrange.2 m hm) 1) hrange.1
  exact ⟨read, parse?_of_readsAs hread, hresembles⟩

end Json

end Localization
