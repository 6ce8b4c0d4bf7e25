import Localization.Proofs.Json.Written
import Mathlib.Data.List.Forall2

/-!
Between the brackets of a written array or object: where a reader of the items gives some results, a reader of
the array gives the list of them, and where a reader of members goes from one state to another, a reader of the
object does. Main statements: `exists_reads_items` and `exists_reads_members`.
-/

namespace Localization.Json.Reader

variable {α : Type}

/-! ## Line ends, commas and brackets -/

theorem isBlank_newline (level : Nat) : ∀ b ∈ newline level, IsBlank b := by
  intro b hb
  rcases List.mem_cons.mp hb with rfl | hspace
  · decide
  · rw [List.eq_of_mem_replicate hspace]
    decide

/-- Behind a value the line ends, or a comma follows. -/
theorem stops_newline (level : Nat) (rest : List Char) : Stops (newline level ++ rest) := by
  rintro c ⟨⟩
  exact .inr rfl

theorem stops_comma (rest : List Char) : Stops (',' :: rest) := by
  rintro c ⟨⟩
  exact .inl rfl

theorem stops_renderItems (level inside : Nat) (items : List Json) (rest : List Char) :
    Stops (renderItems inside items ++ (newline level ++ rest)) := by
  cases items with
  | nil => exact stops_newline level rest
  | cons item items =>
      rw [renderItems]
      exact stops_comma _

theorem stops_renderMembers (level inside : Nat) (members : List (String × Json))
    (rest : List Char) : Stops (renderMembers inside members ++ (newline level ++ rest)) := by
  cases members with
  | nil => exact stops_newline level rest
  | cons m members =>
      rw [renderMembers]
      exact stops_comma _

theorem length_le_renderItems (level : Nat) (items : List Json) :
    items.length ≤ (renderItems level items).length := by
  induction items with
  | nil => exact Nat.le_refl 0
  | cons item items ih =>
      simp only [renderItems, List.length_append, List.length_cons]
      omega

theorem length_le_renderMembers (level : Nat) (members : List (String × Json)) :
    members.length ≤ (renderMembers level members).length := by
  induction members with
  | nil => exact Nat.le_refl 0
  | cons m members ih =>
      simp only [renderMembers, List.length_append, List.length_cons]
      omega

theorem reads_hasItem_end (isFirst : Bool) {blanks : List Char} (hblanks : ∀ b ∈ blanks, IsBlank b)
    (rest : List Char) : Reads (hasItem isFirst) (blanks ++ ']' :: rest) false (']' :: rest) :=
  (reads_skipBlanks hblanks (by simp; decide)).bind (reads_pure false _)

/-- The written form of a value begins with a character that begins values only. -/
def BeginsValue (text : List Char) : Prop :=
  ∃ c rest, text = c :: rest ∧ ¬ IsBlank c ∧ c ≠ ']'

theorem reads_hasItem_first {level : Nat} {text : List Char} (h : BeginsValue text) :
    Reads (hasItem true) (newline level ++ text) true text := by
  obtain ⟨c, rest, rfl, hblank, hclose⟩ := h
  refine (reads_skipBlanks (isBlank_newline level) (by simpa using hblank)).bind ?_
  simp only [List.head?_cons, hclose, if_false, if_true]
  exact reads_pure true _

theorem reads_hasItem_next {level : Nat} {text : List Char} (h : BeginsValue text) :
    Reads (hasItem false) (',' :: (newline level ++ text)) true text := by
  obtain ⟨c, rest, rfl, hblank, hclose⟩ := h
  refine (reads_skipBlanks_cons (by decide) _).bind ((reads_bump _ _).bind ?_)
  refine (reads_skipBlanks (isBlank_newline level) (by simpa using hblank)).bind ?_
  rw [List.head?_cons]
  split
  · next heq => exact absurd (Option.some.inj heq) hclose
  · exact reads_pure true _
  · contradiction

/-! ## Items -/

/-- A reader gives `a` on the written form of a value, whatever ends it. -/
def ReadsAs (inside : Reader α) (level : Nat) (j : Json) (a : α) : Prop :=
  BeginsValue (j.renderAt level) ∧ ∀ blanks rest, (∀ b ∈ blanks, IsBlank b) → Stops rest →
    Reads inside (blanks ++ (j.renderAt level ++ rest)) a rest

theorem BeginsValue.append {text : List Char} (h : BeginsValue text) (rest : List Char) :
    BeginsValue (text ++ rest) := by
  obtain ⟨c, more, rfl, hc⟩ := h
  exact ⟨c, more ++ rest, rfl, hc⟩

theorem reads_moreItems {inside : Reader α} (level : Nat) {outer : Nat} {list : List Json}
    {read : List α}
    (h : List.Forall₂ (ReadsAs inside level) list read) (rest : List Char) {fuel : Nat}
    (hfuel : list.length < fuel) :
    Reads (items.loop inside false fuel)
      (renderItems level list ++ (newline outer ++ ']' :: rest)) read (']' :: rest) := by
  induction h generalizing fuel with
  | nil =>
      obtain ⟨fuel, rfl⟩ := Nat.exists_eq_add_one.mpr hfuel
      exact (reads_hasItem_end false (isBlank_newline outer) rest).bind (reads_pure [] _)
  | @cons j a list read hja _ ih =>
      obtain ⟨fuel, rfl⟩ := Nat.exists_eq_add_one.mpr (Nat.zero_lt_of_lt hfuel)
      obtain ⟨hbegins, hj⟩ := hja
      have hlist : Reads (items.loop inside false fuel) _ read (']' :: rest) :=
        ih (Nat.lt_of_succ_lt_succ hfuel)
      have htext : renderItems level (j :: list) ++ (newline outer ++ ']' :: rest) =
          ',' :: (newline level ++ (j.renderAt level ++
            (renderItems level list ++ (newline outer ++ ']' :: rest)))) := by
        simp [renderItems]
      rw [htext]
      refine (reads_hasItem_next (hbegins.append _)).bind ?_
      rw [if_pos rfl]
      refine (hj [] _ (by simp) (stops_renderItems outer level list _)).bind ?_
      exact hlist.bind (reads_pure (a :: read) _)

theorem reads_items_of_loop {item : Reader α} {text left : List Char} {list : List α}
    (h : ∀ fuel, text.length ≤ fuel → Reads (items.loop item true (fuel + 1)) text list left) :
    Reads (items item) text list left :=
  fun line column => h text.length (Nat.le_refl _) line column

theorem beginsValue_array (level : Nat) (list : List Json) : BeginsValue ((array list).renderAt level) := by
  cases list with
  | nil => exact ⟨'[', _, rfl, by decide, by decide⟩
  | cons item list => exact ⟨'[', _, rfl, by decide, by decide⟩

theorem exists_reads_items {inside : Reader α} {level : Nat} {list : List Json} {read : List α}
    (h : List.Forall₂ (ReadsAs inside (level + 1)) list read) (rest : List Char) :
    ∃ text, (array list).renderAt level ++ rest = '[' :: text ∧
      Reads (items inside) text read (']' :: rest) := by
  cases h with
  | nil =>
      refine ⟨_, rfl, reads_items_of_loop fun fuel _ => ?_⟩
      have hnone : ∀ b ∈ ([] : List Char), IsBlank b := by simp
      exact (reads_hasItem_end true hnone rest).bind (reads_pure [] _)
  | @cons j a list read hja hrest =>
      obtain ⟨hbegins, hj⟩ := hja
      have htext : (array (j :: list)).renderAt level ++ rest =
          '[' :: (newline (level + 1) ++ (j.renderAt (level + 1) ++
            (renderItems (level + 1) list ++ (newline level ++ ']' :: rest)))) := by
        simp [renderAt]
      refine ⟨_, htext, reads_items_of_loop fun fuel hfuel => ?_⟩
      have hlist : list.length < fuel := by
        have hlength := length_le_renderItems (level + 1) list
        simp only [newline, List.length_append, List.length_cons] at hfuel
        omega
      refine (reads_hasItem_first (hbegins.append _)).bind ?_
      rw [if_pos rfl]
      refine (hj [] _ (by simp) (stops_renderItems level (level + 1) list _)).bind ?_
      exact (reads_moreItems (level + 1) hrest rest hlist).bind (reads_pure (a :: read) _)

theorem reads_endArray (rest : List Char) : Reads endArray (']' :: rest) () rest :=
  (reads_skipBlanks_cons (by decide) _).bind (reads_bump _ rest)

/-! ## Members -/

theorem reads_hasMember_end (isFirst : Bool) {blanks : List Char}
    (hblanks : ∀ b ∈ blanks, IsBlank b) (rest : List Char) :
    Reads (hasMember isFirst) (blanks ++ '\x7d' :: rest) false ('\x7d' :: rest) :=
  (reads_skipBlanks hblanks (by simp; decide)).bind (reads_pure false _)

theorem reads_hasMember_first (level : Nat) (rest : List Char) :
    Reads (hasMember true) (newline level ++ '\x22' :: rest) true ('\x22' :: rest) :=
  (reads_skipBlanks (isBlank_newline level) (by simp; decide)).bind (reads_pure true _)

theorem reads_hasMember_next (level : Nat) (rest : List Char) :
    Reads (hasMember false) (',' :: (newline level ++ '\x22' :: rest)) true ('\x22' :: rest) := by
  refine (reads_skipBlanks_cons (by decide) _).bind ((reads_bump _ _).bind ?_)
  exact (reads_skipBlanks (isBlank_newline level) (by simp; decide)).bind (reads_pure true _)

theorem reads_key (name : String) (rest : List Char) :
    Reads key ('\x22' :: (Text.Quoted.encodeChars name.toList ++ '\x22' :: rest)) name rest :=
  (reads_bump _ _).bind (reads_string name rest)

theorem reads_colon (rest : List Char) : Reads colon (':' :: rest) () rest :=
  (reads_skipBlanks_cons (by decide) _).bind (reads_bump _ rest)

theorem reads_members_of_loop {start : α} {member : String → α → Reader α}
    {text left : List Char} {a : α}
    (h : ∀ fuel, text.length ≤ fuel → Reads (members.loop member true start (fuel + 1)) text a left) :
    Reads (members start member) text a left :=
  fun line column => h text.length (Nat.le_refl _) line column

/-- A reader of what stands behind a name goes from one state to another on the written form of some
members. -/
inductive ReadsMembers (member : String → α → Reader α) (level : Nat) :
    List (String × Json) → α → α → Prop
  | nil (a : α) : ReadsMembers member level [] a a
  | cons {name : String} {j : Json} {list : List (String × Json)} {a b c : α}
      (hfirst : ∀ rest, Stops rest →
        Reads (member name a) (':' :: ' ' :: (j.renderAt level ++ rest)) b rest)
      (hrest : ReadsMembers member level list b c) : ReadsMembers member level ((name, j) :: list) a c

variable {member : String → α → Reader α} {level : Nat} {list : List (String × Json)} {a b : α}

theorem reads_moreMembers {outer : Nat} (h : ReadsMembers member level list a b) (rest : List Char)
    {fuel : Nat} (hfuel : list.length < fuel) :
    Reads (members.loop member false a fuel)
      (renderMembers level list ++ (newline outer ++ '\x7d' :: rest)) b ('\x7d' :: rest) := by
  induction h generalizing fuel with
  | nil a =>
      obtain ⟨fuel, rfl⟩ := Nat.exists_eq_add_one.mpr hfuel
      exact (reads_hasMember_end false (isBlank_newline outer) rest).bind (reads_pure a _)
  | @cons name j list a b c hfirst _ ih =>
      obtain ⟨fuel, rfl⟩ := Nat.exists_eq_add_one.mpr (Nat.zero_lt_of_lt hfuel)
      have htext : renderMembers level ((name, j) :: list) ++ (newline outer ++ '\x7d' :: rest) =
          ',' :: (newline level ++ '\x22' :: (Text.Quoted.encodeChars name.toList ++ '\x22' ::
            (':' :: ' ' :: (j.renderAt level ++
              (renderMembers level list ++ (newline outer ++ '\x7d' :: rest)))))) := by
        simp [renderMembers, ← Text.Quoted.toList_encode]
      rw [htext]
      refine (reads_hasMember_next level _).bind ?_
      rw [if_pos rfl]
      refine (reads_key name _).bind ?_
      refine (hfirst _ (stops_renderMembers outer level list _)).bind ?_
      exact ih (Nat.lt_of_succ_lt_succ hfuel)

theorem beginsValue_object (level : Nat) (list : List (String × Json)) :
    BeginsValue ((object list).renderAt level) := by
  cases list with
  | nil => exact ⟨'\x7b', _, rfl, by decide, by decide⟩
  | cons m list => exact ⟨'\x7b', _, rfl, by decide, by decide⟩

theorem exists_reads_members (h : ReadsMembers member (level + 1) list a b) (rest : List Char) :
    ∃ text, (object list).renderAt level ++ rest = '\x7b' :: text ∧
      Reads (members a member) text b ('\x7d' :: rest) := by
  cases h with
  | nil a =>
      refine ⟨_, rfl, reads_members_of_loop fun fuel _ => ?_⟩
      have hnone : ∀ b ∈ ([] : List Char), IsBlank b := by simp
      exact (reads_hasMember_end true hnone rest).bind (reads_pure _ _)
  | @cons name j list a b c hfirst hrest =>
      have htext : (object ((name, j) :: list)).renderAt level ++ rest =
          '\x7b' :: (newline (level + 1) ++ '\x22' :: (Text.Quoted.encodeChars name.toList ++
            '\x22' :: (':' :: ' ' :: (j.renderAt (level + 1) ++
              (renderMembers (level + 1) list ++ (newline level ++ '\x7d' :: rest)))))) := by
        simp [renderAt, ← Text.Quoted.toList_encode]
      refine ⟨_, htext, reads_members_of_loop fun fuel hfuel => ?_⟩
      have hlist : list.length < fuel := by
        have hlength := length_le_renderMembers (level + 1) list
        simp only [newline, List.length_append, List.length_cons] at hfuel
        omega
      refine (reads_hasMember_first (level + 1) _).bind ?_
      rw [if_pos rfl]
      refine (reads_key name _).bind ?_
      refine (hfirst _ (stops_renderMembers level (level + 1) list _)).bind ?_
      exact reads_moreMembers hrest rest hlist

theorem reads_endObject (rest : List Char) : Reads endObject ('\x7d' :: rest) () rest :=
  (reads_skipBlanks_cons (by decide) _).bind (reads_bump _ rest)

/-! ## Whole texts -/

/-- A value with blanks behind it, up to which it can be told where it ends. -/
theorem run_eq_ok {r : Reader α} {j : Json} (h : ReadsAs r 0 j a) {behind : List Char}
    (hblank : ∀ b ∈ behind, IsBlank b) (hstops : Stops behind) :
    run r (j.renderAt 0 ++ behind) = .ok a := by
  have hread : Reads r (j.renderAt 0 ++ behind) a behind := h.2 [] behind (by simp) hstops
  have hend : Reads endOfText behind () [] := by
    have hall : Reads skipBlanks (behind ++ []) none [] := reads_skipBlanks hblank (by simp)
    rw [List.append_nil] at hall
    exact hall.bind (reads_pure () [])
  let whole : Reader α := do
    let a ← r
    endOfText
    return a
  have hwhole : Reads whole (j.renderAt 0 ++ behind) a [] := hread.bind (hend.bind (reads_pure a []))
  obtain ⟨line, column, h⟩ := hwhole 1 0
  change (whole ⟨j.renderAt 0 ++ behind, 1, 0⟩ >>= fun p => Except.ok p.1) = _
  rw [h]
  rfl

end Localization.Json.Reader
