import Localization.Proofs.Json.Written

/-!
How a text that is an object begins: an opening brace, and behind it a closing one or the first name with
its colon, with blanks around them.
-/

namespace Localization.Json

/-- What a reader of a string is told by some of its characters: whether the last of them was a backslash
that waits for its letter. Quotes without a backslash and control characters do not stand in a string. -/
def stringState (escaped : Bool) : List Char → Option Bool
  | [] => some escaped
  | c :: rest =>
    if c.toNat < 0x20 then none
    else if escaped then stringState false rest
    else if c = '\x22' then none
    else stringState (c = '\\') rest

theorem stringState_append (escaped : Bool) (front back : List Char) :
    stringState escaped (front ++ back) =
      (stringState escaped front).bind fun escaped => stringState escaped back := by
  induction front generalizing escaped with
  | nil => rfl
  | cons c front ih =>
      simp only [List.cons_append, stringState]
      split
      · rfl
      · split
        · exact ih false
        · split
          · rfl
          · exact ih _

/-- Characters that neither end a string nor wait for another one. -/
def IsPlain (c : Char) : Prop :=
  0x20 ≤ c.toNat ∧ c ≠ '\x22' ∧ c ≠ '\\'

theorem stringState_of_plain {cs : List Char} (h : ∀ c ∈ cs, IsPlain c) :
    stringState false cs = some false := by
  induction cs with
  | nil => rfl
  | cons c cs ih =>
      obtain ⟨hcontrol, hquote, hbackslash⟩ := h c List.mem_cons_self
      rw [stringState, if_neg (by omega), if_neg Bool.false_ne_true, if_neg hquote,
        decide_eq_false hbackslash]
      exact ih fun d hd => h d (List.mem_cons_of_mem c hd)

namespace Reader

variable {α β : Type} {r : Reader α} {f : α → Reader β} {a : α} {b : β} {c after : Cursor}

theorem pure_eq_ok {a' : α} : (pure a : Reader α) c = .ok (a', after) ↔ a = a' ∧ c = after := by
  change (Except.ok (a, c) : Except Error (α × Cursor)) = _ ↔ _
  simp

theorem eq_of_reads {left : List Char} (h : Reads r c.rest a left) {a' : α}
    (hrun : r c = .ok (a', after)) : a' = a ∧ after.rest = left := by
  obtain ⟨line, column, hr⟩ := h c.line c.column
  cases hr.symm.trans hrun
  exact ⟨rfl, rfl⟩

/-! ## Blanks -/

theorem exists_blanks (text : List Char) (cursor : Cursor) (h : cursor.rest = text) :
    ∃ blanks, (∀ b ∈ blanks, IsBlank b) ∧ text = blanks ++ (behindBlanks text cursor).rest := by
  induction text generalizing cursor with
  | nil => exact ⟨[], by simp, h.symm⟩
  | cons c text ih =>
      by_cases hc : IsBlank c
      · obtain ⟨blanks, hblanks, heq⟩ := ih (passed c text cursor) (by unfold passed; split <;> rfl)
        have hbehind : behindBlanks (c :: text) cursor = behindBlanks text (passed c text cursor) := if_pos hc
        exact ⟨c :: blanks, by simpa using ⟨hc, hblanks⟩, by rw [hbehind, List.cons_append, ← heq]⟩
      · exact ⟨[], by simp, by rw [behindBlanks_cons hc, h, List.nil_append]⟩

theorem exists_of_skipBlanks {found : Option Char} (h : skipBlanks c = .ok (found, after)) :
    ∃ blanks, (∀ b ∈ blanks, IsBlank b) ∧ c.rest = blanks ++ after.rest ∧ found = after.rest.head? := by
  obtain ⟨blanks, hblanks, heq⟩ := exists_blanks c.rest c rfl
  cases h
  exact ⟨blanks, hblanks, heq, rfl⟩

/-! ## Strings -/

theorem isPlain_of_hexValue? {c : Char} {n : Nat} (h : hexValue? c = some n) : IsPlain c := by
  simp only [hexValue?, Text.Quoted.hexValue?] at h
  have hrange : 48 ≤ c.toNat ∧ c.toNat ≠ 92 := by
    split at h
    · next hdigit =>
        simp only [Bool.and_eq_true, decide_eq_true_eq] at hdigit
        omega
    · split at h
      · next hlower =>
          simp only [Bool.and_eq_true, decide_eq_true_eq] at hlower
          omega
      · split at h
        · next hupper =>
            simp only [Bool.and_eq_true, decide_eq_true_eq] at hupper
            omega
        · contradiction
  refine ⟨by omega, ?_, ?_⟩
  · rintro rfl
    exact absurd hrange.1 (by decide)
  · rintro rfl
    exact absurd hrange.2 (by decide)

/-- The reader passes characters of a string, from one state to another. -/
def Passes (r : Reader α) (start stop : Bool) : Prop :=
  ∀ c a after, r c = .ok (a, after) →
    ∃ read, c.rest = read ++ after.rest ∧ stringState start read = some stop

theorem Passes.bind {start middle stop : Bool} (h : Passes r start middle)
    (hf : ∀ a, Passes (f a) middle stop) : Passes (r >>= f) start stop := by
  intro c b after hrun
  obtain ⟨a, c₁, hr, hb⟩ := bind_eq_ok.mp hrun
  obtain ⟨read, hread, hstate⟩ := h c a c₁ hr
  obtain ⟨more, hmore, hstop⟩ := hf a c₁ b after hb
  refine ⟨read ++ more, by rw [hread, hmore, List.append_assoc], ?_⟩
  rw [stringState_append, hstate]
  exact hstop

theorem passes_pure (a : α) (state : Bool) : Passes (pure a) state state := by
  intro c b after hrun
  cases hrun
  exact ⟨[], rfl, rfl⟩

theorem passes_refuse (fault : Fault) (start stop : Bool) : Passes (refuse fault : Reader α) start stop :=
  fun _ _ _ hrun => nomatch hrun

theorem passes_refuse_bind (fault : Fault) (f : α → Reader β) (start stop : Bool) :
    Passes (refuse fault >>= f) start stop :=
  fun _ _ _ hrun => nomatch hrun

theorem passes_refuseNext (fault : Fault) (start stop : Bool) :
    Passes (refuseNext fault : Reader α) start stop :=
  fun _ _ _ hrun => absurd hrun (not_refuseNext fault)

/-- The reader passes characters of a string, the first of which is known. -/
def PassesAt (d : Char) (r : Reader α) (start stop : Bool) : Prop :=
  ∀ c a after, c.rest.head? = some d → r c = .ok (a, after) →
    ∃ read, c.rest = read ++ after.rest ∧ stringState start read = some stop

theorem Passes.at {start stop : Bool} (h : Passes r start stop) (d : Char) : PassesAt d r start stop :=
  fun c a after _ hrun => h c a after hrun

theorem passes_peek? {f : Option Char → Reader β} {start stop : Bool} (hnone : Passes (f none) start stop)
    (hsome : ∀ d, PassesAt d (f (some d)) start stop) : Passes (peek? >>= f) start stop := by
  intro c b after hrun
  obtain ⟨found, c₁, hpeek, hrun⟩ := bind_eq_ok.mp hrun
  cases hpeek
  cases hhead : c.rest.head? with
  | none => exact hnone c b after (hhead ▸ hrun)
  | some d => exact hsome d c b after hhead (hhead ▸ hrun)

theorem passesAt_bump {d : Char} {start stop : Bool} (hd : stringState start [d] = some stop) :
    PassesAt d bump start stop := by
  intro c u after hhead hrun
  obtain ⟨rest, hrest⟩ : ∃ rest, c.rest = d :: rest := ⟨_, (List.cons_head?_tail hhead).symm⟩
  have hbump := reads_bump d rest
  rw [← hrest] at hbump
  exact ⟨[d], by rw [(eq_of_reads hbump hrun).2, hrest, List.singleton_append], hd⟩

theorem PassesAt.bind {d : Char} {start middle stop : Bool} (h : PassesAt d r start middle)
    (hf : ∀ a, Passes (f a) middle stop) : PassesAt d (r >>= f) start stop := by
  intro c b after hhead hrun
  obtain ⟨a, c₁, hr, hb⟩ := bind_eq_ok.mp hrun
  obtain ⟨read, hread, hstate⟩ := h c a c₁ hhead hr
  obtain ⟨more, hmore, hstop⟩ := hf a c₁ b after hb
  refine ⟨read ++ more, by rw [hread, hmore, List.append_assoc], ?_⟩
  rw [stringState_append, hstate]
  exact hstop

theorem passes_fourDigits : Passes fourDigits false false := by
  intro c n after h
  obtain ⟨cursor, c₁, hget, h⟩ := bind_eq_ok.mp h
  cases hget
  have hsplit := (List.take_append_drop 4 c.rest).symm
  have hbumps := reads_bumps (c.rest.take 4) (c.rest.drop 4)
  rw [← hsplit] at hbumps
  by_cases hshort : Text.byteLength (c.rest.take 4) < 4
  · rw [if_pos hshort] at h
    obtain ⟨u, c₂, -, h⟩ := bind_eq_ok.mp h
    cases h
  · rw [if_neg hshort] at h
    generalize hvalues : (c.rest.take 4).map hexValue? = values at h
    split at h
    · next x y z w =>
        obtain ⟨u, c₂, hrun, h⟩ := bind_eq_ok.mp h
        cases h
        refine ⟨c.rest.take 4, by rw [(eq_of_reads hbumps hrun).2]; exact hsplit,
          stringState_of_plain fun d hd => ?_⟩
        have hvalue := List.mem_map_of_mem (f := hexValue?) hd
        rw [hvalues] at hvalue
        simp only [List.mem_cons, List.not_mem_nil, or_false] at hvalue
        rcases hvalue with hd | hd | hd | hd <;> exact isPlain_of_hexValue? hd
    · obtain ⟨u, c₂, -, h⟩ := bind_eq_ok.mp h
      cases h

theorem passes_expectPairPart {d : Char} {start stop : Bool} (hd : stringState start [d] = some stop) :
    Passes (expectPairPart d) start stop := by
  refine passes_peek? (passes_refuse _ _ _) fun e => ?_
  by_cases he : e = d
  · subst he
    simpa only [if_true] using passesAt_bump hd
  · simpa only [if_neg he] using (passes_refuseNext _ _ _).at e

theorem Passes.ite {p : Prop} [Decidable p] {yes no : Reader α} {start stop : Bool}
    (hyes : Passes yes start stop) (hno : Passes no start stop) :
    Passes (if p then yes else no) start stop := by
  split
  · exact hyes
  · exact hno

theorem passes_unicodeEscape : Passes unicodeEscape false false := by
  refine passes_fourDigits.bind fun n => .ite (passes_refuse_bind _ _ _ _) (.ite (passes_pure _ _) ?_)
  refine (passes_expectPairPart (show stringState false ['\\'] = some true from rfl)).bind fun _ => ?_
  refine (passes_expectPairPart (show stringState true ['u'] = some false from rfl)).bind fun _ => ?_
  exact passes_fourDigits.bind fun m => .ite (passes_refuse_bind _ _ _ _) (passes_pure _ _)

theorem stringState_of_simpleEscape? {d e : Char} (h : simpleEscape? d = some e) :
    stringState true [d] = some false := by
  unfold simpleEscape? at h
  split at h <;> first | rfl | contradiction

theorem passes_escape : Passes escape true false := by
  refine passes_peek? (passes_refuse _ _ _) fun d => ?_
  dsimp only
  split
  · next e hd => exact (passesAt_bump (stringState_of_simpleEscape? hd)).bind fun _ => passes_pure e _
  · split
    · next hu =>
        subst hu
        exact (passesAt_bump rfl).bind fun _ => passes_unicodeEscape
    · exact (passes_refuseNext _ _ _).at d

theorem exists_of_characters {fuel : Nat} {cs : List Char} (h : characters fuel c = .ok (cs, after)) :
    ∃ body, c.rest = body ++ '\x22' :: after.rest ∧ stringState false body = some false := by
  induction fuel generalizing cs c with
  | zero => exact nomatch h
  | succ fuel ih =>
      obtain ⟨found, c₁, hpeek, h⟩ := bind_eq_ok.mp h
      cases hpeek
      -- What follows characters that are in the string.
      have hmore {read : List Char} {between : Cursor} {more : List Char}
          (hread : c.rest = read ++ between.rest) (hstate : stringState false read = some false)
          (hrest : characters fuel between = .ok (more, after)) : ∃ body,
            c.rest = body ++ '\x22' :: after.rest ∧ stringState false body = some false := by
        obtain ⟨body, hbody, hinside⟩ := ih hrest
        refine ⟨read ++ body, by rw [hread, hbody, List.append_assoc], ?_⟩
        rw [stringState_append, hstate]
        exact hinside
      generalize hhead : c.rest.head? = found at h
      split at h
      · cases h
      · obtain ⟨u, c₁, hbump, h⟩ := bind_eq_ok.mp h
        cases h
        obtain ⟨rest, hrest⟩ : ∃ rest, c.rest = '\x22' :: rest := ⟨_, (List.cons_head?_tail hhead).symm⟩
        have hreads := reads_bump '\x22' rest
        rw [← hrest] at hreads
        exact ⟨[], by rw [(eq_of_reads hreads hbump).2, hrest, List.nil_append], rfl⟩
      · obtain ⟨u, c₁, hbump, h⟩ := bind_eq_ok.mp h
        obtain ⟨e, c₂, hescape, h⟩ := bind_eq_ok.mp h
        obtain ⟨more, c₃, hrest, h⟩ := bind_eq_ok.mp h
        cases h
        have hpassed : PassesAt '\\' (bump >>= fun _ => escape) false false :=
          (passesAt_bump rfl).bind fun _ => passes_escape
        obtain ⟨read, hread, hstate⟩ := hpassed c e c₂ hhead (bind_eq_ok.mpr ⟨u, c₁, hbump, hescape⟩)
        exact hmore hread hstate hrest
      · next d hquote hbackslash =>
          obtain ⟨u, c₁, hbump, h⟩ := bind_eq_ok.mp h
          split at h
          · exact nomatch h
          · next hcontrol =>
              obtain ⟨more, c₂, hrest, h⟩ := bind_eq_ok.mp h
              cases h
              have hd : stringState false [d] = some false :=
                stringState_of_plain (by simpa using ⟨Nat.le_of_not_lt hcontrol, hquote, hbackslash⟩)
              obtain ⟨read, hread, hstate⟩ := passesAt_bump hd c u c₁ hhead hbump
              exact hmore hread hstate hrest

/-! ## Objects -/

/-- How a text that is an object begins. -/
inductive OpensObject : List Char → Prop where
  | empty {outer inner behind : List Char} (houter : ∀ b ∈ outer, IsBlank b)
      (hinner : ∀ b ∈ inner, IsBlank b) (hbehind : ∀ b ∈ behind, IsBlank b) :
      OpensObject (outer ++ '\x7b' :: (inner ++ '\x7d' :: behind))
  | member {outer inner body colon rest : List Char} (houter : ∀ b ∈ outer, IsBlank b)
      (hinner : ∀ b ∈ inner, IsBlank b) (hbody : stringState false body = some false)
      (hcolon : ∀ b ∈ colon, IsBlank b) :
      OpensObject (outer ++ '\x7b' :: (inner ++ '\x22' :: (body ++ '\x22' :: (colon ++ ':' :: rest))))

theorem exists_of_bump {d : Char} {u : Unit} (hhead : c.rest.head? = some d) (h : bump c = .ok (u, after)) :
    c.rest = d :: after.rest := by
  obtain ⟨rest, hrest⟩ : ∃ rest, c.rest = d :: rest := ⟨_, (List.cons_head?_tail hhead).symm⟩
  have hbump := reads_bump d rest
  rw [← hrest] at hbump
  rw [hrest, (eq_of_reads hbump h).2]

theorem exists_of_hasMember {more : Bool} (h : hasMember true c = .ok (more, after)) :
    ∃ blanks, (∀ b ∈ blanks, IsBlank b) ∧ c.rest = blanks ++ after.rest ∧
      after.rest.head? = some (if more then '\x22' else '\x7d') := by
  obtain ⟨found, c₁, hskip, h⟩ := bind_eq_ok.mp h
  obtain ⟨blanks, hblanks, hrest, rfl⟩ := exists_of_skipBlanks hskip
  generalize hhead : c₁.rest.head? = found at h
  cases found with
  | none => exact nomatch h
  | some d =>
      dsimp only at h
      by_cases hend : d = '\x7d'
      · rw [if_pos hend] at h
        cases h
        exact ⟨blanks, hblanks, hrest, by rw [hhead, hend]; rfl⟩
      · by_cases hname : d = '\x22'
        · rw [if_neg hend, if_pos rfl, if_pos hname] at h
          cases h
          exact ⟨blanks, hblanks, hrest, by rw [hhead, hname]; rfl⟩
        · rw [if_neg hend, if_pos rfl, if_neg hname] at h
          exact absurd h (not_refuseNext _)

theorem exists_of_key {name : String} (hhead : c.rest.head? = some '\x22') (h : key c = .ok (name, after)) :
    ∃ body, c.rest = '\x22' :: (body ++ '\x22' :: after.rest) ∧ stringState false body = some false := by
  obtain ⟨u, c₁, hbump, h⟩ := bind_eq_ok.mp h
  obtain ⟨cursor, c₂, hget, h⟩ := bind_eq_ok.mp h
  cases hget
  obtain ⟨cs, c₃, hcharacters, h⟩ := bind_eq_ok.mp h
  cases h
  obtain ⟨body, hbody, hstate⟩ := exists_of_characters hcharacters
  exact ⟨body, by rw [exists_of_bump hhead hbump, hbody], hstate⟩

theorem exists_of_colon {u : Unit} (h : colon c = .ok (u, after)) :
    ∃ blanks, (∀ b ∈ blanks, IsBlank b) ∧ c.rest = blanks ++ ':' :: after.rest := by
  obtain ⟨found, c₁, hskip, h⟩ := bind_eq_ok.mp h
  obtain ⟨blanks, hblanks, hrest, rfl⟩ := exists_of_skipBlanks hskip
  generalize hhead : c₁.rest.head? = found at h
  split at h
  · exact ⟨blanks, hblanks, by rw [hrest, exists_of_bump hhead h]⟩
  · exact absurd h (not_refuseNext _)
  · exact nomatch h

theorem blank_of_endOfText {u : Unit} (h : endOfText c = .ok (u, after)) : ∀ b ∈ c.rest, IsBlank b := by
  obtain ⟨found, c₁, hskip, h⟩ := bind_eq_ok.mp h
  obtain ⟨blanks, hblanks, hrest, rfl⟩ := exists_of_skipBlanks hskip
  generalize hhead : c₁.rest.head? = found at h
  cases found with
  | none => rwa [hrest, List.head?_eq_none_iff.mp hhead, List.append_nil]
  | some d => exact absurd h (not_refuseNext _)

theorem exists_of_endObject {u : Unit} (hhead : c.rest.head? = some '\x7d')
    (h : endObject c = .ok (u, after)) : c.rest = '\x7d' :: after.rest := by
  obtain ⟨found, c₁, hskip, h⟩ := bind_eq_ok.mp h
  obtain ⟨rest, hrest⟩ : ∃ rest, c.rest = '\x7d' :: rest := ⟨_, (List.cons_head?_tail hhead).symm⟩
  have hreads : Reads skipBlanks c.rest (some '\x7d') ('\x7d' :: rest) := by
    rw [hrest]
    exact reads_skipBlanks_cons (by decide) rest
  obtain ⟨rfl, hleft⟩ := eq_of_reads hreads hskip
  rw [← exists_of_bump (by rw [hleft]; rfl) h, hleft, hrest]

theorem opens_of_valueAround {inside : Reader Json} {members : List (String × Json)}
    (h : valueAround (some inside) c = .ok (.object members, after))
    (hafter : ∀ b ∈ after.rest, IsBlank b) : OpensObject c.rest := by
  obtain ⟨found, c₁, hskip, h⟩ := bind_eq_ok.mp h
  obtain ⟨outer, houter, hrest, rfl⟩ := exists_of_skipBlanks hskip
  generalize hhead : c₁.rest.head? = found at h
  cases found with
  | none => exact nomatch h
  | some d =>
      simp only at h
      -- Only what begins with a brace gives an object.
      split_ifs at h
      all_goals try simp only [bind_eq_ok, pure_eq_ok, reduceCtorEq, false_and, and_false, exists_false] at h
      · obtain ⟨u, c₂, hbump, map, c₃, hmembers, v, c₄, hend, -, rfl⟩ := h
        obtain rfl : d = '\x7b' := by simp_all
        rw [hrest, exists_of_bump hhead hbump]
        obtain ⟨more, c₅, hmore, hmembers⟩ := bind_eq_ok.mp hmembers
        obtain ⟨inner, hinner, hrest, hhead⟩ := exists_of_hasMember hmore
        cases more with
        | false =>
            cases hmembers
            rw [hrest, exists_of_endObject hhead hend]
            exact .empty houter hinner hafter
        | true =>
            obtain ⟨name, c₆, hkey, hmembers⟩ := bind_eq_ok.mp hmembers
            obtain ⟨m, c₇, hmember, -⟩ := bind_eq_ok.mp hmembers
            obtain ⟨w, c₈, hcolon, -⟩ := bind_eq_ok.mp hmember
            obtain ⟨body, hbody, hstate⟩ := exists_of_key hhead hkey
            obtain ⟨colon, hblanks, hbehind⟩ := exists_of_colon hcolon
            rw [hrest, hbody, hbehind]
            exact .member houter hinner hstate hblanks
      · exact absurd h (not_refuseNext _)

end Reader

open Reader in
/-- How a text begins that is an object. -/
theorem opensObject_of_parse? {text : List Char} {members : List (String × Json)}
    (h : parse? text = .ok (.object members)) : OpensObject text := by
  let whole : Reader Json := do
    let a ← value depthLimit
    endOfText
    return a
  change (whole ⟨text, 1, 0⟩ >>= fun p => Except.ok p.1) = .ok _ at h
  cases hrun : whole ⟨text, 1, 0⟩ with
  | error e =>
      rw [hrun] at h
      contradiction
  | ok p =>
      rw [hrun] at h
      obtain ⟨j, after⟩ := p
      cases Except.ok.inj h
      obtain ⟨j, c₁, hvalue, hrun⟩ := bind_eq_ok.mp hrun
      obtain ⟨u, c₂, hend, hrun⟩ := bind_eq_ok.mp hrun
      cases hrun
      exact opens_of_valueAround hvalue (blank_of_endOfText hend)

end Localization.Json
