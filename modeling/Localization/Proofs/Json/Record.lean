import Localization.Json.Record
import Localization.Proofs.Json.Brackets

/-!
Reading records from objects with some of their members left out. A field that was written changes a record
to what it had there; one that was not written, or was left out, changes nothing. Main statement:
`readsAs_without_ofRecord`.
-/

namespace Localization.Json

mutual

/-- A value without the members at some places inside it. A place is told by the names on the way to it. -/
def without (leavesOut : List String → Bool) : Json → Json
  | object members => object (membersWithout leavesOut members)
  | j => j

def membersWithout (leavesOut : List String → Bool) : List (String × Json) → List (String × Json)
  | [] => []
  | (name, j) :: rest =>
      if leavesOut [name] then membersWithout leavesOut rest
      else (name, without (fun place => leavesOut (name :: place)) j) :: membersWithout leavesOut rest

end

mutual

theorem without_none (j : Json) : j.without (fun _ => false) = j := by
  cases j with
  | object members => rw [without, membersWithout_none members]
  | null | bool | number | string | array => rfl

theorem membersWithout_none (members : List (String × Json)) :
    membersWithout (fun _ => false) members = members := by
  match members with
  | [] => rfl
  | (name, j) :: rest =>
      rw [membersWithout, if_neg Bool.false_ne_true, without_none j, membersWithout_none rest]

end

namespace Reader

variable {α : Type} {level : Nat}

/-! ## Values of one type -/

/-- A reader that looks at the first character behind the blanks. -/
theorem readsAs_skipBlanks {f : Option Char → Reader α} {j : Json} {a : α} {c : Char} {text : List Char}
    (htext : j.renderAt level = c :: text) (hblank : ¬ IsBlank c) (hclose : c ≠ ']')
    (h : ∀ rest, Stops rest → Reads (f (some c)) (j.renderAt level ++ rest) a rest) :
    ReadsAs (skipBlanks >>= f) level j a := by
  refine ⟨⟨c, text, htext, hblank, hclose⟩, fun blanks rest hblanks hrest => ?_⟩
  have hread := h rest hrest
  rw [htext] at hread ⊢
  exact (reads_skipBlanks hblanks (by simpa using hblank)).bind hread

theorem renderAt_string (s : String) :
    (Json.string s).renderAt level = '\x22' :: (Text.Quoted.encodeChars s.toList ++ ['\x22']) := by
  rw [renderAt, ← List.append_nil (String.toList _), Text.Quoted.toList_encode]

theorem readsAs_text (s : String) : ReadsAs text level (.string s) s := by
  refine readsAs_skipBlanks (renderAt_string s) (by decide) (by decide) fun rest _ => ?_
  rw [renderAt_string, List.cons_append, List.append_assoc]
  exact (reads_bump _ _).bind (reads_string s rest)

theorem readsAs_optional_text (s : String) : ReadsAs (optional text) level (.string s) (some s) := by
  refine readsAs_skipBlanks (renderAt_string s) (by decide) (by decide) fun rest hrest => ?_
  exact ((readsAs_text s).2 [] rest (by simp) hrest).bind (reads_pure (some s) rest)

theorem readsAs_choice {choices : List (String × α)} {name : String} {a : α}
    (h : choices.lookup name = some a) : ReadsAs (choice choices) level (.string name) a := by
  have hnamed (rest : List Char) : Reads (named choices name) rest a rest := by
    rw [named, h]
    exact reads_pure a rest
  refine readsAs_skipBlanks (renderAt_string name) (by decide) (by decide) fun rest _ => ?_
  rw [renderAt_string, List.cons_append, List.append_assoc]
  exact (reads_bump _ _).bind ((reads_string name rest).bind (hnamed rest))

theorem readsAs_truth (b : Bool) : ReadsAs truth level (.bool b) b := by
  cases b with
  | true =>
      refine readsAs_skipBlanks (c := 't') rfl (by decide) (by decide) fun rest _ => ?_
      exact (reads_bump _ _).bind ((reads_word ['r', 'u', 'e'] rest).bind (reads_pure true rest))
  | false =>
      refine readsAs_skipBlanks (c := 'f') rfl (by decide) (by decide) fun rest _ => ?_
      exact (reads_bump _ _).bind ((reads_word ['a', 'l', 's', 'e'] rest).bind (reads_pure false rest))

theorem readsAs_list {r : Reader α} {items : List Json} {read : List α}
    (h : List.Forall₂ (ReadsAs r (level + 1)) items read) :
    ReadsAs (list r) level (.array items) read := by
  obtain ⟨text, htext, -⟩ := exists_reads_items h []
  rw [List.append_nil] at htext
  refine readsAs_skipBlanks htext (by decide) (by decide) fun rest _ => ?_
  obtain ⟨inside, hinside, hread⟩ := exists_reads_items h rest
  rw [hinside]
  exact (reads_bump _ _).bind (hread.bind ((reads_endArray rest).bind (reads_pure read rest)))

end Reader

/-! ## Records -/

namespace RecordField

open Reader

variable {α β : Type}

/-- How a field of the written form of `a` changes the record that is read, where some members are left
out. -/
structure Restores (leavesOut : List String → Bool) (a : α) (f : RecordField α) (change : α → α) :
    Prop where
  missing : f.write a = none ∨ leavesOut [f.name] = true → change = id
  written : ∀ j, f.write a = some j → leavesOut [f.name] = false → ∀ level,
    ReadsAs f.read level (j.without fun place => leavesOut (f.name :: place)) change

variable {leavesOut : List String → Bool} {a : α} {level : Nat} {f : RecordField α} {change : α → α}

theorem reads_recordMember {all : List (RecordField α)} {j : Json}
    (hfind : all.find? (fun g => g.name == f.name) = some f) (hread : ReadsAs f.read level j change)
    (b : α) {seen : List String} (hseen : f.name ∉ seen) {rest : List Char} (hrest : Stops rest) :
    Reads (recordMember all f.name (b, seen)) (':' :: ' ' :: (j.renderAt level ++ rest))
      (change b, f.name :: seen) rest := by
  have hnew : seen.contains f.name = false := by simpa using hseen
  unfold recordMember
  simp only [hfind, hnew, Bool.false_eq_true, if_false]
  refine (reads_colon _).bind ((hread.2 [' '] rest (by simp; decide) hrest).bind ?_)
  exact reads_pure _ rest

theorem find?_name {all : List (RecordField α)} (hnames : (all.map name).Nodup) (hf : f ∈ all) :
    all.find? (fun g => g.name == f.name) = some f := by
  induction all with
  | nil => contradiction
  | cons g all ih =>
      rw [List.map_cons, List.nodup_cons] at hnames
      rcases List.mem_cons.mp hf with rfl | htail
      · exact List.find?_cons_of_pos (by simp)
      · have hne : g.name ≠ f.name := by
          intro heq
          exact hnames.1 (heq ▸ List.mem_map_of_mem htail)
        rw [List.find?_cons_of_neg (by simpa using hne)]
        exact ih hnames.2 htail

/-- What a list of changes makes of a record, one after the other. -/
def applyAll (changes : List (α → α)) (b : α) : α :=
  changes.foldl (fun b change => change b) b

/-- The members that are left of the written form of a record. -/
def membersLeft (leavesOut : List String → Bool) (fields : List (RecordField α)) (a : α) :
    List (String × Json) :=
  membersWithout leavesOut (fields.filterMap fun f => (f.write a).map (f.name, ·))

theorem without_ofRecord (fields : List (RecordField α)) :
    (Json.ofRecord fields a).without leavesOut = .object (membersLeft leavesOut fields a) := by
  rw [Json.ofRecord, without, membersLeft]

theorem membersLeft_of_missing (h : f.write a = none ∨ leavesOut [f.name] = true)
    (fields : List (RecordField α)) :
    membersLeft leavesOut (f :: fields) a = membersLeft leavesOut fields a := by
  unfold membersLeft
  cases hwrite : f.write a with
  | none => rw [List.filterMap_cons_none (by rw [hwrite]; rfl)]
  | some j =>
      rw [List.filterMap_cons_some (b := (f.name, j)) (by rw [hwrite]; rfl), membersWithout]
      exact if_pos (h.resolve_left (by simp [hwrite]))

theorem membersLeft_of_written {j : Json} (hwrite : f.write a = some j) (hleft : leavesOut [f.name] = false)
    (fields : List (RecordField α)) :
    membersLeft leavesOut (f :: fields) a =
      (f.name, j.without fun place => leavesOut (f.name :: place)) :: membersLeft leavesOut fields a := by
  unfold membersLeft
  rw [List.filterMap_cons_some (b := (f.name, j)) (by rw [hwrite]; rfl), membersWithout]
  exact if_neg (by simp [hleft])

/-- The members that are left of a written record make the changes of all its fields. -/
theorem exists_readsMembers {all fields : List (RecordField α)} {changes : List (α → α)}
    (h : List.Forall₂ (Restores leavesOut a) fields changes) (hnames : (all.map name).Nodup)
    (hall : ∀ f ∈ fields, f ∈ all) (hfields : (fields.map name).Nodup) (b : α) {seen : List String}
    (hseen : ∀ f ∈ fields, f.name ∉ seen) :
    ∃ seen', ReadsMembers (recordMember all) level (membersLeft leavesOut fields a) (b, seen)
      (applyAll changes b, seen') := by
  induction h generalizing b seen with
  | nil => exact ⟨seen, .nil _⟩
  | @cons f change fields changes hf _ ih =>
      rw [List.map_cons, List.nodup_cons] at hfields
      replace ih := ih (fun g hg => hall g (.tail _ hg)) hfields.2
      by_cases hmissing : f.write a = none ∨ leavesOut [f.name] = true
      · rw [membersLeft_of_missing hmissing, applyAll, List.foldl_cons, hf.missing hmissing]
        exact ih b fun g hg => hseen g (.tail _ hg)
      · obtain ⟨hwritten, hleft⟩ := not_or.mp hmissing
        obtain ⟨j, hwrite⟩ := Option.ne_none_iff_exists'.mp hwritten
        rw [Bool.not_eq_true] at hleft
        have hseen' : ∀ g ∈ fields, g.name ∉ f.name :: seen := by
          intro g hg hmem
          rcases List.mem_cons.mp hmem with heq | hmem
          · exact hfields.1 (heq ▸ List.mem_map_of_mem hg)
          · exact hseen g (.tail _ hg) hmem
        obtain ⟨seen', hmembers⟩ := ih (change b) hseen'
        rw [membersLeft_of_written hwrite hleft]
        refine ⟨seen', .cons (fun rest hrest => ?_) hmembers⟩
        have hread := hf.written j hwrite hleft level
        have hfind := find?_name hnames (hall f List.mem_cons_self)
        exact reads_recordMember hfind hread b (hseen f List.mem_cons_self) hrest

/-- A record is read back from what is left of its written form. -/
theorem readsAs_without_ofRecord {fields : List (RecordField α)} {changes : List (α → α)}
    (h : List.Forall₂ (Restores leavesOut a) fields changes) (hnames : (fields.map name).Nodup)
    (expected : String) (default : α) (level : Nat) :
    ReadsAs (record expected fields default) level ((Json.ofRecord fields a).without leavesOut)
      (applyAll changes default) := by
  have hnone : ∀ f ∈ fields, f.name ∉ [] := by simp
  obtain ⟨seen, hmembers⟩ := exists_readsMembers h hnames (fun _ => id) hnames default hnone
  obtain ⟨text, htext, -⟩ := exists_reads_members hmembers []
  rw [List.append_nil] at htext
  refine readsAs_skipBlanks htext (by decide) (by decide) fun rest _ => ?_
  obtain ⟨inside, hinside, hread⟩ := exists_reads_members hmembers rest
  rw [without_ofRecord, hinside]
  exact (reads_bump _ _).bind (hread.bind ((reads_endObject rest).bind (reads_pure _ rest)))

section

variable {β : Type} {name : String} {get : α → β} {set : β → α → α} {r : Reader β} {v : β}

/-- A field gets the value that is read back from its written form, and stays as it was without one. -/
theorem restores_of {w : β → Option Json} (hset : ∀ b, set (get b) b = b)
    (h : ∀ j, w (get a) = some j → leavesOut [name] = false → ∀ level,
      ReadsAs r level (j.without fun place => leavesOut (name :: place)) v) :
    Restores leavesOut a ⟨name, do return set (← r), fun a => w (get a)⟩ fun b =>
      set (if w (get a) = none ∨ leavesOut [name] then get b else v) b where
  missing := by
    intro hmissing
    funext b
    rw [if_pos hmissing, hset]
    rfl
  written := by
    intro j hwrite hleft level
    change w (get a) = some j at hwrite
    change leavesOut [name] = false at hleft
    obtain ⟨hbegins, hread⟩ := h j hwrite hleft level
    refine ⟨hbegins, fun blanks rest hblanks hrest => ?_⟩
    simp only [hleft, hwrite, Bool.false_eq_true, reduceCtorEq, or_false, if_false]
    exact (hread blanks rest hblanks hrest).bind (reads_pure _ rest)

/-- A field that is always written. -/
theorem restores_of_always {w : β → Json} (hset : ∀ b, set (get b) b = b)
    (h : ∀ level, ReadsAs r level ((w (get a)).without fun place => leavesOut (name :: place)) v) :
    Restores leavesOut a ⟨name, do return set (← r), fun a => some (w (get a))⟩ fun b =>
      set (if leavesOut [name] then get b else v) b := by
  have hrestores : Restores leavesOut a ⟨name, do return set (← r), fun a => some (w (get a))⟩ _ :=
    restores_of (v := v) (w := fun v => some (w v)) hset (by
      rintro j ⟨⟩ -
      exact h)
  simpa only [reduceCtorEq, false_or] using hrestores

end

end RecordField

end Localization.Json
