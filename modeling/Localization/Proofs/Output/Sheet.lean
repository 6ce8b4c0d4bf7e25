import Localization.Output.Basic
import Localization.Proofs.Key.Unique

/-!
Sheets are read back as they are meant. A reader of comma-separated values passes a sheet character by
character; a record ends at a line feed, at a carriage return or at both, and lines without a character
are no records. Main statements: `read_render`, `renderSheet_reads_back`.
-/

namespace Localization

namespace Sheet

/-- Where a reader of a sheet stands. -/
inductive Position where
  | recordStart
  | fieldStart
  | plain
  | quoted
  /-- Behind a quote in a quoted field: its last character, or the first half of a quote. -/
  | quoteSeen
  deriving DecidableEq, Repr

/-- What a reader of a sheet has read: the records, the fields of the last one, and the characters of
the last field. -/
structure Reader where
  records : List (List String)
  fields : List String
  chars : List Char
  position : Position
  deriving DecidableEq, Repr

namespace Reader

def start : Reader :=
  ⟨[], [], [], .recordStart⟩

def endField (r : Reader) : Reader :=
  { r with fields := r.fields ++ [String.ofList r.chars], chars := [], position := .fieldStart }

def endRecord (r : Reader) : Reader :=
  ⟨r.records ++ [r.endField.fields], [], [], .recordStart⟩

def take (r : Reader) (c : Char) (position : Position) : Reader :=
  { r with chars := r.chars ++ [c], position := position }

def isLineEnd (c : Char) : Bool :=
  c == '\n' || c == '\r'

/-- A character that no open quote stands in front of. -/
def outside (r : Reader) (c : Char) : Reader :=
  if c = ',' then r.endField else if isLineEnd c then r.endRecord else r.take c .plain

def step (r : Reader) (c : Char) : Reader :=
  match r.position with
  | .recordStart =>
    if isLineEnd c then r else if c = '\x22' then { r with position := .quoted } else r.outside c
  | .fieldStart => if c = '\x22' then { r with position := .quoted } else r.outside c
  | .plain => r.outside c
  | .quoted => if c = '\x22' then { r with position := .quoteSeen } else r.take c .quoted
  | .quoteSeen => if c = '\x22' then r.take c .quoted else r.outside c

/-- The records at the end of the text. -/
def finish (r : Reader) : List (List String) :=
  if r.position = .recordStart then r.records else r.endRecord.records

end Reader

/-- The records of a sheet. -/
def read (text : List Char) : List (List String) :=
  (text.foldl Reader.step Reader.start).finish

open Reader

variable {records : List (List String)} {fields : List String}

theorem foldl_step_plain {chars text : List Char} (h : text.any needsQuotes = false) :
    text.foldl step ⟨records, fields, chars, .plain⟩ = ⟨records, fields, chars ++ text, .plain⟩ := by
  induction text generalizing chars with
  | nil => rw [List.foldl_nil, List.append_nil]
  | cons c rest ih =>
      rw [List.any_cons, Bool.or_eq_false_iff] at h
      have hstep : step ⟨records, fields, chars, .plain⟩ c =
          ⟨records, fields, chars ++ [c], .plain⟩ := by
        have hc := h.1
        simp only [needsQuotes, Bool.or_eq_false_iff, beq_eq_false_iff_ne, ne_eq] at hc
        simp [step, outside, isLineEnd, take, hc]
      rw [List.foldl_cons, hstep, ih h.2, List.append_assoc, List.singleton_append]

theorem foldl_step_quoted (chars text : List Char) :
    (text.flatMap quotedChar).foldl step ⟨records, fields, chars, .quoted⟩ =
      ⟨records, fields, chars ++ text, .quoted⟩ := by
  induction text generalizing chars with
  | nil => rw [List.flatMap_nil, List.foldl_nil, List.append_nil]
  | cons c rest ih =>
      have hstep : (quotedChar c).foldl step ⟨records, fields, chars, .quoted⟩ =
          ⟨records, fields, chars ++ [c], .quoted⟩ := by
        by_cases hc : c = '\x22'
        · simp [quotedChar, hc, step, take]
        · simp [quotedChar, hc, step, take]
      rw [List.flatMap_cons, List.foldl_append, hstep, ih, List.append_assoc,
        List.singleton_append]

/-- A place at which a field begins. -/
def BeginsField (fields : List String) (position : Position) : Prop :=
  position = .fieldStart ∨ (position = .recordStart ∧ fields = [])

/-- A written field is read back when a comma follows it, and when a line feed does, unless it is the
empty field of a record that has no other. -/
theorem step_foldl_field {position : Position} (h : BeginsField fields position)
    (text : List Char) {c : Char} (hc : c = ',' ∨ c = '\n' ∧ (position = .fieldStart ∨ text ≠ [])) :
    step ((field text).foldl step ⟨records, fields, [], position⟩) c =
      if c = ',' then ⟨records, fields ++ [String.ofList text], [], .fieldStart⟩
      else ⟨records ++ [fields ++ [String.ofList text]], [], [], .recordStart⟩ := by
  have hend : ∀ (chars : List Char) (inside : Position), inside = .plain ∨ inside = .quoteSeen →
      step ⟨records, fields, chars, inside⟩ c =
        if c = ',' then ⟨records, fields ++ [String.ofList chars], [], .fieldStart⟩
        else ⟨records ++ [fields ++ [String.ofList chars]], [], [], .recordStart⟩ := by
    rintro chars inside (rfl | rfl)
    · rcases hc with rfl | ⟨rfl, -⟩ <;> rfl
    · rcases hc with rfl | ⟨rfl, -⟩ <;> rfl
  rw [field]
  split
  · have hopen : step ⟨records, fields, [], position⟩ '\x22' = ⟨records, fields, [], .quoted⟩ := by
      rcases h with rfl | ⟨rfl, rfl⟩ <;> rfl
    have hclose : step ⟨records, fields, text, .quoted⟩ '\x22' =
        ⟨records, fields, text, .quoteSeen⟩ := rfl
    rw [List.cons_append, List.foldl_cons, hopen, List.foldl_append, foldl_step_quoted,
      List.nil_append, List.foldl_cons, hclose, List.foldl_nil]
    exact hend text .quoteSeen (.inr rfl)
  · next hplain =>
      cases text with
      | nil =>
          rw [List.foldl_nil]
          rcases h with rfl | ⟨rfl, rfl⟩
          · rcases hc with rfl | ⟨rfl, -⟩ <;> rfl
          · rcases hc with rfl | ⟨rfl, hne | hne⟩
            · rfl
            · cases hne
            · exact absurd rfl hne
      | cons d rest =>
          rw [Bool.not_eq_true, List.any_cons, Bool.or_eq_false_iff] at hplain
          have hfirst : step ⟨records, fields, [], position⟩ d = ⟨records, fields, [d], .plain⟩ := by
            have hd := hplain.1
            simp only [needsQuotes, Bool.or_eq_false_iff, beq_eq_false_iff_ne, ne_eq] at hd
            rcases h with rfl | ⟨rfl, rfl⟩
            · simp [step, outside, isLineEnd, take, hd]
            · simp [step, outside, isLineEnd, take, hd]
          rw [List.foldl_cons, hfirst, foldl_step_plain hplain.2, List.singleton_append]
          exact hend (d :: rest) .plain (.inl rfl)

theorem foldl_step_moreFields (more : List String) (text : String) :
    (field text.toList ++ moreFields more).foldl step ⟨records, fields, [], .fieldStart⟩ =
      ⟨records ++ [fields ++ text :: more], [], [], .recordStart⟩ := by
  induction more generalizing fields text with
  | nil =>
      rw [moreFields, List.foldl_append, List.foldl_cons, List.foldl_nil,
        step_foldl_field (.inl rfl) _ (.inr ⟨rfl, .inl rfl⟩), if_neg (by decide), String.ofList_toList]
  | cons next rest ih =>
      rw [moreFields, List.foldl_append, List.cons_append, List.foldl_cons,
        step_foldl_field (.inl rfl) _ (.inl rfl), if_pos rfl, String.ofList_toList, ih,
        List.append_assoc, List.singleton_append]

/-- A record with one field might be an empty line. -/
theorem foldl_step_record {fields : List String} (h : 1 < fields.length) :
    (record fields).foldl step ⟨records, [], [], .recordStart⟩ =
      ⟨records ++ [fields], [], [], .recordStart⟩ := by
  obtain ⟨first, second, rest, rfl⟩ : ∃ first second rest, fields = first :: second :: rest := by
    match fields, h with
    | first :: second :: rest, _ => exact ⟨first, second, rest, rfl⟩
  rw [record, moreFields, List.foldl_append, List.cons_append, List.foldl_cons,
    step_foldl_field (.inr ⟨rfl, rfl⟩) _ (.inl rfl), if_pos rfl, String.ofList_toList,
    foldl_step_moreFields, List.nil_append, List.singleton_append]

theorem read_render {records : List (List String)} (h : ∀ fields ∈ records, 1 < fields.length) :
    read (render records) = records := by
  have hrest : ∀ before : List (List String), (render records).foldl step
      ⟨before, [], [], .recordStart⟩ = ⟨before ++ records, [], [], .recordStart⟩ := by
    induction records with
    | nil =>
        intro before
        rw [List.append_nil]
        rfl
    | cons fields rest ih =>
        intro before
        have hlater : ∀ f ∈ rest, 1 < f.length := fun f hf => h f (List.mem_cons_of_mem _ hf)
        rw [render, List.flatMap_cons, List.foldl_append,
          foldl_step_record (h fields List.mem_cons_self), ← render, ih hlater, List.append_assoc,
          List.singleton_append]
  rw [read, start, hrest []]
  rfl

end Sheet

namespace OutputPlan

/-- A dictionary that may be missing has a text for a key. -/
def HasText (d : Option Dictionary) (key text : String) : Prop :=
  ∃ stored, d = some stored ∧ stored.get? key = some (.string text)

/-- A cell of a key: the stored text, or else another one. -/
inductive IsCell (d : Option Dictionary) (key missing : String) : String → Prop where
  | stored {text : String} : HasText d key text → IsCell d key missing text
  | missing : (∀ text, ¬ HasText d key text) → IsCell d key missing missing

/-- The row of a key: the key, its English text or nothing, and its Korean text, or else the default
text that stands beside the key, or else the key. -/
def IsRow (english korean : Option Dictionary) (o : Occurrence) (row : List String) : Prop :=
  ∃ englishCell koreanCell, row = [o.key, englishCell, koreanCell] ∧
    IsCell english o.key "" englishCell ∧ IsCell korean o.key (o.default.getD o.key) koreanCell

theorem textIn?_eq_some {d : Option Dictionary} {key text : String} :
    textIn? d key = some text ↔ HasText d key text := by
  constructor
  · intro h
    obtain ⟨stored, rfl, htext⟩ := Option.bind_eq_some_iff.mp h
    refine ⟨stored, rfl, ?_⟩
    rw [Dictionary.textOf?] at htext
    split at htext
    · next hget => rw [hget, Option.some.inj htext]
    · cases htext
  · rintro ⟨stored, rfl, h⟩
    simp [textIn?, Dictionary.textOf?, h]

theorem isNone_textIn? {d : Option Dictionary} {key : String} :
    (textIn? d key).isNone = true ↔ ∀ text, ¬ HasText d key text := by
  rw [Option.isNone_iff_eq_none, Option.eq_none_iff_forall_ne_some]
  exact forall_congr' fun text => not_congr textIn?_eq_some

theorem isCell_getD (d : Option Dictionary) (key missing : String) :
    IsCell d key missing ((textIn? d key).getD missing) := by
  cases h : textIn? d key with
  | some text => exact .stored (textIn?_eq_some.mp h)
  | none => exact .missing (isNone_textIn?.mp (Option.isNone_iff_eq_none.mpr h))

theorem isRow_sheetRecord (english korean : Option Dictionary) (o : Occurrence) :
    IsRow english korean o (sheetRecord english korean o) :=
  ⟨_, _, rfl, isCell_getD _ _ _, isCell_getD _ _ _⟩

theorem one_lt_length_of_mem_sheet {english korean : Option Dictionary} {keys : List Occurrence} :
    ∀ fields ∈ sheetHeader :: keys.map (sheetRecord english korean), 1 < fields.length := by
  intro fields h
  rcases List.mem_cons.mp h with rfl | h
  · decide
  · obtain ⟨o, -, rfl⟩ := List.mem_map.mp h
    exact Nat.lt_succ_of_le (Nat.le_succ _)

theorem renderSheet_eq {p : OutputPlan} {w : Workspace} {english korean : Option Dictionary}
    (fileName : String) (henglish : p.existing? w (p.dictionaryPath "en") = .ok english)
    (hkorean : p.existing? w (p.dictionaryPath "ko") = .ok korean) :
    p.renderSheet w fileName = .ok
      ⟨Path.join p.directory fileName,
        Sheet.render (sheetHeader :: (p.keys.ordered p.isSorted).map (sheetRecord english korean)),
        (p.keys.ordered p.isSorted).countP fun o => (textIn? korean o.key).isNone⟩ := by
  rw [renderSheet, henglish, hkorean]
  rfl

/-- A rendered sheet is read back as the header and one row for each key that occurs. The number of keys
that count as added is that of the keys without a Korean text. -/
theorem renderSheet_reads_back {p : OutputPlan} {w : Workspace} {occurrences : List Occurrence}
    {english korean : Option Dictionary} (fileName : String)
    (hkeys : p.keys = KeySet.ofOccurrences occurrences)
    (henglish : p.existing? w (p.dictionaryPath "en") = .ok english)
    (hkorean : p.existing? w (p.dictionaryPath "ko") = .ok korean) :
    ∃ file rows, p.renderSheet w fileName = .ok file ∧
      Sheet.read file.contents = ["Key", "English", "Korean"] :: rows ∧
      List.Forall₂ (IsRow english korean) (p.keys.ordered p.isSorted) rows ∧
      ((p.keys.ordered p.isSorted).map Occurrence.key).Nodup ∧
      (∀ key, key ∈ (p.keys.ordered p.isSorted).map Occurrence.key ↔
        ∃ o ∈ occurrences, o.key = key) ∧
      ∃ missing : List String, missing.Nodup ∧
        (∀ key, key ∈ missing ↔
          (∃ o ∈ occurrences, o.key = key) ∧ ∀ text, ¬ HasText korean key text) ∧
        file.added = missing.length := by
  have hperm : ((p.keys.ordered p.isSorted).map Occurrence.key).Perm
      (p.keys.unique.map Occurrence.key) := (KeySet.perm_ordered _ _).map _
  have hnodup : ((p.keys.ordered p.isSorted).map Occurrence.key).Nodup := by
    rw [hperm.nodup_iff, hkeys]
    exact KeySet.nodup_keys_ofOccurrences occurrences
  have hmem : ∀ key, key ∈ (p.keys.ordered p.isSorted).map Occurrence.key ↔
      ∃ o ∈ occurrences, o.key = key := by
    intro key
    rw [hperm.mem_iff, hkeys]
    exact KeySet.mem_keys_ofOccurrences
  refine ⟨_, (p.keys.ordered p.isSorted).map (sheetRecord english korean),
    renderSheet_eq fileName henglish hkorean, ?_, ?_, hnodup, hmem,
    ((p.keys.ordered p.isSorted).map Occurrence.key).filter fun key => (textIn? korean key).isNone,
    hnodup.filter _, ?_, ?_⟩
  · exact Sheet.read_render one_lt_length_of_mem_sheet
  · rw [List.forall₂_map_right_iff]
    exact List.forall₂_same.mpr fun o _ => isRow_sheetRecord english korean o
  · intro key
    rw [List.mem_filter, hmem, isNone_textIn?]
  · rw [← List.countP_eq_length_filter, List.countP_map]
    rfl

/-- A project with a text that has to be quoted, and with a value that is no text. -/
def translatedProject : Workspace where
  tree := .directory [("locales", .directory
    [ ("en.json", .file (.text "\x7b\"greeting\": \"Hello, \\\"you\\\"\"\x7d".toList)),
      ("ko.json", .file (.text "\x7b\"greeting\": 1\x7d".toList)) ])]
  current := []

def greetingOccurrences : List Occurrence :=
  [⟨"greeting", some "안녕\r\n", "a.tsx", 1, 1⟩, ⟨"a,b", none, "a.tsx", 2, 1⟩]

def greetingPlan : OutputPlan where
  directory := "locales"
  keys := KeySet.ofOccurrences greetingOccurrences
  space := none
  merges := true
  isSorted := true

theorem renderSheet_reads_back_greeting :
    ∃ english korean, greetingPlan.existing? translatedProject "locales/en.json" = .ok english ∧
      greetingPlan.existing? translatedProject "locales/ko.json" = .ok korean ∧
      HasText english "greeting" "Hello, \"you\"" ∧ (∀ text, ¬ HasText korean "greeting" text) ∧
      ∃ file rows, greetingPlan.renderSheet translatedProject "keys.csv" = .ok file ∧
        Sheet.read file.contents = ["Key", "English", "Korean"] :: rows ∧
        List.Forall₂ (IsRow english korean) (greetingPlan.keys.ordered true) rows := by
  have henglish : greetingPlan.existing? translatedProject (greetingPlan.dictionaryPath "en") =
      .ok (some ⟨[("greeting", .string "Hello, \"you\"")]⟩) := rfl
  have hkorean : greetingPlan.existing? translatedProject (greetingPlan.dictionaryPath "ko") =
      .ok (some ⟨[("greeting", .number (.natural 1))]⟩) := rfl
  have hkeys : greetingPlan.keys = KeySet.ofOccurrences greetingOccurrences := rfl
  refine ⟨_, _, henglish, hkorean, ⟨_, rfl, rfl⟩, isNone_textIn?.mp (by decide), ?_⟩
  obtain ⟨file, rows, hfile, hread, hrows, -⟩ :=
    renderSheet_reads_back "keys.csv" hkeys henglish hkorean
  exact ⟨file, rows, hfile, hread, hrows⟩

end OutputPlan

end Localization
