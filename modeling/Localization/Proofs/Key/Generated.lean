import Localization.Key.Generator
import Localization.Proofs.Text.Boundary

/-!
What a key is made of, and which texts a map of generated keys keeps. In camel case, exactly the letters and
digits of ASCII and the Hangul syllables of a text count. A later text takes the place of an earlier one with the
same key. Main statements: `baseKey_eq_iff`, which says when two texts have one key, and `keysFor_keeps_last`.
-/

/-! ## Keys in camel case -/

namespace Localization

/-- The characters that stand in keys in camel case. -/
def isKeyChar (c : Char) : Bool :=
  isLatinOrDigit c || Text.isHangul c

theorem isBlank_of_isKeyChar {c : Char} (h : isKeyChar c = true) : Text.isBlank c = false := by
  simp only [isKeyChar, isLatinOrDigit, Text.isHangul, Bool.or_eq_true, Bool.and_eq_true,
    decide_eq_true_eq] at h
  simp only [Text.isBlank, Bool.or_eq_false_iff, Bool.and_eq_false_iff, decide_eq_false_iff_not,
    beq_eq_false_iff_ne]
  omega

theorem not_isBlank_and_countsForKey (c : Char) :
    (!Text.isBlank c && countsForKey c) = isKeyChar c := by
  have hcounts : countsForKey c = (isKeyChar c || Text.isBlank c) := rfl
  rw [hcounts]
  cases hkey : isKeyChar c with
  | true => simp [isBlank_of_isKeyChar hkey]
  | false => simp

/-! ### Words -/

theorem Text.flatten_wordsFrom (word cs : List Char) :
    (wordsFrom word cs).flatten = word.reverse ++ cs.filter fun c => !isBlank c := by
  induction cs generalizing word with
  | nil => cases word <;> simp [wordsFrom]
  | cons c rest ih =>
      rw [wordsFrom]
      cases hblank : isBlank c with
      | true => cases word <;> simp [ih, hblank]
      | false => simp [ih, hblank]

/-- The words of a text hold what is no white space, in order. -/
theorem Text.flatten_words (cs : List Char) :
    (words cs).flatten = cs.filter fun c => !isBlank c :=
  flatten_wordsFrom [] cs

theorem flatten_words_filter (text : List Char) :
    (Text.words (text.filter countsForKey)).flatten = text.filter isKeyChar := by
  rw [Text.flatten_words, List.filter_filter]
  congr 1
  funext c
  exact not_isBlank_and_countsForKey c

/-! ### Letters -/

theorem toNat_toLower (c : Char) :
    c.toLower.toNat = if 65 ≤ c.toNat ∧ c.toNat ≤ 90 then c.toNat + 32 else c.toNat := by
  delta Char.toLower
  simp only [ge_iff_le, UInt32.le_iff_toNat_le, Char.toNat]
  split
  · next h =>
      rw [if_pos (by simpa using h)]
      simp only [Char.isValue, Char.reduceVal, UInt32.reduceToNat, Char.toNat_val,
        UInt32.reduceSub, UInt32.toNat_add, Nat.reducePow] at h ⊢
      omega
  · next h => rw [if_neg (by simpa using h)]

theorem toNat_toUpper (c : Char) :
    c.toUpper.toNat = if 97 ≤ c.toNat ∧ c.toNat ≤ 122 then c.toNat - 32 else c.toNat := by
  delta Char.toUpper
  simp only [UInt32.le_iff_toNat_le, Char.toNat]
  split
  · next h =>
      rw [if_pos (by simpa using h)]
      simp only [Char.isValue, Char.reduceVal, UInt32.reduceToNat, Char.toNat_val,
        UInt32.reduceSub, UInt32.toNat_add, Nat.reducePow] at h ⊢
      omega
  · next h => rw [if_neg (by simpa using h)]

theorem isKeyChar_toLower {c : Char} (h : isKeyChar c = true) : isKeyChar c.toLower = true := by
  simp only [isKeyChar, isLatinOrDigit, Text.isHangul, Bool.or_eq_true, Bool.and_eq_true,
    decide_eq_true_eq, toNat_toLower] at h ⊢
  split <;> omega

theorem isKeyChar_toUpper {c : Char} (h : isKeyChar c = true) : isKeyChar c.toUpper = true := by
  simp only [isKeyChar, isLatinOrDigit, Text.isHangul, Bool.or_eq_true, Bool.and_eq_true,
    decide_eq_true_eq, toNat_toUpper] at h ⊢
  split <;> omega

/-! ### Camel case -/

theorem length_capitalized (word : List Char) : (capitalized word).length = word.length := by
  cases word with
  | nil => rfl
  | cons c rest => simp [capitalized]

theorem isKeyChar_of_mem_capitalized {word : List Char} (h : ∀ c ∈ word, isKeyChar c = true) :
    ∀ c ∈ capitalized word, isKeyChar c = true := by
  cases word with
  | nil => simp [capitalized]
  | cons d rest =>
      intro c hc
      rcases List.mem_cons.mp hc with rfl | hrest
      · exact isKeyChar_toUpper (h d List.mem_cons_self)
      · obtain ⟨e, he, rfl⟩ := List.mem_map.mp hrest
        exact isKeyChar_toLower (h e (List.mem_cons_of_mem d he))

/-- Each character that counts gives one character of the key. -/
theorem length_camelCase (text : List Char) :
    (camelCase text).length = (text.filter isKeyChar).length := by
  rw [← flatten_words_filter, camelCase]
  cases Text.words (text.filter countsForKey) with
  | nil => rfl
  | cons first others => simp [List.length_flatMap, List.length_flatten, length_capitalized]

theorem isKeyChar_of_mem_camelCase {text : List Char} {c : Char} (h : c ∈ camelCase text) :
    isKeyChar c = true := by
  have hwords : ∀ word ∈ Text.words (text.filter countsForKey), ∀ d ∈ word, isKeyChar d = true := by
    intro word hword d hd
    have hmem : d ∈ text.filter isKeyChar := by
      rw [← flatten_words_filter]
      exact List.mem_flatten.mpr ⟨word, hword, hd⟩
    exact (List.mem_filter.mp hmem).2
  rw [camelCase] at h
  split at h
  · simp at h
  · next first others heq =>
      rw [heq] at hwords
      rcases List.mem_append.mp h with hfirst | hothers
      · obtain ⟨d, hd, rfl⟩ := List.mem_map.mp hfirst
        exact isKeyChar_toLower (hwords first List.mem_cons_self d hd)
      · obtain ⟨word, hword, hc⟩ := List.mem_flatMap.mp hothers
        exact isKeyChar_of_mem_capitalized (hwords word (List.mem_cons_of_mem first hword)) c hc

theorem camelCase_eq_nil_iff {text : List Char} :
    camelCase text = [] ↔ ∀ c ∈ text, isKeyChar c = false := by
  rw [← List.length_eq_zero_iff, length_camelCase, List.length_eq_zero_iff, List.filter_eq_nil_iff]
  simp

/-! ### Keys -/

namespace KeyGenerator

/-- A text in which something counts does not have the key of one in which nothing does. -/
theorem camelCase_ne_trim {a b : List Char} (ha : camelCase a ≠ []) (hb : camelCase b = []) :
    camelCase a ≠ Text.trim b := by
  intro heq
  obtain ⟨c, hc⟩ := List.exists_mem_of_ne_nil _ ha
  have hkey := isKeyChar_of_mem_camelCase hc
  rw [heq] at hc
  rw [camelCase_eq_nil_iff.mp hb c (Text.mem_of_mem_trim hc)] at hkey
  contradiction

/-- Two texts have one key if they agree in camel case or, where nothing of them counts, without the
white space at their ends. -/
theorem baseKey_eq_iff {a b : String} :
    baseKey a = baseKey b ↔ camelCase a.toList = camelCase b.toList ∧
      (camelCase a.toList = [] → Text.trim a.toList = Text.trim b.toList) := by
  simp only [baseKey, Text.trimString, List.isEmpty_iff]
  by_cases ha : camelCase a.toList = []
  · by_cases hb : camelCase b.toList = []
    · rw [if_pos ha, if_pos hb, String.ofList_inj]
      simp [ha, hb]
    · rw [if_pos ha, if_neg hb, String.ofList_inj]
      simp only [ha]
      exact iff_of_false (camelCase_ne_trim hb ha).symm (fun h => hb h.1.symm)
  · by_cases hb : camelCase b.toList = []
    · rw [if_neg ha, if_pos hb, String.ofList_inj]
      exact iff_of_false (camelCase_ne_trim ha hb) (fun h => ha (h.1.trans hb))
    · rw [if_neg ha, if_neg hb, String.ofList_inj]
      simp [ha]

theorem generatedKey_eq_iff (g : KeyGenerator) {a b : String} :
    g.generatedKey a = g.generatedKey b ↔ baseKey a = baseKey b := by
  simp only [generatedKey]
  split
  · next p _ => exact String.append_right_inj (p ++ ".")
  · rfl

end KeyGenerator

end Localization

/-! ## Maps of generated keys -/

namespace Localization

namespace KeyGenerator

/-- The texts of a run of calls with the keys that are given for them, and the map after the last
call. -/
def keysFor (g : KeyGenerator) : List String → KeyMap → List (String × String) × KeyMap
  | [], keys => ([], keys)
  | text :: rest, keys =>
    let (key, keys) := g.keyFor text keys
    let (others, keys) := g.keysFor rest keys
    ((text, key) :: others, keys)

theorem keysFor_cons {g : KeyGenerator} (hg : g.enabled = true) (text : String)
    (rest : List String) (keys : KeyMap) :
    g.keysFor (text :: rest) keys =
      ((text, g.generatedKey text) ::
          (g.keysFor rest (keys.insert (g.generatedKey text) text)).1,
        (g.keysFor rest (keys.insert (g.generatedKey text) text)).2) := by
  simp only [keysFor, keyFor, hg, if_true]

theorem fst_keysFor {g : KeyGenerator} (hg : g.enabled = true) (texts : List String)
    (keys : KeyMap) :
    (g.keysFor texts keys).1 = texts.map fun text => (text, g.generatedKey text) := by
  induction texts generalizing keys with
  | nil => rfl
  | cons text rest ih => rw [keysFor_cons hg, ih, List.map_cons]

/-- A call is the last one of a run with its key. -/
def IsLast (call : String × String) (calls : List (String × String)) : Prop :=
  ∃ before after, calls = before ++ call :: after ∧ ∀ later ∈ after, later.2 ≠ call.2

/-- After a run, a key stands for the text of the last call that gave it, or the run did not give it. -/
theorem exists_last_or_get? {g : KeyGenerator} (hg : g.enabled = true) (key : String)
    (texts : List String) (keys : KeyMap) :
    (∃ last, IsLast last (g.keysFor texts keys).1 ∧ last.2 = key ∧
        (g.keysFor texts keys).2.get? key = some last.1) ∨
      (∀ call ∈ (g.keysFor texts keys).1, call.2 ≠ key) ∧
        (g.keysFor texts keys).2.get? key = keys.get? key := by
  induction texts generalizing keys with
  | nil => exact .inr ⟨by simp [keysFor], rfl⟩
  | cons text rest ih =>
      rw [keysFor_cons hg]
      rcases ih (keys.insert (g.generatedKey text) text) with
        ⟨last, ⟨before, after, hcalls, hafter⟩, hkey, hget⟩ | ⟨hnone, hget⟩
      · refine .inl ⟨last, ⟨(text, g.generatedKey text) :: before, after, ?_, hafter⟩, hkey, hget⟩
        rw [hcalls, List.cons_append]
      · rw [OrderedMap.get?_insert] at hget
        by_cases hkey : key = g.generatedKey text
        · rw [if_pos hkey] at hget
          refine .inl ⟨_, ⟨[], _, rfl, ?_⟩, hkey.symm, hget⟩
          intro later hlater
          rw [← hkey]
          exact hnone later hlater
        · rw [if_neg hkey] at hget
          refine .inr ⟨?_, hget⟩
          intro call hcall
          rcases List.mem_cons.mp hcall with rfl | hrest
          · exact fun h => hkey h.symm
          · exact hnone call hrest

theorem key_eq_iff {g : KeyGenerator} (hg : g.enabled = true) {texts : List String} {keys : KeyMap}
    {call other : String × String} (hcall : call ∈ (g.keysFor texts keys).1)
    (hother : other ∈ (g.keysFor texts keys).1) :
    call.2 = other.2 ↔ baseKey call.1 = baseKey other.1 := by
  rw [fst_keysFor hg] at hcall hother
  obtain ⟨a, -, rfl⟩ := List.mem_map.mp hcall
  obtain ⟨b, -, rfl⟩ := List.mem_map.mp hother
  exact g.generatedKey_eq_iff

/-- After a run of calls, each key that was given stands for the text of the last call that gave it. So
every text is kept exactly if no two different texts of the run agree in camel case or, where nothing of
them counts for a key, without the white space at their ends. -/
theorem keysFor_keeps_last {g : KeyGenerator} (hg : g.enabled = true) (texts : List String)
    (keys : KeyMap) {calls : List (String × String)} {final : KeyMap}
    (hrun : g.keysFor texts keys = (calls, final)) :
    calls.map Prod.fst = texts ∧
      (∀ call ∈ calls, ∃ last, IsLast last calls ∧ last.2 = call.2 ∧
        final.get? call.2 = some last.1) ∧
      ((∀ call ∈ calls, final.get? call.2 = some call.1) ↔
        ∀ call ∈ calls, ∀ other ∈ calls,
          camelCase call.1.toList = camelCase other.1.toList →
          (camelCase call.1.toList = [] →
            Text.trim call.1.toList = Text.trim other.1.toList) →
          call.1 = other.1) := by
  obtain ⟨rfl, rfl⟩ : (g.keysFor texts keys).1 = calls ∧ (g.keysFor texts keys).2 = final := by
    rw [hrun]
    exact ⟨rfl, rfl⟩
  have hlast : ∀ call ∈ (g.keysFor texts keys).1, ∃ last, IsLast last (g.keysFor texts keys).1 ∧
      last.2 = call.2 ∧ (g.keysFor texts keys).2.get? call.2 = some last.1 := by
    intro call hcall
    rcases exists_last_or_get? hg call.2 texts keys with hlast | ⟨hnone, -⟩
    · exact hlast
    · exact absurd rfl (hnone call hcall)
  refine ⟨by simp [fst_keysFor hg, Function.comp_def], hlast, ?_⟩
  constructor
  · intro hkept call hcall other hother hcamel htrim
    have hkey := (key_eq_iff hg hcall hother).mpr (baseKey_eq_iff.mpr ⟨hcamel, htrim⟩)
    have hsame := hkept call hcall
    rw [hkey, hkept other hother] at hsame
    exact (Option.some.inj hsame).symm
  · intro hdistinct call hcall
    obtain ⟨last, hislast, hkey, hget⟩ := hlast call hcall
    have hmem : last ∈ (g.keysFor texts keys).1 := by
      obtain ⟨before, after, hcalls, -⟩ := hislast
      rw [hcalls]
      simp
    obtain ⟨hcamel, htrim⟩ := baseKey_eq_iff.mp ((key_eq_iff hg hcall hmem).mp hkey.symm)
    rw [hget, hdistinct call hcall last hmem hcamel htrim]

/-- Three texts of which the first and the last have one key. -/
def greetings : List String :=
  ["Hello World", "Save", "hello, world!"]

/-- Of two texts with one key the later one is kept. -/
theorem keysFor_keeps_last_of_greetings :
    ∃ calls final, (make true (some "home")).keysFor greetings OrderedMap.empty = (calls, final) ∧
      (make true (some "home")).enabled = true ∧
      calls = [("Hello World", "home.helloWorld"), ("Save", "home.save"),
        ("hello, world!", "home.helloWorld")] ∧
      final.get? "home.helloWorld" = some "hello, world!" ∧
      ¬ ∀ call ∈ calls, final.get? call.2 = some call.1 := by
  obtain ⟨-, -, hkept⟩ := keysFor_keeps_last (g := make true (some "home")) rfl greetings
    OrderedMap.empty rfl
  refine ⟨_, _, rfl, rfl, by decide +kernel, by decide +kernel, ?_⟩
  rw [hkept]
  decide +kernel

/-- A text is lost when a later one has its key. -/
theorem keysFor_not_always_keeps :
    ¬ ∀ (g : KeyGenerator) (texts : List String) (keys : KeyMap), g.enabled = true →
      ∀ call ∈ (g.keysFor texts keys).1,
        (g.keysFor texts keys).2.get? call.2 = some call.1 := by
  intro hall
  have hkept := hall (make true none) ["Hello World", "hello world"] OrderedMap.empty rfl
    ("Hello World", "helloWorld") (by decide +kernel)
  revert hkept
  decide +kernel

end KeyGenerator

end Localization
