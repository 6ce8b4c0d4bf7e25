import Localization.Proofs.Key.Generated
import Mathlib

/-!
What a key in camel case does not depend on: other characters between the ones that count, the case of ASCII
letters, and how much white space stands between words or at the ends. Main statement:
`camelCase_ignores_spelling`.
-/

namespace Localization

/-! ## Words -/

namespace Text

variable {front back run : List Char} {c : Char}

theorem wordsFrom_append_blank (h : isBlank c = true) (word front back : List Char) :
    wordsFrom word (front ++ c :: back) = wordsFrom word front ++ words back := by
  induction front generalizing word with
  | nil =>
      simp only [List.nil_append, wordsFrom, h, if_true]
      cases word with
      | nil => rfl
      | cons d word => rfl
  | cons d front ih =>
      rw [List.cons_append, wordsFrom, wordsFrom]
      split
      · split
        · exact ih []
        · rw [ih [], List.cons_append]
      · exact ih (d :: word)

/-- White space parts words. All that is shown about words follows from this and from what a word is. -/
theorem words_append_blank (h : isBlank c = true) (front back : List Char) :
    words (front ++ c :: back) = words front ++ words back :=
  wordsFrom_append_blank h [] front back

theorem words_blanks_append (h : ∀ c ∈ run, isBlank c = true) (text : List Char) :
    words (run ++ text) = words text := by
  induction run with
  | nil => rfl
  | cons c run ih =>
      have hfirst := words_append_blank (h c List.mem_cons_self) [] (run ++ text)
      rw [List.nil_append] at hfirst
      rw [List.cons_append, hfirst, ih fun d hd => h d (List.mem_cons_of_mem c hd)]
      rfl

theorem words_append_blanks (hrun : run ≠ []) (h : ∀ c ∈ run, isBlank c = true)
    (front back : List Char) : words (front ++ (run ++ back)) = words front ++ words back := by
  obtain ⟨c, more, rfl⟩ := List.exists_cons_of_ne_nil hrun
  rw [List.cons_append, words_append_blank (h c List.mem_cons_self),
    words_blanks_append fun d hd => h d (List.mem_cons_of_mem c hd)]

theorem ne_nil_of_mem_wordsFrom {word cs w : List Char} (h : w ∈ wordsFrom word cs) : w ≠ [] := by
  induction cs generalizing word with
  | nil =>
      rw [wordsFrom] at h
      split at h
      · contradiction
      · next hword =>
          rw [List.mem_singleton.mp h]
          simpa using hword
  | cons d rest ih =>
      rw [wordsFrom] at h
      split at h
      · split at h
        · exact ih h
        · next hword =>
            rcases List.mem_cons.mp h with rfl | hrest
            · simpa using hword
            · exact ih hrest
      · exact ih h

/-- What tells words apart from each other stays when characters are changed that are not blank. -/
theorem wordsFrom_map {f : Char → Char} (hf : ∀ c, isBlank (f c) = isBlank c) (word cs : List Char) :
    wordsFrom (word.map f) (cs.map f) = (wordsFrom word cs).map (List.map f) := by
  induction cs generalizing word with
  | nil => cases word <;> simp [wordsFrom]
  | cons c rest ih =>
      rw [List.map_cons, wordsFrom, wordsFrom, hf]
      split
      · cases word with
        | nil => exact ih []
        | cons d word => simpa using ih []
      · exact ih (c :: word)

end Text

/-! ## The case of letters -/

theorem isBlank_toLower (c : Char) : Text.isBlank c.toLower = Text.isBlank c := by
  simp only [Text.isBlank, toNat_toLower]
  split
  · grind
  · rfl

theorem countsForKey_toLower (c : Char) : countsForKey c.toLower = countsForKey c := by
  simp only [countsForKey, isBlank_toLower, isLatinOrDigit, Text.isHangul, toNat_toLower]
  split
  · grind
  · rfl

theorem capitalized_map_toLower (word : List Char) :
    capitalized (word.map Char.toLower) = capitalized word := by
  cases word with
  | nil => rfl
  | cons c rest => simp [capitalized]

/-! ## Texts with one key -/

theorem camelCase_congr {a b : List Char} (h : a.filter countsForKey = b.filter countsForKey) :
    camelCase a = camelCase b := by
  rw [camelCase, camelCase, h]

theorem camelCase_congr_words {a b : List Char}
    (h : Text.words (a.filter countsForKey) = Text.words (b.filter countsForKey)) :
    camelCase a = camelCase b := by
  rw [camelCase, camelCase, h]

theorem camelCase_map_toLower (text : List Char) :
    camelCase (text.map Char.toLower) = camelCase text := by
  have hfilter : (text.map Char.toLower).filter countsForKey =
      (text.filter countsForKey).map Char.toLower := by
    rw [List.filter_map]
    congr 2
    funext c
    exact countsForKey_toLower c
  have hwords : Text.words ((text.filter countsForKey).map Char.toLower) =
      (Text.words (text.filter countsForKey)).map (List.map Char.toLower) :=
    Text.wordsFrom_map isBlank_toLower [] _
  rw [camelCase, camelCase, hfilter, hwords]
  cases Text.words (text.filter countsForKey) with
  | nil => rfl
  | cons first others =>
      simp [List.flatMap_map, capitalized_map_toLower]

theorem filter_blanks {run : List Char} (h : ∀ c ∈ run, Text.isBlank c = true) :
    run.filter countsForKey = run := by
  rw [List.filter_eq_self]
  intro c hc
  rw [countsForKey, h c hc, Bool.or_true]

/-- One change of a text that does not count for its key. `Char.toLower` changes letters of ASCII only. -/
inductive Respelled : List Char → List Char → Prop
  | noise (front back : List Char) {c : Char} (h : countsForKey c = false) :
      Respelled (front ++ c :: back) (front ++ back)
  | letterCase (front back : List Char) {c d : Char} (h : c.toLower = d.toLower) :
      Respelled (front ++ c :: back) (front ++ d :: back)
  | gap (front run other back : List Char) (hrun : run ≠ []) (hother : other ≠ [])
      (hblank : ∀ c ∈ run ++ other, Text.isBlank c = true) :
      Respelled (front ++ (run ++ back)) (front ++ (other ++ back))
  | leading (run text : List Char) (h : ∀ c ∈ run, Text.isBlank c = true) :
      Respelled text (run ++ text)
  | trailing (text run : List Char) (h : ∀ c ∈ run, Text.isBlank c = true) :
      Respelled text (text ++ run)

theorem camelCase_of_respelled {a b : List Char} (h : Respelled a b) : camelCase a = camelCase b := by
  cases h with
  | noise front back hc =>
      apply camelCase_congr
      simp [hc]
  | letterCase front back hcase =>
      rw [← camelCase_map_toLower, ← camelCase_map_toLower (_ ++ _)]
      simp [hcase]
  | gap front run other back hrun hother hblank =>
      obtain ⟨hrunBlank, hotherBlank⟩ := List.forall_mem_append.mp hblank
      apply camelCase_congr_words
      rw [List.filter_append, List.filter_append, List.filter_append, List.filter_append,
        filter_blanks hrunBlank, filter_blanks hotherBlank, Text.words_append_blanks hrun hrunBlank,
        Text.words_append_blanks hother hotherBlank]
  | leading run _ hblank =>
      apply camelCase_congr_words
      rw [List.filter_append, filter_blanks hblank, Text.words_blanks_append hblank]
  | trailing _ run hblank =>
      apply camelCase_congr_words
      rw [List.filter_append, filter_blanks hblank]
      by_cases hrun : run = []
      · rw [hrun, List.append_nil]
      · have hparted := Text.words_append_blanks hrun hblank (a.filter countsForKey) []
        rw [List.append_nil] at hparted
        rw [hparted]
        exact (List.append_nil _).symm

/-- However often a text is respelled, there and back. -/
theorem camelCase_of_eqvGen {a b : List Char} (h : Relation.EqvGen Respelled a b) :
    camelCase a = camelCase b := by
  induction h with
  | rel a b hstep => exact camelCase_of_respelled hstep
  | refl a => rfl
  | symm a b _ ih => exact ih.symm
  | trans a b c _ _ ihab ihbc => exact ihab.trans ihbc

theorem isUpper_of_mem_head? {text : List Char} : ∀ c ∈ (camelCase text).head?, c.isUpper = false := by
  intro c hc
  rw [camelCase] at hc
  split at hc
  · contradiction
  · next first others hwords =>
      -- No word is empty, so the key begins with the first character of the first word.
      have hfirst : first ∈ Text.words (text.filter countsForKey) := hwords ▸ List.mem_cons_self
      obtain ⟨d, rest, rfl⟩ := List.exists_cons_of_ne_nil (Text.ne_nil_of_mem_wordsFrom hfirst)
      obtain rfl := Option.some.inj hc
      exact Char.isUpper_toLower_eq_false d

/-! ## Empty keys -/

namespace KeyGenerator

theorem baseKey_eq_empty_iff {text : String} :
    baseKey text = "" ↔ ∀ c ∈ text.toList, Text.isBlank c = true := by
  rw [baseKey]
  by_cases hkey : camelCase text.toList = []
  · simp only [hkey, List.isEmpty_nil, if_true, Text.trimString]
    rw [String.ofList_eq_empty_iff, Text.trim_eq_nil_iff]
  · simp only [List.isEmpty_iff, hkey, if_false, String.ofList_eq_empty_iff, false_iff]
    intro hblank
    apply hkey
    rw [camelCase_eq_nil_iff]
    intro c hc
    cases hcounts : isKeyChar c with
    | false => rfl
    | true =>
        have hkept := isBlank_of_isKeyChar hcounts
        rw [hblank c hc] at hkept
        contradiction

theorem keyFor_eq_empty_iff {g : KeyGenerator} (hg : g.enabled = true) {text : String}
    {keys : KeyMap} : (g.keyFor text keys).1 = "" ↔
      g.keyPrefix = none ∧ ∀ c ∈ text.toList, Text.isBlank c = true := by
  simp only [keyFor, hg, if_true, generatedKey]
  split
  -- Behind what stands in front of a key there is a dot.
  · next p hfront => simp [hfront]
  · next hprefix => rw [baseKey_eq_empty_iff, hprefix, eq_self_iff_true, true_and]

end KeyGenerator

/-! ## All texts -/

/-- A key in camel case has letters and digits of ASCII and Hangul syllables only, no capital in front, and is
empty exactly if nothing of that kind is in the text. It stays as it is when other characters come or go, when
letters of ASCII change case, and when white space grows or shrinks without parting or joining words. So a
generated key is empty exactly if nothing stands in front of keys and the text is white space throughout. -/
theorem camelCase_ignores_spelling (text : String) :
    (∀ c ∈ camelCase text.toList, isKeyChar c = true) ∧
      (∀ c ∈ (camelCase text.toList).head?, c.isUpper = false) ∧
      (camelCase text.toList = [] ↔ ∀ c ∈ text.toList, isKeyChar c = false) ∧
      (∀ other, Relation.EqvGen Respelled text.toList other →
        camelCase other = camelCase text.toList) ∧
      ∀ (g : KeyGenerator) (keys : KeyMap), g.enabled = true →
        ((g.keyFor text keys).1 = "" ↔
          g.keyPrefix = none ∧ ∀ c ∈ text.toList, Text.isBlank c = true) :=
  ⟨fun _ => isKeyChar_of_mem_camelCase, isUpper_of_mem_head?, camelCase_eq_nil_iff,
    fun _ h => (camelCase_of_eqvGen h).symm, fun _ _ hg => KeyGenerator.keyFor_eq_empty_iff hg⟩

/-- A comma, a capital, one blank for two and a blank in front. -/
theorem camelCase_ignores_spelling_of_capital :
    Relation.EqvGen Respelled "A, b".toList " a  b".toList ∧
      camelCase " a  b".toList = camelCase "A, b".toList ∧
      String.ofList (camelCase "A, b".toList) = "aB" ∧
      ((KeyGenerator.make true (some "home")).keyFor " \t" OrderedMap.empty).1 ≠ "" ∧
      ((KeyGenerator.make true none).keyFor " \t" OrderedMap.empty).1 = "" := by
  have hcomma : Respelled "A, b".toList "A b".toList := .noise ['A'] [' ', 'b'] rfl
  have hcase : Respelled "A b".toList "a b".toList := .letterCase [] [' ', 'b'] (by decide)
  have hgap : Respelled "a b".toList "a  b".toList :=
    .gap ['a'] [' '] [' ', ' '] ['b'] (by simp) (by simp) (List.all_eq_true.mp rfl)
  have hfront : Respelled "a  b".toList " a  b".toList := .leading [' '] "a  b".toList (List.all_eq_true.mp rfl)
  have h : Relation.EqvGen Respelled "A, b".toList " a  b".toList :=
    .trans _ _ _ (.rel _ _ hcomma) (.trans _ _ _ (.rel _ _ hcase)
      (.trans _ _ _ (.rel _ _ hgap) (.rel _ _ hfront)))
  obtain ⟨-, -, -, hsame, -⟩ := camelCase_ignores_spelling "A, b"
  obtain ⟨-, -, -, -, hempty⟩ := camelCase_ignores_spelling " \t"
  refine ⟨h, hsame _ h, by decide, ?_, ?_⟩
  · rw [Ne, hempty _ _ rfl]
    decide
  · rw [hempty _ _ rfl]
    exact ⟨rfl, List.all_eq_true.mp rfl⟩

end Localization
