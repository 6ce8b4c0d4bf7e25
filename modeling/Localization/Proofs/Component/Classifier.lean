import Localization.Config.Stored
import Localization.Proofs.Component.Emitted
import Localization.Proofs.Regex.Matching

/-!
Which texts the modes accept. The patterns of the modes and the test for Hangul, which decides about the keys
of properties, agree. Main statement: `modes_accept`.
-/

namespace Localization

/-! ## The patterns of the modes -/

namespace TextMode

/-- The Hangul syllables, as the patterns list them. -/
def syllables : CharSet :=
  .union .none (.range 0xAC00 0xD7A3)

/-- The Latin letters, as the patterns list them. -/
def letters : CharSet :=
  .union (.union .none (.range 0x61 0x7A)) (.range 0x41 0x5A)

/-- Two Latin letters or more in a row. -/
def letterRow : Regex :=
  .seq (Regex.times (.one letters) 2) (.star (.one letters))

/-- The expression that the pattern of a mode writes. -/
def regex : TextMode → Regex
  | korean => .one syllables
  | english => letterRow
  | both => .alt (.one syllables) letterRow

theorem ofPattern?_pattern (mode : TextMode) : Regex.ofPattern? mode.pattern = .ok mode.regex := by
  cases mode <;> decide +kernel

end TextMode

theorem Classifier.load_mode (mode : TextMode) : load mode none = .ok ⟨mode.regex⟩ := by
  rw [load, Option.getD_none, ofPattern?, TextMode.ofPattern?_pattern]
  rfl

/-! ## Texts that are accepted -/

theorem contains_syllables (c : Char) : TextMode.syllables.contains c = Text.isHangul c := by
  simp [TextMode.syllables, CharSet.contains, Text.isHangul]

theorem contains_letters (c : Char) : TextMode.letters.contains c = c.isAlpha := by
  have halpha : c.isAlpha =
      (decide (65 ≤ c.val ∧ c.val ≤ 90) || (decide (97 ≤ c.val) && decide (c.val ≤ 122))) := rfl
  rw [halpha]
  simp [TextMode.letters, CharSet.contains, UInt32.le_iff_toNat_le, Bool.or_comm]

/-- Two Latin letters stand next to each other. -/
def HasLetterPair (text : List Char) : Prop :=
  ∃ before first second after, text = before ++ first :: second :: after ∧ first.isAlpha = true ∧
    second.isAlpha = true

theorem matchesIn_letterRow (text : List Char) :
    TextMode.letterRow.matchesIn text = true ↔ HasLetterPair text := by
  rw [Regex.matchesIn_iff]
  constructor
  · rintro ⟨before, part, after, rfl, row, more, rfl, ⟨_, _, rfl, ⟨c, rfl, hc⟩, _, _, rfl, ⟨d, rfl, hd⟩, rfl⟩, -⟩
    rw [contains_letters] at hc hd
    exact ⟨before, c, d, more ++ after, by simp, hc, hd⟩
  · rintro ⟨before, c, d, after, rfl, hc, hd⟩
    rw [← contains_letters] at hc hd
    refine ⟨before, [c, d], after, by simp, [c, d], [], rfl, ?_, .none⟩
    exact ⟨[c], [d], rfl, ⟨c, rfl, hc⟩, [d], [], rfl, ⟨d, rfl, hd⟩, rfl⟩

theorem Classifier.accepts_korean (text : String) :
    accepts ⟨TextMode.korean.regex⟩ text = Text.containsHangul text := by
  rw [accepts, TextMode.regex, Regex.matchesIn_one, Text.containsHangul, funext contains_syllables]

theorem Classifier.accepts_both (text : String) : accepts ⟨TextMode.both.regex⟩ text =
    (accepts ⟨TextMode.korean.regex⟩ text || accepts ⟨TextMode.english.regex⟩ text) := by
  simp only [accepts, TextMode.regex, Regex.matchesIn_alt]

/-! ## Keys of properties -/

namespace Literal

/-- The literals that are keys of properties. -/
def propertyKeys (literals : List Literal) : List Literal :=
  literals.filter fun l => l.site = .propertyKey

theorem containsHangul_of_ofNode? {source : List Char} {n : Source.Node} {l : Literal}
    (h : ofNode? source n = some l) (hsite : l.site = .propertyKey) : Text.containsHangul l.text = true := by
  rw [ofNode?] at h
  split at h
  · obtain rfl := Option.some.inj h
    contradiction
  · obtain rfl := Option.some.inj h
    contradiction
  · next value _ =>
      split at h
      · next hhangul =>
          obtain rfl := Option.some.inj h
          exact hhangul
      · contradiction
  · rw [ofElementText?] at h
    split at h
    · contradiction
    · obtain rfl := Option.some.inj h
      contradiction
  · contradiction

/-- If a classifier accepts what has Hangul, it keeps every key of a property that passes the test for
Hangul. -/
theorem propertyKeys_literals {classifier : Classifier} (source : List Char) (c : Candidate)
    (h : ∀ text, Text.containsHangul text = true → classifier.accepts text = true) :
    propertyKeys (c.literals source classifier) = propertyKeys (collect source false c.body) := by
  rw [propertyKeys, propertyKeys, Candidate.literals, List.filter_filter]
  refine List.filter_congr fun l hl => ?_
  by_cases hsite : l.site = .propertyKey
  · obtain ⟨way, -, hnode⟩ := exists_way_of_mem_collect false c.body l hl
    simp [hsite, h l.text (containsHangul_of_ofNode? hnode hsite)]
  · simp [hsite]

end Literal

/-- Every mode can be used. In Korean a text is accepted exactly if it has Hangul, in English exactly if two
Latin letters stand next to each other, and in both exactly if one of the two accepts it. So all keys of
properties that pass the test for Hangul are wrapped in Korean and in both. -/
theorem modes_accept :
    ∃ korean english both : Classifier, Classifier.load .korean none = .ok korean ∧
      Classifier.load .english none = .ok english ∧ Classifier.load .both none = .ok both ∧
      (∀ text, korean.accepts text = Text.containsHangul text) ∧
      (∀ text, Text.containsHangul text = true ↔
        ∃ c ∈ text.toList, 0xAC00 ≤ c.toNat ∧ c.toNat ≤ 0xD7A3) ∧
      (∀ text, english.accepts text = true ↔ HasLetterPair text.toList) ∧
      (∀ text, both.accepts text = (korean.accepts text || english.accepts text)) ∧
      ∀ (source : List Char) (c : Candidate),
        Literal.propertyKeys (c.literals source korean) =
            Literal.propertyKeys (Literal.collect source false c.body) ∧
          Literal.propertyKeys (c.literals source both) =
            Literal.propertyKeys (Literal.collect source false c.body) := by
  refine ⟨_, _, _, Classifier.load_mode .korean, Classifier.load_mode .english, Classifier.load_mode .both,
    Classifier.accepts_korean, ?_, ?_, Classifier.accepts_both, fun source c => ⟨?_, ?_⟩⟩
  · intro text
    simp [Text.containsHangul_iff, Text.isHangul]
  · exact fun text => matchesIn_letterRow text.toList
  · refine Literal.propertyKeys_literals source c fun text htext => ?_
    rw [Classifier.accepts_korean, htext]
  · refine Literal.propertyKeys_literals source c fun text htext => ?_
    rw [Classifier.accepts_both, Classifier.accepts_korean, htext, Bool.true_or]

end Localization
