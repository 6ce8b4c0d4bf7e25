import Localization.Regex.Meaning

/-!
Which texts are translated: those in which a regular expression matches. There is one for Korean, one
for English and one for both.
-/

namespace Localization

/-- The scripts that count as text to be translated. -/
inductive TextMode where
  | korean
  | english
  | both
  deriving DecidableEq, Repr

namespace TextMode

/-- Without either script there would be nothing to look for, so Korean is used then. -/
def ofFlags (withKorean withEnglish : Bool) : TextMode :=
  if withEnglish then (if withKorean then both else english) else korean

def name : TextMode → String
  | korean => "korean"
  | english => "english"
  | both => "both"

/-- The pattern of a mode: a Hangul syllable, two Latin letters in a row, or either. -/
def pattern : TextMode → String
  | korean => "[가-힣]"
  | english => "[a-zA-Z]\x7b2,\x7d"
  | both => "[가-힣]|[a-zA-Z]\x7b2,\x7d"

end TextMode

/-- A test for texts to be translated. -/
structure Classifier where
  regex : Regex
  deriving Repr

namespace Classifier

def ofPattern? (pattern : String) : Except Regex.Rejection Classifier := do
  let regex ← Regex.ofPattern? pattern
  .ok ⟨regex⟩

/-- Whether a text is to be translated. -/
def accepts (c : Classifier) (text : String) : Bool :=
  c.regex.matchesIn text.toList

end Classifier

end Localization
