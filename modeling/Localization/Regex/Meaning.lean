import Localization.Regex.Parser
import Localization.Regex.Size

/-!
What a written regular expression means: flags are applied and names of properties are looked up.
Main definition: `Regex.ofPattern?`.
-/

namespace Localization.Regex

/-- The flags in force at a place of a pattern. -/
structure Mode where
  ignoreCase : Bool
  multiLine : Bool
  dotMatchesNewline : Bool
  unicode : Bool
  crlf : Bool
  deriving DecidableEq, Repr

def Mode.initial : Mode :=
  ⟨false, false, false, true, false⟩

def Mode.change (m : Mode) (change : Flag × Bool) : Mode :=
  match change.1 with
  | .ignoreCase => { m with ignoreCase := change.2 }
  | .multiLine => { m with multiLine := change.2 }
  | .dotMatchesNewline => { m with dotMatchesNewline := change.2 }
  | .unicode => { m with unicode := change.2 }
  | .crlf => { m with crlf := change.2 }
  | .swapGreed | .ignoreWhitespace => m

/-! ## Sets -/

def asciiRanges (ranges : List (Char × Char)) : CharSet :=
  CharSet.ofList (ranges.map fun r => .range r.1.toNat r.2.toNat)

def AsciiClass.set : AsciiClass → CharSet
  | .alnum => asciiRanges [('0', '9'), ('A', 'Z'), ('a', 'z')]
  | .alpha => asciiRanges [('A', 'Z'), ('a', 'z')]
  | .ascii => .range 0 0x7F
  | .blank => asciiRanges [('\t', '\t'), (' ', ' ')]
  | .cntrl => .union (.range 0 0x1F) (.range 0x7F 0x7F)
  | .digit => asciiRanges [('0', '9')]
  | .graph => asciiRanges [('!', '~')]
  | .lower => asciiRanges [('a', 'z')]
  | .print => asciiRanges [(' ', '~')]
  | .punct => asciiRanges [('!', '/'), (':', '@'), ('[', '\x60'), ('\x7b', '~')]
  | .space => asciiRanges [('\t', '\r'), (' ', ' ')]
  | .upper => asciiRanges [('A', 'Z')]
  | .word => asciiRanges [('0', '9'), ('A', 'Z'), ('_', '_'), ('a', 'z')]
  | .xdigit => asciiRanges [('0', '9'), ('A', 'F'), ('a', 'f')]

def Mode.word (m : Mode) : CharSet :=
  if m.unicode then .named .word else AsciiClass.word.set

/-- The set that `\d`, `\s` or `\w` names. -/
def Mode.named (m : Mode) (s : NamedSet) : CharSet :=
  if m.unicode then .named s
  else
    match s with
    | .digit => AsciiClass.digit.set
    | .space => AsciiClass.space.set
    | _ => AsciiClass.word.set

/-- A name of a property without case, blanks, hyphens, low lines and a leading `is`. -/
def looseName (text : String) : String :=
  let kept := text.toList.filter fun c => !(c = ' ' || c = '_' || c = '-')
  let lower := kept.map Char.toLower
  String.ofList (if lower.take 2 = ['i', 's'] && lower != ['i', 's', 'c'] then lower.drop 2 else lower)

def categories : List (String × CharSet) :=
  [("l", .named .letter), ("letter", .named .letter), ("lu", .named .upperCase),
    ("uppercaseletter", .named .upperCase), ("ll", .named .lowerCase),
    ("lowercaseletter", .named .lowerCase), ("m", .named .mark), ("mark", .named .mark),
    ("combiningmark", .named .mark), ("n", .named .number), ("number", .named .number),
    ("nd", .named .digit), ("decimalnumber", .named .digit), ("digit", .named .digit),
    ("p", .named .punctuation), ("punctuation", .named .punctuation),
    ("punct", .named .punctuation), ("s", .named .symbol), ("symbol", .named .symbol),
    ("z", .named .separator), ("separator", .named .separator), ("any", .range 0 0x10FFFF),
    ("ascii", .range 0 0x7F)]

def scripts : List (String × CharSet) :=
  [("hangul", .named .hangul), ("hang", .named .hangul), ("han", .named .han),
    ("hani", .named .han), ("hiragana", .named .hiragana), ("hira", .named .hiragana),
    ("katakana", .named .katakana), ("kana", .named .katakana), ("latin", .named .latin),
    ("latn", .named .latin), ("greek", .named .greek), ("grek", .named .greek),
    ("cyrillic", .named .cyrillic), ("cyrl", .named .cyrillic)]

/-- Properties that a character has or has not. -/
def binaryProperties : List (String × CharSet) :=
  [("alphabetic", .named .letter), ("alpha", .named .letter), ("uppercase", .named .upperCase),
    ("upper", .named .upperCase), ("lowercase", .named .lowerCase), ("lower", .named .lowerCase),
    ("whitespace", .named .space), ("wspace", .named .space), ("space", .named .space)]

def propertySet (name : PropertyName) : Except Fault CharSet :=
  match name with
  | .name text =>
    match (binaryProperties ++ categories ++ scripts).lookup (looseName text) with
    | some s => .ok s
    | none => .error .propertyNotFound
  | .value property text =>
    let table :=
      match looseName property with
      | "gc" | "generalcategory" => some categories
      | "sc" | "script" | "scx" | "scriptextensions" => some scripts
      | _ => none
    match table with
    | none => .error .propertyNotFound
    | some entries =>
      match entries.lookup (looseName text) with
      | some s => .ok s
      | none => .error .propertyValueNotFound

/-- A set with the case of letters left out of account, if the mode says so, and negated. -/
def Mode.finish (m : Mode) (negated : Bool) (s : CharSet) : CharSet :=
  let s := if m.ignoreCase then .anyCase s else s
  if negated then .complement s else s

/-- Refuses a negated set where patterns are not about characters. -/
def Mode.checked (m : Mode) (negated : Bool) (place : Range) (s : CharSet) :
    Except Refusal CharSet :=
  if negated && !m.unicode then .error ⟨.invalidText, place, none⟩ else .ok s

/-- Refuses a written byte that is no character where patterns are not about characters. -/
def Mode.checkedByte (m : Mode) (c : Letter) : Except Refusal Unit :=
  if !m.unicode && c.isByte && 0x7F < c.char.toNat then .error ⟨.invalidText, c.place, none⟩
  else .ok ()

/-- Refuses characters beyond ASCII in sets where patterns are not about characters. -/
def Mode.checkedLetter (m : Mode) (c : Letter) : Except Refusal Unit := do
  m.checkedByte c
  if !m.unicode && 0x7F < c.char.toNat then .error ⟨.notUnicode, c.place, none⟩ else .ok ()

def Mode.set (m : Mode) : SetSyntax → Except Refusal CharSet
  | .range lo hi => do
    m.checkedLetter lo
    m.checkedLetter hi
    .ok (.range lo.char.toNat hi.char.toNat)
  | .ascii c negated => .ok (m.finish negated c.set)
  | .named s negated place =>
    m.checked negated place (if negated then .complement (m.named s) else m.named s)
  | .property name negated place =>
    if !m.unicode then .error ⟨.notUnicode, place, none⟩
    else
      match propertySet name with
      | .ok s => .ok (m.finish negated s)
      | .error fault => .error ⟨fault, place, none⟩
  | .none => .ok .none
  | .union a b => do
    let a ← m.set a
    let b ← m.set b
    .ok (.union a b)
  | .intersection a b => do
    let a ← m.set a
    let b ← m.set b
    .ok (.intersection (m.finish false a) (m.finish false b))
  | .difference a b => do
    let a ← m.set a
    let b ← m.set b
    .ok (.difference (m.finish false a) (m.finish false b))
  | .symmetricDifference a b => do
    let a ← m.set a
    let b ← m.set b
    .ok (.symmetricDifference (m.finish false a) (m.finish false b))
  | .bracketed negated inside place => do
    let s ← m.set inside
    m.checked negated place (m.finish negated s)

/-! ## Expressions -/

def Mode.assertion (m : Mode) : AssertionSyntax → Assertion
  | .lineStart =>
    if !m.multiLine then .textStart else if m.crlf then .anyLineStart else .lineStart
  | .lineEnd =>
    if !m.multiLine then .textEnd else if m.crlf then .anyLineEnd else .lineEnd
  | .fixed a => a

def Mode.dot (m : Mode) : CharSet :=
  if m.dotMatchesNewline then .all
  else if m.crlf then .complement (.union (.single '\n') (.single '\r'))
  else .complement (.single '\n')

/-- What a written expression means, and the flags behind it. -/
def meaning : Written → Mode → Except Refusal (Regex × Mode)
  | .empty, m => .ok (.empty, m)
  | .literal c, m => do
    m.checkedByte c
    .ok (.one (m.finish false (.single c.char)), m)
  | .dot place, m =>
    if m.unicode then .ok (.one m.dot, m) else .error ⟨.invalidText, place, none⟩
  | .assertion a, m => .ok (.assertion (m.assertion a) m.word, m)
  | .set s, m => do
    let s ← m.set s
    .ok (.one s, m)
  | .repetition least most r, m => do
    let (r, m) ← meaning r m
    let more :=
      match most with
      | none => .star r
      | some n => r.upTo (n - least)
    .ok (.seq (r.times least) more, m)
  | .group flags r, m => do
    let (r, _) ← meaning r (flags.foldl Mode.change m)
    .ok (r, m)
  | .flags changes, m => .ok (.empty, changes.foldl Mode.change m)
  | .seq a b, m => do
    let (a, m) ← meaning a m
    let (b, m) ← meaning b m
    .ok (.seq a b, m)
  | .alt a b, m => do
    let (a, m) ← meaning a m
    let (b, m) ← meaning b m
    .ok (.alt a b, m)

/-- Why a pattern gives no regular expression. -/
inductive Rejection where
  | refused (e : Refusal)
  /-- Written out, the expression takes more memory than it may. -/
  | tooLarge
  deriving DecidableEq, Repr

def Rejection.message (pattern : String) : Rejection → String
  | .refused e => e.message pattern
  | .tooLarge => "Compiled regex exceeds size limit of " ++ toString weightLimit ++ " bytes."

/-- The regular expression that a pattern writes. Repetitions are written out only if the result keeps
to the limit. -/
def ofPattern? (text : String) : Except Rejection Regex := do
  let written ← (parse? text.toList).mapError .refused
  let tooLarge := weightLimit < written.weight
  let (r, _) ← (meaning (if tooLarge then written.once else written) Mode.initial).mapError .refused
  if tooLarge then .error .tooLarge else .ok r

end Localization.Regex
