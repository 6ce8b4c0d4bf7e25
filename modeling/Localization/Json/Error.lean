import Localization.Json.Value
import Localization.Text.Quoted

/-!
Why a JSON text is refused.
-/

namespace Localization.Json

/-- What was found where something else was expected. -/
inductive Unexpected where
  | null
  | bool (b : Bool)
  | number (n : JsonNumber)
  | string (s : String)
  | array
  | object
  deriving DecidableEq, Repr

def Unexpected.text : Unexpected → String
  | null => "null"
  | bool true => "boolean \x60true\x60"
  | bool false => "boolean \x60false\x60"
  | number (.float s x) => "floating point \x60" ++ (JsonNumber.float s x).render ++ "\x60"
  | number n => "integer \x60" ++ n.render ++ "\x60"
  | string s => "string " ++ Text.quotedInMessage s
  | array => "sequence"
  | object => "map"

/-- What is wrong with a text. -/
inductive Fault where
  | arrayUnclosed
  | objectUnclosed
  | stringUnclosed
  | valueMissing
  | expectedColon
  | expectedArrayComma
  | expectedObjectComma
  | expectedWord
  | expectedValue
  | invalidEscape
  | invalidNumber
  | numberOutOfRange
  | controlCharacter
  | keyNotString
  | loneSurrogate
  | trailingComma
  | trailingCharacters
  | surrogateUnfinished
  | tooDeep
  | invalidType (found : Unexpected) (expected : String)
  | unknownVariant (found : String) (expected : List String)
  | duplicateField (name : String)
  deriving DecidableEq, Repr

/-- Names in a sentence: each in backticks, the last two joined by `or`. -/
def alternatives : List String → String
  | [] => ""
  | [a] => "\x60" ++ a ++ "\x60"
  | [a, b] => "\x60" ++ a ++ "\x60 or \x60" ++ b ++ "\x60"
  | a :: rest => "\x60" ++ a ++ "\x60, " ++ alternatives rest

def Fault.message : Fault → String
  | .arrayUnclosed => "EOF while parsing a list"
  | .objectUnclosed => "EOF while parsing an object"
  | .stringUnclosed => "EOF while parsing a string"
  | .valueMissing => "EOF while parsing a value"
  | .expectedColon => "expected \x60:\x60"
  | .expectedArrayComma => "expected \x60,\x60 or \x60]\x60"
  | .expectedObjectComma => "expected \x60,\x60 or \x60\x7d\x60"
  | .expectedWord => "expected ident"
  | .expectedValue => "expected value"
  | .invalidEscape => "invalid escape"
  | .invalidNumber => "invalid number"
  | .numberOutOfRange => "number out of range"
  | .controlCharacter =>
    "control character (\\u0000-\\u001F) found while parsing a string"
  | .keyNotString => "key must be a string"
  | .loneSurrogate => "lone leading surrogate in hex escape"
  | .trailingComma => "trailing comma"
  | .trailingCharacters => "trailing characters"
  | .surrogateUnfinished => "unexpected end of hex escape"
  | .tooDeep => "recursion limit exceeded"
  | .invalidType found expected => "invalid type: " ++ found.text ++ ", expected " ++ expected
  | .unknownVariant found expected =>
    "unknown variant \x60" ++ found ++ "\x60, expected " ++ alternatives expected
  | .duplicateField name => "duplicate field \x60" ++ name ++ "\x60"

/-- A fault and its place. Lines count from one; the column is the number of bytes up to the place. -/
structure Error where
  fault : Fault
  line : Nat
  column : Nat
  deriving DecidableEq, Repr

def Error.message (e : Error) : String :=
  e.fault.message ++ " at line " ++ toString e.line ++ " column " ++ toString e.column

end Localization.Json
