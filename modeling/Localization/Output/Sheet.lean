/-!
Sheets of comma-separated values. A field that holds a comma, a quote or a line end is quoted, and a
quote inside a quoted field is written twice.
-/

namespace Localization.Sheet

def needsQuotes (c : Char) : Bool :=
  c == ',' || c == '\x22' || c == '\n' || c == '\r'

/-- The written form of a character in a quoted field. -/
def quotedChar (c : Char) : List Char :=
  if c = '\x22' then ['\x22', '\x22'] else [c]

def field (text : List Char) : List Char :=
  if text.any needsQuotes then '\x22' :: text.flatMap quotedChar ++ ['\x22'] else text

/-- The written form of the fields behind the first one, and of the line end behind them. -/
def moreFields : List String → List Char
  | [] => ['\n']
  | f :: rest => ',' :: field f.toList ++ moreFields rest

def record : List String → List Char
  | [] => ['\n']
  | f :: rest => field f.toList ++ moreFields rest

def render (records : List (List String)) : List Char :=
  records.flatMap record

end Localization.Sheet
