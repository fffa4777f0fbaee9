/-
# Quoted text

The form in which messages show a piece of text: between double quotes, on one line, and
with every character visible.  A quote and a backslash get a backslash in front, the usual
controls have their letters, and any other character that has no printed form or would
attach to its neighbour is shown by its code point in hexadecimal.
-/
import RecordSchema.Text.Unprintable
import RecordSchema.Text.Combining

namespace RecordSchema

namespace Text

/-- A character by its code point, such as `\u{301}` for the combining acute accent. -/
def codePoint (c : Char) : String :=
  "\\u\x7b" ++ String.ofList (Nat.toDigits 16 c.toNat) ++ "\x7d"

/-- A character as it stands inside quoted text. -/
def escape (c : Char) : String :=
  if c = '"' then "\\\""
  else if c = '\\' then "\\\\"
  else if c = '\n' then "\\n"
  else if c = '\r' then "\\r"
  else if c = '\t' then "\\t"
  else if c = Char.ofNat 0 then "\\0"
  else if isCombining c || isUnprintable c then codePoint c
  else c.toString

/-- A text between double quotes. -/
def quoted (s : String) : String :=
  "\"" ++ String.join (s.toList.map escape) ++ "\""

/-- A list of texts, each quoted, between brackets. -/
def quotedList (texts : List String) : String :=
  "[" ++ ", ".intercalate (texts.map quoted) ++ "]"

end Text

end RecordSchema
