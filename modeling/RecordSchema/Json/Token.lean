/-
# Tokens of JSON text

JSON text is a sequence of tokens with blanks between them: brackets, braces, commas, colons
and scalars.  `Token.scan?` cuts a text into its tokens, reading it once from left to right.
A scalar is complete in its token, so a number has its value and a string its escapes
resolved.  Text that is not made of tokens is refused.
-/
import RecordSchema.Json.Numeral

namespace RecordSchema

/-- A token of JSON text. -/
inductive Token where
  | openArray
  | closeArray
  | openObject
  | closeObject
  | comma
  | colon
  /-- A word, a number or a string, with its value. -/
  | scalar (value : Json)

namespace Token

/-- The token that has been begun, with the characters of it read so far, the last one first.
Inside a string an escape may be under way; `high` is then the first of a pair of escaped
units, whose second must follow at once. -/
inductive Partial where
  /-- None: the last token is complete. -/
  | nothing
  | word (read : List Char)
  | numeral (read : List Char)
  | text (read : List Char)
  /-- The first of a pair has been read, and a backslash must follow. -/
  | pair (read : List Char) (high : Nat)
  /-- A backslash has been read. -/
  | escape (read : List Char) (high : Option Nat)
  /-- Some of the four hexadecimal digits of a unit have been read. -/
  | unit (read : List Char) (high : Option Nat) (count : Nat) (value : Nat)

/-- The characters that separate tokens. -/
def isBlank (c : Char) : Bool := c == ' ' || c == '\t' || c == '\n' || c == '\r'

/-- The characters that numerals are made of. -/
def isNumeralChar (c : Char) : Bool :=
  c.isDigit || c == '-' || c == '+' || c == '.' || c == 'e' || c == 'E'

/-- The value of a word. -/
def word? (read : List Char) : Option Json :=
  match String.ofList read with
  | "null" => some .null
  | "true" => some (.boolean true)
  | "false" => some (.boolean false)
  | _ => none

/-- The tokens in reverse order, with the one that has been begun completed.  A string is
completed by its closing quote alone. -/
def complete? (done : List Token) : Partial → Option (List Token)
  | .nothing => some done
  | .word read => (word? read.reverse).map fun v => .scalar v :: done
  | .numeral read => do
    let n ← Numeral.ofChars? read.reverse
    let value ← n.number?
    some (.scalar (.number value) :: done)
  | _ => none

/-- What a character does that follows a complete token. -/
def begin? (done : List Token) (c : Char) : Option (List Token × Partial) :=
  if isBlank c then some (done, .nothing)
  else if c = '[' then some (.openArray :: done, .nothing)
  else if c = ']' then some (.closeArray :: done, .nothing)
  else if c = '\x7b' then some (.openObject :: done, .nothing)
  else if c = '\x7d' then some (.closeObject :: done, .nothing)
  else if c = ',' then some (.comma :: done, .nothing)
  else if c = ':' then some (.colon :: done, .nothing)
  else if c = '"' then some (done, .text [])
  else if c = '-' || c.isDigit then some (done, .numeral [c])
  else if c.isAlpha then some (done, .word [c])
  else none

/-- The character that a backslash and a letter stand for. -/
def escaped? : Char → Option Char
  | '"' => some '"'
  | '\\' => some '\\'
  | '/' => some '/'
  | 'b' => some (Char.ofNat 8)
  | 'f' => some (Char.ofNat 12)
  | 'n' => some '\n'
  | 'r' => some '\r'
  | 't' => some '\t'
  | _ => none

/-- The value of a hexadecimal digit in either case. -/
def hexDigit? (c : Char) : Option Nat :=
  if '0' ≤ c ∧ c ≤ '9' then some (c.toNat - '0'.toNat)
  else if 'a' ≤ c ∧ c ≤ 'f' then some (c.toNat - 'a'.toNat + 10)
  else if 'A' ≤ c ∧ c ≤ 'F' then some (c.toNat - 'A'.toNat + 10)
  else none

/-- Whether a unit is the first of a pair. -/
def isHighSurrogate (n : Nat) : Bool := decide (0xD800 ≤ n) && decide (n < 0xDC00)

/-- Whether a unit is the second of a pair. -/
def isLowSurrogate (n : Nat) : Bool := decide (0xDC00 ≤ n) && decide (n < 0xE000)

/-- What a complete unit does: alone it stands for a character, unless it is one of a pair. -/
def endUnit? (read : List Char) (high : Option Nat) (value : Nat) : Option Partial :=
  match high with
  | none =>
    if isHighSurrogate value then some (.pair read value)
    else if isLowSurrogate value then none
    else some (.text (Char.ofNat value :: read))
  | some first =>
    if isLowSurrogate value then
      some (.text (Char.ofNat (0x10000 + (first - 0xD800) * 0x400 + (value - 0xDC00)) :: read))
    else none

/-- What one more character does to the tokens read so far, the last one first, and to the
token that has been begun. -/
def next? (done : List Token) (begun : Partial) (c : Char) : Option (List Token × Partial) :=
  match begun with
  | .nothing => begin? done c
  | .word read =>
    if c.isAlpha then some (done, .word (c :: read))
    else (complete? done begun).bind fun done => begin? done c
  | .numeral read =>
    if isNumeralChar c then some (done, .numeral (c :: read))
    else (complete? done begun).bind fun done => begin? done c
  | .text read =>
    if c = '"' then some (.scalar (.string (String.ofList read.reverse)) :: done, .nothing)
    else if c = '\\' then some (done, .escape read none)
    else if c < ' ' then none
    else some (done, .text (c :: read))
  | .pair read high => if c = '\\' then some (done, .escape read (some high)) else none
  | .escape read high =>
    if c = 'u' then some (done, .unit read high 0 0)
    else if high.isSome then none
    else (escaped? c).map fun character => (done, .text (character :: read))
  | .unit read high count value => do
    let value := 16 * value + (← hexDigit? c)
    if count = 3 then some (done, ← endUnit? read high value)
    else some (done, .unit read high (count + 1) value)

/-- The tokens of a text. -/
def scan? (text : String) : Option (List Token) := do
  let (done, begun) ← text.toList.foldlM (fun state c => next? state.1 state.2 c) ([], .nothing)
  (complete? done begun).map List.reverse

end Token

end RecordSchema
