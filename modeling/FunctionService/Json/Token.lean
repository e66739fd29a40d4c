import FunctionService.Json.Numeral

/-!
# JSON tokens

Text is cut into tokens one character at a time: `Scanner.step` is the only transition, so a text of
any length is read by one pass over its characters. White space is the space, the tab, the line feed
and the carriage return. A string is kept as its pieces, because a text may spell half of a surrogate
pair: such a string is a token like any other, and only has no value.
-/

namespace FunctionService.Json

/-- One piece of a string: a character, or a sixteen-bit unit written with four hexadecimal digits. -/
inductive Piece where
  | char (c : Char)
  | unit (u : Nat)

namespace Piece

/-- Whether a unit is the first half of a surrogate pair. -/
def isLeading (u : Nat) : Bool :=
  0xD800 ≤ u && u ≤ 0xDBFF

/-- Whether a unit is the second half of a surrogate pair. -/
def isTrailing (u : Nat) : Bool :=
  0xDC00 ≤ u && u ≤ 0xDFFF

/-- The character that a surrogate pair denotes. -/
def combine (leading trailing : Nat) : Char :=
  Char.ofNat (0x10000 + (leading - 0xD800) * 0x400 + (trailing - 0xDC00))

/-- The characters that pieces denote, behind those already read, which stand in reverse. A half of a
surrogate pair that stands alone denotes none. -/
def joinOnto : List Char → List Piece → Option (List Char)
  | done, [] => some done.reverse
  | done, .char c :: rest => joinOnto (c :: done) rest
  | done, .unit u :: .unit v :: rest =>
    if isLeading u then
      if isTrailing v then joinOnto (combine u v :: done) rest else none
    else if isTrailing u then none
    else joinOnto (Char.ofNat u :: done) (.unit v :: rest)
  | done, .unit u :: rest =>
    if isLeading u || isTrailing u then none else joinOnto (Char.ofNat u :: done) rest

/-- The text that pieces denote. -/
def join (pieces : List Piece) : Option String :=
  (joinOnto [] pieces).map String.ofList

end Piece

/-- A token of JSON text. -/
inductive Token where
  | openBrace
  | closeBrace
  | openBracket
  | closeBracket
  | comma
  | colon
  | null
  | bool (value : Bool)
  | number (literal : String)
  | string (text : Option String)

/-- What the scanner is in the middle of. What has been read of a token stands in reverse. -/
inductive Scanner.Mode where
  | between
  | string (done : List Piece)
  | escape (done : List Piece)
  | unit (done : List Piece) (digits value : Nat)
  | number (done : List Char)
  | word (done : List Char)

/-- The scanner: its mode, and the tokens read so far in reverse. -/
structure Scanner where
  mode : Scanner.Mode := .between
  tokens : List Token := []

namespace Scanner

/-- Whether a character may stand in a number literal. -/
def isNumberChar (c : Char) : Bool :=
  c.isDigit || c == '-' || c == '+' || c == '.' || c == 'e' || c == 'E'

/-- The value of a hexadecimal digit. -/
def hexValue (c : Char) : Option Nat :=
  if c.isDigit then some (c.toNat - '0'.toNat)
  else if 'a' ≤ c && c ≤ 'f' then some (c.toNat - 'a'.toNat + 10)
  else if 'A' ≤ c && c ≤ 'F' then some (c.toNat - 'A'.toNat + 10)
  else none

/-- The token of a word. -/
def wordToken (word : String) : Option Token :=
  if word == "null" then some .null
  else if word == "true" then some (.bool true)
  else if word == "false" then some (.bool false)
  else none

/-- The token of a number literal that is well formed. -/
def numberToken (literal : String) : Option Token :=
  (Numeral.ofChars literal.toList).map fun _ => .number literal

/-- The character that a one-letter escape denotes. -/
def escaped (c : Char) : Option Char :=
  if c == '"' || c == '\\' || c == '/' then some c
  else if c == 'b' then some (Char.ofNat 8)
  else if c == 'f' then some (Char.ofNat 12)
  else if c == 'n' then some '\n'
  else if c == 'r' then some '\r'
  else if c == 't' then some '\t'
  else none

/-- A character between tokens. -/
def startToken (tokens : List Token) (c : Char) : Option Scanner :=
  if c == ' ' || c == '\t' || c == '\n' || c == '\r' then some { tokens }
  else if c == '\x7b' then some { tokens := .openBrace :: tokens }
  else if c == '\x7d' then some { tokens := .closeBrace :: tokens }
  else if c == '[' then some { tokens := .openBracket :: tokens }
  else if c == ']' then some { tokens := .closeBracket :: tokens }
  else if c == ',' then some { tokens := .comma :: tokens }
  else if c == ':' then some { tokens := .colon :: tokens }
  else if c == '"' then some { mode := .string [], tokens }
  else if c.isDigit || c == '-' then some { mode := .number [c], tokens }
  else if c.isAlpha then some { mode := .word [c], tokens }
  else none

/-- Ends a number or a word; a string must have been closed. -/
def close (s : Scanner) : Option (List Token) :=
  match s.mode with
  | .between => some s.tokens
  | .number done => (numberToken (String.ofList done.reverse)).map (· :: s.tokens)
  | .word done => (wordToken (String.ofList done.reverse)).map (· :: s.tokens)
  | _ => none

/-- Reads one character. -/
def step (s : Scanner) (c : Char) : Option Scanner :=
  match s.mode with
  | .between => startToken s.tokens c
  | .string done =>
    if c == '"' then some { tokens := .string (Piece.join done.reverse) :: s.tokens }
    else if c == '\\' then some { s with mode := .escape done }
    else if c.toNat < 32 then none
    else some { s with mode := .string (.char c :: done) }
  | .escape done =>
    if c == 'u' then some { s with mode := .unit done 0 0 }
    else (escaped c).map fun e => { s with mode := .string (.char e :: done) }
  | .unit done digits value =>
    (hexValue c).map fun h =>
      let value := 16 * value + h
      if digits == 3 then { s with mode := .string (.unit value :: done) }
      else { s with mode := .unit done (digits + 1) value }
  | .number done =>
    if isNumberChar c then some { s with mode := .number (c :: done) }
    else s.close.bind (startToken · c)
  | .word done =>
    if c.isAlpha then some { s with mode := .word (c :: done) }
    else s.close.bind (startToken · c)

end Scanner

/-- The tokens of a text, in order, if it consists of tokens and white space. -/
def tokens (text : String) : Option (List Token) := do
  let s ← text.toList.foldlM Scanner.step {}
  return (← s.close).reverse

end FunctionService.Json
