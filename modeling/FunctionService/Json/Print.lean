import FunctionService.Json.Basic

/-!
# Writing JSON

Two layouts of the same value: `compact` on one line without blanks, and `pretty` with one item or
field a line, two spaces a level. Text is written as it stands, apart from quotes, backslashes and
control characters.
-/

namespace FunctionService.Json

/-- The lowercase hexadecimal digit of a number below sixteen. -/
def hexDigit (n : Nat) : Char :=
  Nat.digitChar n

/-- One character inside a quoted text. Control characters without a short escape are written with
four hexadecimal digits; everything from the space on is written as it stands. -/
def escapeChar (c : Char) : List Char :=
  if c == '"' then ['\\', '"']
  else if c == '\\' then ['\\', '\\']
  else if c == '\n' then ['\\', 'n']
  else if c == '\r' then ['\\', 'r']
  else if c == '\t' then ['\\', 't']
  else if c.toNat == 8 then ['\\', 'b']
  else if c.toNat == 12 then ['\\', 'f']
  else if c.toNat < 32 then ['\\', 'u', '0', '0', hexDigit (c.toNat / 16), hexDigit (c.toNat % 16)]
  else [c]

/-- A text between quotes. -/
def quote (text : String) : String :=
  "\"" ++ String.ofList (text.toList.flatMap escapeChar) ++ "\""

mutual

/-- A value on one line, without blanks. -/
def compact : Json → String
  | .null => "null"
  | .bool true => "true"
  | .bool false => "false"
  | .int value => toString value
  | .real literal => literal
  | .str text => quote text
  | .arr items => "[" ++ String.intercalate "," (compactItems items) ++ "]"
  | .obj fields => "\x7b" ++ String.intercalate "," (compactFields fields) ++ "\x7d"

/-- The items of an array, each on its own. -/
def compactItems : List Json → List String
  | [] => []
  | item :: rest => item.compact :: compactItems rest

/-- The fields of an object, each as its key, a colon and its value. -/
def compactFields : List (String × Json) → List String
  | [] => []
  | (key, value) :: rest => (quote key ++ ":" ++ value.compact) :: compactFields rest

end

/-- The indentation of one level of the pretty layout. -/
def indentUnit : String :=
  "  "

/-- A line break followed by the indentation of the given level. -/
def newline (level : Nat) : String :=
  "\n" ++ String.join (List.replicate level indentUnit)

/-- Lines between brackets at the given level; without lines the brackets stand side by side. -/
def bracket (opening closing : String) (level : Nat) : List String → String
  | [] => opening ++ closing
  | lines =>
    opening ++ newline (level + 1) ++ String.intercalate ("," ++ newline (level + 1)) lines ++
      newline level ++ closing

mutual

/-- A value with one item or field a line, starting at the given level. -/
def prettyAt (level : Nat) : Json → String
  | .arr items => bracket "[" "]" level (prettyItems (level + 1) items)
  | .obj fields => bracket "\x7b" "\x7d" level (prettyFields (level + 1) fields)
  | value => value.compact

/-- The items of an array at the given level. -/
def prettyItems (level : Nat) : List Json → List String
  | [] => []
  | item :: rest => item.prettyAt level :: prettyItems level rest

/-- The fields of an object at the given level. -/
def prettyFields (level : Nat) : List (String × Json) → List String
  | [] => []
  | (key, value) :: rest => (quote key ++ ": " ++ value.prettyAt level) :: prettyFields level rest

end

/-- A value with one item or field a line. -/
def pretty (value : Json) : String :=
  value.prettyAt 0

end FunctionService.Json
