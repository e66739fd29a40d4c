import FunctionService.Json.Basic

/-!
# Shapes of JSON values

How records, choices and tagged values are spelled in JSON. A record is an object, in which unknown
keys are ignored and no known key is repeated, or an array with the fields in their declared order,
from which fields may be missing at the end. A choice is a string, or an object with one key, the name
of the alternative, and its payload as the value.

An alternative without payload may be spelled with the payload `null`. A value that had to be put
aside before its reading was decided (`Reading.buffered`) may also be spelled with the empty object
there, and the kind at the head of an array with its number; a value that is read where it stands
(`Reading.direct`) may not.
-/

namespace FunctionService.Json

/-- Whether a value is read where it stands or was put aside first. -/
inductive Reading where
  | direct
  | buffered
  deriving DecidableEq

/-- The values under one key. -/
def valuesAt (key : String) (fields : List (String × Json)) : List Json :=
  (fields.filter fun field => field.1 == key).map Prod.snd

/-- The value under a key that is not repeated, or its absence. -/
def slot (fields : List (String × Json)) (key : String) : Option (Option Json) :=
  match valuesAt key fields with
  | [] => some none
  | [value] => some (some value)
  | _ => none

/-- The fields of a record in the order of the given names, each present or absent. -/
def slots (names : List String) : Json → Option (List (Option Json))
  | .obj fields => names.mapM (slot fields)
  | .arr items =>
    if items.length ≤ names.length then
      some (items.map some ++ List.replicate (names.length - items.length) none)
    else none
  | _ => none

/-- A field that must be present. -/
def required (decode : Json → Option α) : Option Json → Option α
  | none => none
  | some value => decode value

/-- A field that takes a default when it is absent. -/
def orElse (default : α) (decode : Json → Option α) : Option Json → Option α
  | none => some default
  | some value => decode value

/-- A value that may be `null`. -/
def nullable (decode : Json → Option α) : Json → Option (Option α)
  | .null => some none
  | value => (decode value).map some

/-- A text. -/
def text? : Json → Option String
  | .str text => some text
  | _ => none

/-- A truth value. -/
def bool? : Json → Option Bool
  | .bool value => some value
  | _ => none

/-- A natural number below a bound. -/
def natBelow? (bound : Nat) : Json → Option Nat
  | .int value => if 0 ≤ value && value < bound then some value.toNat else none
  | _ => none

/-- An unsigned 64-bit number. -/
def uint64? (value : Json) : Option UInt64 :=
  (value.natBelow? UInt64.size).map UInt64.ofNat

/-- A signed 64-bit number. -/
def int64? : Json → Option Int64
  | .int value =>
    if -0x8000000000000000 ≤ value && value < 0x8000000000000000 then some (Int64.ofInt value) else none
  | _ => none

/-- A list of values that all decode. -/
def list? (decode : Json → Option α) : Json → Option (List α)
  | .arr items => items.mapM decode
  | _ => none

/-- Whether a payload stands for no payload. -/
def isUnit (reading : Reading) : Json → Bool
  | .null => true
  | .obj [] => reading == .buffered
  | _ => false

/-- The name of an alternative, with its payload if one is spelled. -/
def choice : Json → Option (String × Option Json)
  | .str name => some (name, none)
  | .obj [(name, payload)] => some (name, some payload)
  | _ => none

/-- The name of an alternative without payload. -/
def plainChoice (reading : Reading) (value : Json) : Option String :=
  match value.choice with
  | some (name, none) => some name
  | some (name, some payload) => if payload.isUnit reading then some name else none
  | none => none

/-- The key that names the alternative of a tagged value. -/
def kindKey : String :=
  "kind"

/-- The key under which a tagged value holds its content. -/
def contentKey : String :=
  "of"

/-- Whether the content of a tagged value stands before the kind that says how to read it. -/
def contentFirst (fields : List (String × Json)) : Bool :=
  (fields.find? fun field => field.1 == kindKey || field.1 == contentKey).any
    fun field => field.1 == contentKey

/-- The kind at the head of an array: its name, or in a value that was put aside also its number among
all kinds, counting from zero. -/
def kindAtHead (kinds : List String) (reading : Reading) : Json → Option String
  | .str name => some name
  | .int number => if reading == .buffered && 0 ≤ number then kinds[number.toNat]? else none
  | _ => none

/-- A tagged value: the name of its kind, its content if there is one, and how to read the content. It
is an object with a kind and a content in any order, or an array of the two. Content that stands
before the kind has to be put aside. -/
def tagged (kinds : List String) (reading : Reading) :
    Json → Option (String × Option Json × Reading)
  | .obj fields => do
    let kind ← required (plainChoice reading) (← slot fields kindKey)
    let content ← slot fields contentKey
    return (kind, content, if contentFirst fields then .buffered else reading)
  | .arr [kind, content] => do
    return (← kind.kindAtHead kinds reading, some content, reading)
  | _ => none

end FunctionService.Json
