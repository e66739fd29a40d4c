/-!
# JSON values

Package descriptions, configurations and reports are JSON. An object keeps its fields in the order in
which they stand and may repeat a key, because both decide whether a description is accepted. Integers
are kept as integers; every other number is kept as the literal that spells it, since no field of any
format here holds one.
-/

namespace FunctionService

/-- A JSON value. -/
inductive Json where
  | null
  | bool (value : Bool)
  | int (value : Int)
  | real (literal : String)
  | str (text : String)
  | arr (items : List Json)
  | obj (fields : List (String × Json))
  deriving Inhabited

namespace Json

mutual

/-- The number of arrays and objects on the longest way from the value down to a leaf. -/
def depth : Json → Nat
  | .arr items => depthItems items + 1
  | .obj fields => depthFields fields + 1
  | _ => 0

/-- The greatest depth among the items of an array. -/
def depthItems : List Json → Nat
  | [] => 0
  | item :: rest => max item.depth (depthItems rest)

/-- The greatest depth among the values of an object. -/
def depthFields : List (String × Json) → Nat
  | [] => 0
  | (_, value) :: rest => max value.depth (depthFields rest)

end

/-- A natural number as a JSON integer. -/
def nat (n : Nat) : Json :=
  .int n

/-- A list of texts as a JSON array. -/
def texts (ts : List String) : Json :=
  .arr (ts.map .str)

/-- A value, or `null` in its absence. -/
def ofOption (encode : α → Json) : Option α → Json
  | none => .null
  | some a => encode a

end Json

end FunctionService
