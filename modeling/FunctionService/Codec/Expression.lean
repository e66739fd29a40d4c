import FunctionService.Json.Shape
import FunctionService.Expression

/-!
# Expressions in JSON

Expressions and arguments are choices: an object with one key, the form of the expression, and what
belongs to that form as the value.
-/

namespace FunctionService

open Json

namespace QualifiedName

/-- A qualified name as a record of two fields. -/
def encode (q : QualifiedName) : Json :=
  .obj [("module", .ofOption .str q.module), ("name", .str q.name)]

/-- Reads a qualified name. -/
def decode (v : Json) : Option QualifiedName := do
  let [module, name] ← v.slots ["module", "name"] | none
  return {
    module := ← orElse none (nullable text?) module
    name := ← required text? name }

end QualifiedName

mutual

/-- An expression as a choice among its forms. -/
def Expression.encode : Expression → Json
  | .name identifier => .obj [("name", .str identifier)]
  | .fieldAccess target field =>
    .obj [("field_access", .obj [("target", target.encode), ("field", .str field)])]
  | .elvis left right => .obj [("elvis", .obj [("lhs", left.encode), ("rhs", right.encode)])]
  | .list items => .obj [("list", .arr (encodeExpressions items))]
  | .call function arguments =>
    .obj [("call", .obj [("function", .str function), ("arguments", .arr (encodeArguments arguments))])]
  | .new typeName arguments =>
    .obj [("new",
      .obj [("type_name", typeName.encode), ("arguments", .arr (encodeArguments arguments))])]
  | .int value => .obj [("int_literal", .int value.toInt)]
  | .source text => .obj [("source", .str text)]

/-- An argument as a choice between one value and a list of values. -/
def Argument.encode : Argument → Json
  | .positional value => .obj [("positional", value.encode)]
  | .rest values => .obj [("rest", values.encode)]

/-- Expressions, each as a choice. -/
def encodeExpressions : List Expression → List Json
  | [] => []
  | e :: rest => e.encode :: encodeExpressions rest

/-- Arguments, each as a choice. -/
def encodeArguments : List Argument → List Json
  | [] => []
  | a :: rest => a.encode :: encodeArguments rest

end

/-- Reads a form of expression from its payload, given how the parts are read. -/
def Expression.ofForm (expression : Json → Option Expression) (argument : Json → Option Argument)
    (form : String) (payload : Json) : Option Expression :=
  match form with
  | "name" => return .name (← payload.text?)
  | "field_access" => do
    let [target, field] ← payload.slots ["target", "field"] | none
    return .fieldAccess (← required expression target) (← required text? field)
  | "elvis" => do
    let [left, right] ← payload.slots ["lhs", "rhs"] | none
    return .elvis (← required expression left) (← required expression right)
  | "list" => return .list (← payload.list? expression)
  | "call" => do
    let [function, arguments] ← payload.slots ["function", "arguments"] | none
    return .call (← required text? function) (← required (list? argument) arguments)
  | "new" => do
    let [typeName, arguments] ← payload.slots ["type_name", "arguments"] | none
    return .new (← required QualifiedName.decode typeName) (← required (list? argument) arguments)
  | "int_literal" => return .int (← payload.int64?)
  | "source" => return .source (← payload.text?)
  | _ => none

/-- Reads a form of argument from its payload, given how expressions are read. -/
def Argument.ofForm (expression : Json → Option Expression) (form : String) (payload : Json) :
    Option Argument :=
  match form with
  | "positional" => return .positional (← expression payload)
  | "rest" => return .rest (← expression payload)
  | _ => none

/-- Reads a choice that has a payload. -/
def Json.withPayload (read : String → Json → Option α) (v : Json) : Option α := do
  let (form, payload) ← v.choice
  read form (← payload)

mutual

/-- Reads an expression with a bounded number of levels. -/
def Expression.decodeWithin : Nat → Json → Option Expression
  | 0, _ => none
  | room + 1, v =>
    v.withPayload (Expression.ofForm (Expression.decodeWithin room) (Argument.decodeWithin room))

/-- Reads an argument with a bounded number of levels. -/
def Argument.decodeWithin : Nat → Json → Option Argument
  | 0, _ => none
  | room + 1, v => v.withPayload (Argument.ofForm (Expression.decodeWithin room))

end

/-- Reads an expression. -/
def Expression.decode (v : Json) : Option Expression :=
  Expression.decodeWithin (v.depth + 1) v

/-- Reads an argument. -/
def Argument.decode (v : Json) : Option Argument :=
  Argument.decodeWithin (v.depth + 1) v

end FunctionService
