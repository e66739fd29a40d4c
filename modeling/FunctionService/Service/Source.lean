import FunctionService.Failure
import FunctionService.Service.Basic

/-!
# Source text of service units

Writing a unit checks every name in it as it goes, and gives up at the first one that is not an
identifier and at the first blank expression. Types, base paths and the text of `source` expressions
are written as they stand.

The right operand of `?:` is parenthesized unless it is atomic, and a list passed with `...` unless it
is a name, a field or a list constructor.
-/

namespace FunctionService

/-- Accepts identifiers. -/
def checkIdentifier (name : String) : Except FormatFault Unit :=
  if Text.isIdentifier name.toList then .ok () else .error (.invalidIdentifier name)

/-- What stands between a quote at the start of a text and a quote at its end. A quote alone is not both. -/
def stripQuotes : List Char → Option (List Char)
  | '"' :: rest => if rest.getLast? = some '"' then some rest.dropLast else none
  | _ => none

/-- Scans what stands between two quotes, for whether the second one closes the literal that the first one
opens: a quote that no backslash takes with it would close it earlier, and a backslash left over at the end
takes the closing quote. `escaped` says that a backslash stands right in front. -/
def scanLiteral (escaped : Bool) : List Char → Bool
  | [] => !escaped
  | c :: rest =>
    if escaped then scanLiteral false rest
    else if c = '\\' then scanLiteral true rest
    else if c = '"' then false
    else scanLiteral false rest

/-- Whether a text is one literal or name: nil, a string literal, or identifier characters, points and
single quotes. -/
def isAtomicSource (cs : List Char) : Bool :=
  if cs = ['(', ')'] then true
  else match stripQuotes cs with
    | some inner => scanLiteral false inner
    | none => !cs.isEmpty && cs.all fun c => Text.isIdentifierChar c || c == '.' || c == '\''

/-- Whether an expression needs no parentheses as the right operand of `?:`. -/
def Expression.isAtomic : Expression → Bool
  | .elvis _ _ => false
  | .source text => isAtomicSource (Text.trim text.toList)
  | _ => true

/-- Whether an expression needs no parentheses after `...`. -/
def Expression.isSpreadable : Expression → Bool
  | .name _ => true
  | .fieldAccess _ _ => true
  | .list _ => true
  | _ => false

mutual

/-- The source text of an expression. -/
def Expression.render : Expression → Except FormatFault String
  | .name identifier => do
    checkIdentifier identifier
    return identifier
  | .fieldAccess target field => do
    checkIdentifier field
    return (← target.render) ++ "." ++ field
  | .elvis left right => do
    let r ← right.render
    let l ← left.render
    return l ++ " ?: " ++ Text.parenthesizeIf (!right.isAtomic) r
  | .list items => do
    return "[" ++ String.intercalate ", " (← renderExpressions items) ++ "]"
  | .call function arguments => do
    checkIdentifier function
    return function ++ "(" ++ String.intercalate ", " (← renderArguments arguments) ++ ")"
  | .new typeName arguments => do
    if let some module := typeName.module then checkIdentifier module
    checkIdentifier typeName.name
    return "new " ++ typeName.spelling ++ "(" ++
      String.intercalate ", " (← renderArguments arguments) ++ ")"
  | .int value => return toString value.toInt
  | .source text => if Text.isBlank text.toList then throw .emptyExpression else return text

/-- The source text of an argument. -/
def Argument.render : Argument → Except FormatFault String
  | .positional value => value.render
  | .rest values => do
    return "..." ++ Text.parenthesizeIf (!values.isSpreadable) (← values.render)

/-- The source texts of expressions, in order. -/
def renderExpressions : List Expression → Except FormatFault (List String)
  | [] => return []
  | e :: rest => do
    let text ← e.render
    return text :: (← renderExpressions rest)

/-- The source texts of arguments, in order. -/
def renderArguments : List Argument → Except FormatFault (List String)
  | [] => return []
  | a :: rest => do
    let text ← a.render
    return text :: (← renderArguments rest)

end

/-- The spaces in front of a line. Widths for which a line of that many spaces cannot be held in memory are
outside the model. -/
def pad (indent level : Nat) : String :=
  String.ofList (List.replicate (indent * level) ' ')

/-- An import on a line. -/
def Import.render (i : Import) : Except FormatFault String := do
  checkIdentifier i.org
  checkIdentifier i.module
  return "import " ++ i.org ++ "/" ++ i.module ++ ";\n"

/-- A configurable variable on a line. -/
def Configurable.render (v : Configurable) : Except FormatFault String := do
  checkIdentifier v.name
  return "configurable " ++ v.type.spelling ++ " " ++ v.name ++ " = " ++ (← v.default.render) ++ ";\n"

/-- The payload parameter with its annotation. -/
def PayloadParameter.render (p : PayloadParameter) : Except FormatFault String := do
  checkIdentifier p.typeName
  checkIdentifier p.name
  return "@" ++ p.annotationName.spelling ++ " " ++ p.typeName ++ " " ++ p.name

/-- The parameter list of a resource, which is empty without a payload. -/
def renderPayload : Option PayloadParameter → Except FormatFault String
  | none => return ""
  | some p => p.render

/-- A resource. Its result is its return type or an error, so a union is parenthesized. -/
def Resource.render (indent : Nat) (r : Resource) : Except FormatFault String := do
  checkIdentifier r.accessor
  checkIdentifier r.path
  let payload ← renderPayload r.payload
  let body ← r.body.render
  return pad indent 1 ++ "resource function " ++ r.accessor ++ " " ++ r.path ++ "(" ++ payload ++
    ") returns " ++ Text.parenthesizeIf r.returns.isUnion r.returns.spelling ++ "|error \x7b\n" ++
    pad indent 2 ++ "return " ++ body ++ ";\n" ++
    pad indent 1 ++ "\x7d\n"

/-- A service with its resources, a blank line between any two of them. -/
def Service.render (indent : Nat) (s : Service) : Except FormatFault String := do
  let listener ← s.listener.render
  let resources ← s.resources.mapM (Resource.render indent)
  return "service " ++ s.basePath ++ " on " ++ listener ++ " \x7b\n" ++
    String.intercalate "\n" resources ++ "\x7d\n"

/-- A field of a record on a line. -/
def RecordField.render (indent : Nat) (f : RecordField) : Except FormatFault String := do
  checkIdentifier f.name
  return pad indent 1 ++ f.type.spelling ++ " " ++ f.name ++ (if f.isOptional then "?" else "") ++ ";\n"

/-- A record type. -/
def PayloadRecord.render (indent : Nat) (r : PayloadRecord) : Except FormatFault String := do
  checkIdentifier r.name
  let fields ← r.fields.mapM (RecordField.render indent)
  return "public type " ++ r.name ++ " record \x7b\n" ++ String.join fields ++ "\x7d;\n"

/-- The source text of a unit: imports, variables, the service and the records, with a blank line
between any two of these sections that are not empty. -/
def ServiceUnit.render (indent : Nat) (u : ServiceUnit) : Except FormatFault String := do
  let imports ← u.imports.mapM Import.render
  let configurables ← u.configurables.mapM Configurable.render
  let service ← u.service.render indent
  let records ← u.records.mapM (PayloadRecord.render indent)
  let sections := String.join imports :: String.join configurables :: service :: records
  return String.intercalate "\n" (sections.filter fun s => !s.isEmpty)

end FunctionService
