import FunctionService.Location

/-!
# Diagnostics

The rules for packages of transformer functions, as the ways to violate them. Each has a stable code;
three name what they are about, and the wording has a place for that name.
-/

namespace FunctionService

/-- A violated rule. -/
inductive Violation where
  | entryPoint
  | publicBlockBody
  | listener
  | «class»
  | service
  | noTransformer
  | annotated
  | unsupportedParameter (function : String)
  | unsupportedReturn (function : String)
  | compilationErrors
  | disallowedMember (kind : String)
  deriving DecidableEq, Inhabited

namespace Violation

/-- The number of a violated rule. -/
def number : Violation → Nat
  | .entryPoint => 100
  | .publicBlockBody => 101
  | .listener => 102
  | .class => 103
  | .service => 104
  | .noTransformer => 105
  | .annotated => 106
  | .unsupportedParameter _ => 107
  | .unsupportedReturn _ => 108
  | .compilationErrors => 109
  | .disallowedMember _ => 110

/-- The code that goes with a number. -/
def codeOfNumber (n : Nat) : String :=
  "TRANSFORMER_ERROR_" ++ toString n

/-- The code of a violated rule. -/
def code (v : Violation) : String :=
  codeOfNumber v.number

/-- The number of the rule with a code. -/
def numberOfCode? (code : String) : Option Nat :=
  (List.range' 100 11).find? fun n => codeOfNumber n == code

/-- The names that a violation is about. -/
def args : Violation → List String
  | .unsupportedParameter function => [function]
  | .unsupportedReturn function => [function]
  | .disallowedMember kind => [kind]
  | _ => []

/-- The wording of a violation, with a given text in the place of the name it is about. -/
def wording (about : String) : Violation → String
  | .entryPoint => "Transformer packages are not allowed to have entry points."
  | .publicBlockBody => "Public qualifiers are allowed only for expression bodied functions."
  | .listener => "Transformer packages are not allowed to have listeners."
  | .class => "Transformer packages are not allowed to have classes."
  | .service => "Transformer packages are not allowed to have services."
  | .noTransformer =>
    "Transformer packages should have at least one public and isolated expression bodied function."
  | .annotated => "Transformer packages are not allowed to have annotations."
  | .unsupportedParameter _ =>
    "Transformer function '" ++ about ++
      "' has parameters that cannot be bound from an HTTP payload."
  | .unsupportedReturn _ =>
    "Transformer function '" ++ about ++
      "' has a return type that cannot be sent as an HTTP response."
  | .compilationErrors =>
    "Transformer validation skipped because the package has compilation errors."
  | .disallowedMember _ => "Transformer packages are not allowed to have '" ++ about ++ "' declarations."

/-- The wording with a mark in the place of the name. -/
def template (v : Violation) : String :=
  v.wording "\x7b0\x7d"

/-- What a violation says. -/
def message (v : Violation) : String :=
  v.wording (v.args.headD "")

/-- How a violation can be mended, for the rules where that is not plain. -/
def help? : Violation → Option String
  | .entryPoint => some "Remove the `main` function; the generated service is the entry point"
  | .publicBlockBody => some "Rewrite the function as `=> expr;` or drop the `public` qualifier"
  | .noTransformer =>
    some
      "Declare a function as `public isolated function name(...) returns T => expr;` in the default module"
  | .unsupportedParameter _ =>
    some <| "Parameters must be boolean, int, float, decimal, byte, string, json, records, " ++
      "or arrays, maps and tables of those"
  | .unsupportedReturn _ =>
    some <| "Return boolean, int, float, decimal, byte, string, json, records, " ++
      "or arrays, maps and tables of those"
  | _ => none

end Violation

/-- A violation and where it stands. -/
structure Diagnostic where
  violation : Violation
  location : Location
  deriving DecidableEq, Inhabited

namespace Diagnostic

/-- A diagnostic on one line. -/
def display (d : Diagnostic) : String :=
  d.location.display ++ ": ERROR [" ++ d.violation.code ++ "] " ++ d.violation.message

/-- The order of diagnostics by where they start, then by the number of the rule. -/
def compare (a b : Diagnostic) : Ordering :=
  (a.location.compareStart b.location).then (Ord.compare a.violation.number b.violation.number)

/-- Diagnostics in order; those that compare equal stay as they were. -/
def sort (ds : List Diagnostic) : List Diagnostic :=
  ds.mergeSort fun a b => (a.compare b).isLE

end Diagnostic

end FunctionService
