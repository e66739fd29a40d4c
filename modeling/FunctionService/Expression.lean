/-!
# Expressions

The expressions that occur in default values and in generated code. Text whose structure is not known
is kept as it was written (`source`).
-/

namespace FunctionService

/-- A name, optionally qualified by the module that declares it. -/
structure QualifiedName where
  module : Option String
  name : String
  deriving DecidableEq, Inhabited

/-- A qualified name in source: the module, a colon and the name. -/
def QualifiedName.spelling (q : QualifiedName) : String :=
  match q.module with
  | some module => module ++ ":" ++ q.name
  | none => q.name

mutual

/-- An expression. -/
inductive Expression where
  | name (identifier : String)
  | fieldAccess (target : Expression) (field : String)
  | elvis (left right : Expression)
  | list (items : List Expression)
  | call (function : String) (arguments : List Argument)
  | new (typeName : QualifiedName) (arguments : List Argument)
  | int (value : Int64)
  | source (text : String)

/-- An argument of a call: one value, or a list whose elements are passed one by one. -/
inductive Argument where
  | positional (value : Expression)
  | rest (values : Expression)

end

instance : Inhabited Expression :=
  ⟨.list []⟩

instance : Inhabited Argument :=
  ⟨.positional default⟩

end FunctionService
