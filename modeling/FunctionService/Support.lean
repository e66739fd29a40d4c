import FunctionService.SymbolTable

/-!
# Which types cross the HTTP boundary

A symbol is supported when following its containers and aliases ends at a primitive type or a record.
A name is followed at most once: the table under which its meaning is judged no longer binds it, so a
name that leads back to itself is as unsupported as an unbound one, and every judgement ends.

A type written out in a signature is judged more strictly: below an array or a map only primitive
types and maps of them are supported, and a table has to be a table of such a map.
-/

namespace FunctionService

/-- Whether a symbol is supported, given which names are. -/
def TypeSymbol.supportedWith (name : String → Bool) : TypeSymbol → Bool
  | .primitive _ => true
  | .record => true
  | .array element => element.supportedWith name
  | .map value => value.supportedWith name
  | .table row => row.supportedWith name
  | .alias n => name n
  | .other _ => false

namespace SymbolTable

/-- Whether a name is bound to a supported symbol, judged under the table without that name. -/
def supportsName (t : SymbolTable) (name : String) : Bool :=
  match _h : t.resolve name with
  | none => false
  | some symbol => symbol.supportedWith fun n => (t.erase name).supportsName n
termination_by t.size
decreasing_by exact size_erase_lt _h

/-- Whether a symbol is supported under a table. -/
def supportsSymbol (t : SymbolTable) (symbol : TypeSymbol) : Bool :=
  symbol.supportedWith t.supportsName

end SymbolTable

namespace TypeDesc

/-- The types supported below an array or a map: primitives and maps of primitives. -/
def isShallow : TypeDesc → Bool
  | .primitive _ => true
  | .map (.primitive _) => true
  | _ => false

/-- Whether a type is supported under a symbol table. -/
def supported (t : SymbolTable) : TypeDesc → Bool
  | .primitive _ => true
  | .nil => true
  | .array element => element.isShallow
  | .map value => value.isShallow
  | .table (.map value) => value.isShallow
  | .table _ => false
  | .named name => t.supportsName name
  | .union _ => false
  | .other _ => false

end TypeDesc

end FunctionService
