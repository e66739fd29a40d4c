/-!
# Paths

A path keeps the spelling it was given. It is compared by its components: empty segments and `.`
segments do not count, except for a `.` at the very start, so `a//b`, `a/./b` and `a/b/` are three
spellings of one place. Components are ordered root, leading `.`, `..`, names; names are ordered by
their characters, and a path comes before the paths that extend it.
-/

namespace FunctionService

/-- A path as it was spelled. -/
structure Path where
  text : String
  deriving DecidableEq, Inhabited

namespace Path

/-- One step of a path. -/
inductive Component where
  | root
  | current
  | parent
  | name (text : String)
  deriving DecidableEq

/-- The segments between the slashes of a text. -/
def segmentsOf : List Char → List (List Char)
  | [] => [[]]
  | c :: rest =>
    if c = '/' then [] :: segmentsOf rest
    else match segmentsOf rest with
      | [] => [[c]]
      | segment :: segments => (c :: segment) :: segments

/-- The segments between the slashes of the path. -/
def segments (p : Path) : List String :=
  (segmentsOf p.text.toList).map String.ofList

/-- The path starts at the root. -/
def isAbsolute (p : Path) : Bool :=
  p.text.toList.head? == some '/'

/-- The component of a segment behind the start of a path. -/
def component? (segment : String) : Option Component :=
  if segment = "" ∨ segment = "." then none
  else if segment = ".." then some .parent
  else some (.name segment)

/-- The components of a path. -/
def components (p : Path) : List Component :=
  let steps := p.segments.filterMap component?
  if p.isAbsolute then .root :: steps
  else if p.segments.head? = some "." then .current :: steps
  else steps

/-- What components are ordered by: their class, and names among each other by their text. -/
def Component.key : Component → Nat × String
  | .root => (0, "")
  | .current => (1, "")
  | .parent => (2, "")
  | .name text => (3, text)

/-- The order of components. -/
def Component.compare (a b : Component) : Ordering :=
  (Ord.compare a.key.1 b.key.1).then (Ord.compare a.key.2 b.key.2)

/-- The order of component lists: by the first difference, and a list before its extensions. -/
def compareComponents : List Component → List Component → Ordering
  | [], [] => .eq
  | [], _ :: _ => .lt
  | _ :: _, [] => .gt
  | a :: as, b :: bs => (a.compare b).then (compareComponents as bs)

/-- The order of paths. -/
def compare (p q : Path) : Ordering :=
  compareComponents p.components q.components

/-- The path `q` as seen from `p`: an absolute `q` stands for itself. -/
def join (p q : Path) : Path :=
  if q.isAbsolute || p.text.isEmpty then q
  else if p.text.toList.getLast? == some '/' then ⟨p.text ++ q.text⟩
  else ⟨p.text ++ "/" ++ q.text⟩

/-- How a component is spelled. -/
def Component.text : Component → String
  | .root => "/"
  | .current => "."
  | .parent => ".."
  | .name text => text

/-- A path with the given components. -/
def ofComponents (components : List Component) : Path :=
  components.foldl (fun p c => p.join ⟨c.text⟩) ⟨""⟩

/-- The path itself and the paths above it, nearest first; the empty path is left out. -/
def ancestors (p : Path) : List Path :=
  let above := (List.range p.components.length).reverse.map fun n => ofComponents (p.components.take n)
  p :: above.filter fun q => !q.text.isEmpty

end Path

end FunctionService
