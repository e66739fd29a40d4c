import FunctionService.Failure

/-!
# Files

`FileStore` has the four things that are ever asked of files. What loads packages and writes services is
stated over any store, so that it can run on the files of the machine and be reasoned about on a `Disk`.

A disk is a finite set of files and directories, seen from a working directory. A place on it is the
list of names that leads there: from the working directory, from a directory above it (leading `..`),
or from the root (leading `/`). The working directory, those above it and the root always exist.

A path is followed segment by segment, and every segment but the last has to lead to a directory that
exists. An empty segment or `.` stays where it is, which still asks for a directory.

What a path leads to decides about most faults. Beyond that the system may refuse what is asked at a
place, for want of a permission or of space, and a disk says when it does.
-/

namespace FunctionService

/-- Files that computations in `m` can use. -/
class FileStore (m : Type → Type) where
  /-- The text of a file. -/
  read : Path → m (Except FileFault String)
  /-- Whether a path leads to a directory. -/
  isDirectory : Path → m Bool
  /-- Makes a directory and those above it that are missing. -/
  makeDirectories : Path → m (Except FileFault Unit)
  /-- Makes the text the whole content of a file, which is created if it is missing. -/
  write : Path → String → m (Except FileFault Unit)

/-! ## Disks -/

/-- What is found at a place. -/
inductive Node where
  | directory
  | file (content : ByteArray)

/-- The names that lead to a place. -/
abbrev Place := List String

/-- What is asked of the system at a place. -/
inductive Request where
  /-- To say what is there. -/
  | look
  /-- To hand out the content of a file. -/
  | read
  /-- To hold something there. -/
  | put (node : Node)

/-- Files and directories. -/
structure Disk where
  entries : List (Place × Node)
  /-- Why the system refuses a request at a place, if it does, given all that there is. -/
  refuses : List (Place × Node) → Place → Request → Option FileFault := fun _ _ _ => none

namespace Disk

/-- A disk with nothing on it. -/
def empty : Disk where
  entries := []

instance : Inhabited Disk :=
  ⟨empty⟩

/-- The longest name that a file can have, in bytes. -/
def maxNameBytes : Nat :=
  255

/-- The first length, in bytes, at which a path is too long. -/
def maxPathBytes : Nat :=
  4096

/-- Whether a place exists on every disk. -/
def isGiven (place : Place) : Bool :=
  place.all (· == "..") || place == ["/"]

/-- What is at a place. -/
def node? (d : Disk) (place : Place) : Option Node :=
  if isGiven place then some .directory else d.entries.lookup place

/-- The disk with something put at a place. -/
def put (d : Disk) (place : Place) (node : Node) : Disk :=
  { d with entries := (place, node) :: d.entries.filter fun e => e.1 != place }

/-- Asks the system at a place. -/
def ask (d : Disk) (place : Place) (request : Request) : Except FileFault Unit :=
  match d.refuses d.entries place request with
  | none => .ok ()
  | some fault => .error fault

/-- The place above another. -/
def above (place : Place) : Place :=
  match place.getLast? with
  | none => [".."]
  | some name =>
    if name = ".." then place ++ [".."]
    else if name = "/" then place
    else place.dropLast

/-- The place that a segment leads to from a directory. -/
def enter (place : Place) (segment : String) : Except FileFault Place :=
  if segment = "" ∨ segment = "." then .ok place
  else if segment = ".." then .ok (above place)
  else if segment.utf8ByteSize > maxNameBytes then .error .nameTooLong
  else .ok (place ++ [segment])

/-- Follows segments from a place. -/
def follow (d : Disk) : Place → List String → Except FileFault Place
  | place, [] => .ok place
  | place, segment :: rest =>
    match d.node? place with
    | none => .error .notFound
    | some (.file _) => .error .notADirectory
    | some .directory => do
      let next ← enter place segment
      d.follow next rest

/-- The place that segments lead to from where a path starts. -/
def locateSegments (d : Disk) (p : Path) (segments : List String) : Except FileFault Place :=
  if p.text.isEmpty then .error .notFound
  else if p.text.toList.contains '\x00' then .error .nulInName
  else if p.text.utf8ByteSize ≥ maxPathBytes then .error .nameTooLong
  else d.follow (if p.isAbsolute then ["/"] else []) segments

/-- The place that a path leads to, at which there may be nothing. -/
def locate (d : Disk) (p : Path) : Except FileFault Place :=
  d.locateSegments p p.segments

/-- What a path leads to. -/
def find (d : Disk) (p : Path) : Except FileFault Node := do
  let place ← d.locate p
  d.ask place .look
  match d.node? place with
  | none => throw .notFound
  | some node => return node

/-- The text of the file that a path leads to. -/
def read (d : Disk) (p : Path) : Except FileFault String := do
  let place ← d.locate p
  d.ask place .read
  match d.node? place with
  | none => throw .notFound
  | some .directory => throw .isADirectory
  | some (.file content) =>
    match String.fromUTF8? content with
    | none => throw .notText
    | some text => return text

/-- Whether a path leads to a directory. -/
def isDirectory (d : Disk) (p : Path) : Bool :=
  match d.find p with
  | .ok .directory => true
  | _ => false

/-- The disk after writing a text to a file. -/
def write (d : Disk) (p : Path) (text : String) : Except FileFault Disk := do
  let place ← d.locate p
  match d.node? place with
  | some .directory => throw .isADirectory
  | _ =>
    d.ask place (.put (.file text.toUTF8))
    return d.put place (.file text.toUTF8)

/-- The segments of a path without empty ones at its end. -/
def directorySegments (p : Path) : List String :=
  (p.segments.reverse.dropWhile (·.isEmpty)).reverse

/-- The disk after making one directory, where there must be nothing so far. -/
def makeDirectory (d : Disk) (p : Path) : Except FileFault Disk := do
  let place ← d.locateSegments p (directorySegments p)
  match d.node? place with
  | some _ => throw .alreadyExists
  | none =>
    d.ask place (.put .directory)
    return d.put place .directory

/-- Makes one directory; one that is there already is as good as one made. -/
def ensureDirectory (d : Disk) (p : Path) : Except FileFault Unit × Disk :=
  match d.makeDirectory p with
  | .ok d => (.ok (), d)
  | .error fault => (if d.isDirectory p then .ok () else .error fault, d)

/-- Makes the first of the given paths a directory, the others being the paths above it, nearest first.
Directories above are only made where one is missing. If that fails at one of them, those made before
stay. -/
def makeFirst (d : Disk) : List Path → Except FileFault Unit × Disk
  | [] => (.ok (), d)
  | p :: above =>
    match d.makeDirectory p with
    | .error .notFound =>
      match d.makeFirst above with
      | (.ok (), d) => d.ensureDirectory p
      | (.error fault, d) => (.error fault, d)
    | _ => d.ensureDirectory p

/-- Makes a directory and those above it that are missing. -/
def makeDirectories (d : Disk) (p : Path) : Except FileFault Unit × Disk :=
  if p.text.isEmpty then (.ok (), d) else d.makeFirst p.ancestors

/-- The outcome of an operation and the disk after it; a failing one leaves the disk as it was. -/
def attempt (operation : Disk → Except FileFault Disk) : StateM Disk (Except FileFault Unit) :=
  fun d => match operation d with
    | .ok d' => (.ok (), d')
    | .error fault => (.error fault, d)

instance : FileStore (StateM Disk) where
  read p := fun d => (d.read p, d)
  isDirectory p := fun d => (d.isDirectory p, d)
  makeDirectories p := fun d => d.makeDirectories p
  write p text := attempt (·.write p text)

/-- The disk with something put where segments lead to from a place, and a directory at every place on
the way there that has nothing. A directory is only put where there is nothing. -/
def plant (d : Disk) (node : Node) : Place → List String → Disk
  | place, [] =>
    match node, d.node? place with
    | .directory, some _ => d
    | node, _ => d.put place node
  | place, segment :: rest =>
    let d := if (d.node? place).isSome then d else d.put place .directory
    let next :=
      if segment = "" ∨ segment = "." then place
      else if segment = ".." then above place
      else place ++ [segment]
    d.plant node next rest

/-- The disk that holds the given files and directories and the directories they stand in. -/
def ofList (nodes : List (Path × Node)) : Disk :=
  nodes.foldl (fun d n => d.plant n.2 [] n.1.segments) empty

/-- The files below the working directory that are new since an earlier state of the disk or have
another content, each with its names and its content. -/
def changedFiles (before after : Disk) : List (Place × ByteArray) :=
  after.entries.filterMap fun (place, node) =>
    match node with
    | .directory => none
    | .file content =>
      if place.head? == some ".." || place.head? == some "/" then none
      else match before.entries.lookup place with
        | some (.file earlier) => if earlier.data == content.data then none else some (place, content)
        | _ => some (place, content)

end Disk

end FunctionService
