import FunctionService.Path

/-!
# Command lines

A command line names a command, `check` or `build`, with options before and after it. Options in front
of the command are for all commands, and may be given behind it as well, where they take precedence. An
option is given at most once on either side. A value follows its option as the next argument, unless
that starts with a dash, or is attached to it. After `--` every argument is a plain word.

Arguments are taken from left to right, and the first one that is not in order, or that asks for help,
decides how the command line ends. A text that is an argument of its own, be it a value or a word, is
held back and only looked at when the next option or word of its scope comes up; the command is no word
of the scope in front of it, so a value right before the command is looked at after all that follows.
-/

namespace FunctionService

/-- What is to be done. -/
inductive Command where
  /-- Report the violations of a package. -/
  | check (package : Path) (json : Bool)
  /-- Write the service of a package. -/
  | build (package output : Path) (port : Option UInt16) (json force : Bool)
  deriving DecidableEq

/-- A command with the options for all commands. -/
structure Invocation where
  config : Option Path
  sequential : Bool
  command : Command
  deriving DecidableEq

namespace Invocation

/-- Where options are given: in front of the command, or behind one of the two. -/
inductive Scope where
  | all
  | check
  | build
  deriving DecidableEq

/-- Why a command line does not lead to a command: it asks for help, or it is not understood. -/
inductive Stop where
  | help (scope : Scope)
  | usage
  deriving DecidableEq

/-- The options. -/
inductive Flag where
  | config
  | sequential
  | json
  | force
  | output
  | port
  | help
  deriving DecidableEq

namespace Flag

/-- The name of an option. -/
def name : Flag → String
  | .config => "config"
  | .sequential => "sequential"
  | .json => "json"
  | .force => "force"
  | .output => "output"
  | .port => "port"
  | .help => "help"

/-- The letter of an option that has one. -/
def letter? : Flag → Option Char
  | .config => some 'c'
  | .output => some 'o'
  | .port => some 'p'
  | .help => some 'h'
  | _ => none

/-- Whether an option takes a value. -/
def takesValue : Flag → Bool
  | .config => true
  | .output => true
  | .port => true
  | _ => false

/-- The options that can be given in a scope. -/
def inScope : Scope → List Flag
  | .all => [.config, .sequential, .help]
  | .check => [.config, .sequential, .help, .json]
  | .build => [.config, .sequential, .help, .json, .force, .output, .port]

end Flag

/-- What an argument is. -/
inductive Item where
  /-- An option that needs nothing more. -/
  | given (flag : Flag) (value : String)
  /-- An option whose value is the next argument. -/
  | awaiting (flag : Flag)
  /-- The mark after which all arguments are words. -/
  | wordsFollow
  | word (text : String)
  | unknown

/-- An option that was named, with the value attached to it. -/
def Item.ofFlag (flag : Option Flag) (attached : Option (List Char)) : Item :=
  match flag, attached with
  | none, _ => .unknown
  | some flag, none => if flag.takesValue then .awaiting flag else .given flag ""
  | some flag, some value => if flag.takesValue then .given flag (String.ofList value) else .unknown

/-- What an argument is in a scope. An option is spelled out behind two dashes, with an equals sign in
front of an attached value, or given by its letter behind one dash. The letter that asks for help counts
whatever is attached to it. -/
def Item.ofArgument (scope : Scope) (argument : String) : Item :=
  match argument.toList with
  | ['-'] => .word argument
  | ['-', '-'] => .wordsFollow
  | '-' :: '-' :: rest =>
    let name := String.ofList (rest.takeWhile (· != '='))
    let attached := match rest.dropWhile (· != '=') with
      | [] => none
      | _ :: value => some value
    .ofFlag ((Flag.inScope scope).find? fun f => f.name == name) attached
  | '-' :: letter :: rest =>
    let attached := match rest with
      | [] => none
      | '=' :: value => some value
      | value => some value
    match (Flag.inScope scope).find? fun f => f.letter? == some letter with
    | some .help => .given .help ""
    | flag => .ofFlag flag attached
  | _ => .word argument

/-- Whether an argument can be the value of the option in front of it. -/
def isValue (argument : String) : Bool :=
  match argument.toList with
  | ['-'] => true
  | '-' :: _ => false
  | _ => true

/-- A path, which must not be empty. -/
def path (text : String) : Except Stop Path :=
  if text.isEmpty then .error .usage else .ok ⟨text⟩

/-- A port number: decimal digits, with a sign or without. -/
def port (text : String) : Except Stop UInt16 :=
  let (negative, digits) := match text.toList with
    | '-' :: digits => (true, digits)
    | '+' :: digits => (false, digits)
    | digits => (false, digits)
  let value := digits.foldl (fun n d => 10 * n + (d.toNat - '0'.toNat)) 0
  if digits.isEmpty || !digits.all Char.isDigit || value ≥ UInt16.size || (negative && value != 0) then
    .error .usage
  else .ok (UInt16.ofNat value)

/-- A value that is given at most once. -/
def once (earlier : Option α) (value : Except Stop α) : Except Stop (Option α) :=
  if earlier.isSome then .error .usage else value.map some

/-- A switch that is given at most once. -/
def onceOn (earlier : Bool) : Except Stop Bool :=
  if earlier then .error .usage else .ok true

/-- What was given in a scope. -/
structure Given where
  config : Option Path := none
  sequential : Bool := false
  json : Bool := false
  force : Bool := false
  output : Option Path := none
  port : Option UInt16 := none
  package : Option Path := none

namespace Given

/-- Takes an option with its value. -/
def takeFlag (scope : Scope) (g : Given) (flag : Flag) (value : String) : Except Stop Given := do
  match flag with
  | .config => return { g with config := ← once g.config (path value) }
  | .sequential => return { g with sequential := ← onceOn g.sequential }
  | .json => return { g with json := ← onceOn g.json }
  | .force => return { g with force := ← onceOn g.force }
  | .output => return { g with output := ← once g.output (path value) }
  | .port => return { g with port := ← once g.port (Invocation.port value) }
  | .help => throw (.help scope)

/-- Takes a word. There is one, the package. -/
def takeWord (g : Given) (text : String) : Except Stop Given := do
  return { g with package := ← once g.package (path text) }

end Given

/-- An argument that is held back. -/
inductive Held where
  | value (flag : Flag) (text : String)
  | word (text : String)

/-- What was taken in a scope, and the argument that is held back. -/
structure Progress where
  given : Given := {}
  held : Option Held := none

namespace Progress

/-- Takes the argument that is held back. -/
def settle (scope : Scope) (p : Progress) : Except Stop Given :=
  match p.held with
  | none => .ok p.given
  | some (.value flag text) => p.given.takeFlag scope flag text
  | some (.word text) => p.given.takeWord text

/-- Holds back an argument in the place of an earlier one, which is taken. -/
def hold (scope : Scope) (p : Progress) (argument : Held) : Except Stop Progress := do
  return { given := ← p.settle scope, held := some argument }

end Progress

/-- Reads arguments in a scope. Reading ends at the first word if `ends` says so, which is then handed
back with what follows it. -/
def readScope (scope : Scope) (ends : Bool) :
    List String → Progress → Except Stop (Progress × List String)
  | [], p => .ok (p, [])
  | argument :: rest, p =>
    match Item.ofArgument scope argument with
    | .given flag value => do
      let g ← p.settle scope
      let g ← g.takeFlag scope flag value
      readScope scope ends rest { given := g }
    | .awaiting flag =>
      match rest with
      | value :: rest =>
        if isValue value then do
          let p ← p.hold scope (.value flag value)
          readScope scope ends rest p
        else .error .usage
      | [] => .error .usage
    | .wordsFollow =>
      if ends then
        if rest.isEmpty then .ok (p, []) else .error .usage
      else do
        let p ← rest.foldlM (fun p word => p.hold scope (.word word)) p
        return (p, [])
    | .word text =>
      if ends then .ok (p, argument :: rest)
      else do
        let p ← p.hold scope (.word text)
        readScope scope ends rest p
    | .unknown => .error .usage

/-- The package that a command is about. -/
def package (g : Given) : Except Stop Path :=
  match g.package with
  | none => .error .usage
  | some path => .ok path

/-- The command with what was given behind it. -/
def commandOf (scope : Scope) (g : Given) : Except Stop Command := do
  match scope with
  | .all => throw .usage
  | .check => return .check (← package g) g.json
  | .build => return .build (← package g) (g.output.getD ⟨"."⟩) g.port g.json g.force

/-- The scope behind a command word. -/
def scopeOf? (word : String) : Option Scope :=
  if word = "check" then some .check
  else if word = "build" then some .build
  else none

/-- What help is asked for by the words behind the word for it. -/
def helpStop : List String → Stop
  | [] => .help .all
  | ["help"] => .help .all
  | [word] =>
    match scopeOf? word with
    | some scope => .help scope
    | none => .usage
  | _ => .usage

/-- Reads a command line. -/
def parse (arguments : List String) : Except Stop Invocation := do
  let (before, rest) ← readScope .all true arguments {}
  match rest with
  | [] => throw .usage
  | word :: rest =>
    if word = "help" then throw (helpStop rest)
    match scopeOf? word with
    | none => throw .usage
    | some scope =>
      let (behind, _) ← readScope scope false rest {}
      let behind ← behind.settle scope
      let command ← commandOf scope behind
      let before ← before.settle .all
      return {
        config := behind.config.or before.config
        sequential := before.sequential || behind.sequential
        command }

end Invocation

end FunctionService
