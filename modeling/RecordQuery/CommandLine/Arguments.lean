/-!
# Arguments of the command line

* `Invocation`: what a command line asks for;
* `Token`: how one argument reads on its own;
* `readLevel`: the switches before a command, or after it;
* `Invocation.parse`: the invocation that the arguments describe, or the reason to stop.

A switch is given as `--name value` or `--name=value`. The switches `format`, `config` and `explain`
may stand before the command and after it, and the later place counts. A switch is given at most
once in each place, except `map`.
-/

namespace RecordQuery.CommandLine

inductive Format
  | text
  | json
  deriving DecidableEq, Repr

/-- The files with the types and the rows, and the type of the rows. -/
structure Input where
  schema : String
  root : String
  data : String
  deriving DecidableEq, Repr

inductive Command
  | filter (filters : String)
  | textFilter (property text : String)
  | project (mappings : List String)
  deriving DecidableEq, Repr

structure Invocation where
  format : Format
  config : Option String
  explain : Bool
  input : Input
  command : Command
  deriving DecidableEq, Repr

/-- Why nothing is run. -/
inductive Stop
  | usage
  | help
  | version
  deriving DecidableEq, Repr

/-! ## Switches -/

inductive Takes
  | nothing
  | text
  /-- A text that is not empty. -/
  | path
  | format
  | help
  | version
  deriving DecidableEq, Repr

structure Switch where
  name : String
  takes : Takes
  repeats : Bool
  deriving DecidableEq, Repr

def sharedSwitches : List Switch :=
  [⟨"format", .format, false⟩, ⟨"config", .path, false⟩, ⟨"explain", .nothing, false⟩,
    ⟨"help", .help, false⟩]

def outerSwitches : List Switch := sharedSwitches ++ [⟨"version", .version, false⟩]

def inputSwitches : List Switch :=
  sharedSwitches ++ [⟨"schema", .path, false⟩, ⟨"root", .text, false⟩, ⟨"data", .path, false⟩]

def commandSwitches? : String → Option (List Switch)
  | "filter" => some (inputSwitches ++ [⟨"filters", .path, false⟩])
  | "text-filter" => some (inputSwitches ++ [⟨"property", .text, false⟩, ⟨"text", .text, false⟩])
  | "project" => some (inputSwitches ++ [⟨"map", .text, true⟩])
  | _ => none

abbrev Given := List (String × String)

def formatOf? : String → Option Format
  | "text" => some .text
  | "json" => some .json
  | _ => none

def Takes.accepts : Takes → String → Bool
  | .text, _ => true
  | .path, value => !value.isEmpty
  | .format, value => (formatOf? value).isSome
  | _, _ => false

def note (given : Given) (s : Switch) (value : String) : Except Stop Given :=
  if (given.lookup s.name).isSome && !s.repeats then .error .usage
  else .ok (given ++ [(s.name, value)])

def noteValue (given : Given) (s : Switch) (value : String) : Except Stop Given :=
  if s.takes.accepts value then note given s value else .error .usage

/-! ## Tokens -/

inductive Token
  /-- The argument `--`, after which no switches come. -/
  | divider
  | long (name : String) (value : Option String)
  | short (letter : Char)
  | word (text : String)
  deriving DecidableEq, Repr

def Token.ofArgument (arg : String) : Token :=
  match arg.toList with
  | ['-', '-'] => .divider
  | '-' :: '-' :: cs =>
    let value := match cs.dropWhile (· != '=') with
      | _ :: value => some (String.ofList value)
      | [] => none
    .long (.ofList (cs.takeWhile (· != '='))) value
  | '-' :: c :: _ => .short c
  | _ => .word arg

/-- What a switch leads to that stands without a value. The right part is a switch that waits for
one. -/
def startSwitch (given : Given) (s : Switch) : Except Stop (Given × Option Switch) :=
  match s.takes with
  | .help => .error .help
  | .version => .error .version
  | .nothing => do return (← note given s "", none)
  | .text | .path | .format => .ok (given, some s)

/-- Reads the switches of one place. Returns them with the command that ends them, if one does, and
the arguments after it. -/
def readLevel (switches : List Switch) (isCommand : String → Bool) (given : Given)
    (waiting : Option Switch) : List String → Except Stop (Given × Option (String × List String))
  | [] => if waiting.isSome then .error .usage else .ok (given, none)
  | arg :: args =>
    match waiting, Token.ofArgument arg with
    | some s, .word value => do
      readLevel switches isCommand (← noteValue given s value) none args
    | some _, _ => .error .usage
    | none, .divider => if args.isEmpty then .ok (given, none) else .error .usage
    | none, .word word => if isCommand word then .ok (given, some (word, args)) else .error .usage
    | none, .short letter =>
      if letter == 'h' then .error .help
      else if letter == 'V' && switches.any (·.takes == .version) then .error .version
      else .error .usage
    | none, .long name value =>
      match switches.find? (·.name == name), value with
      | none, _ => .error .usage
      | some s, some value => do
        readLevel switches isCommand (← noteValue given s value) none args
      | some s, none => do
        let (given, waiting) ← startSwitch given s
        readLevel switches isCommand given waiting args

/-! ## Invocations -/

def required (given : Given) (name : String) : Except Stop String :=
  (given.lookup name).elim (.error .usage) .ok

def requiredAll (given : Given) (name : String) : Except Stop (List String) :=
  let values := (given.filter (·.1 == name)).map (·.2)
  if values.isEmpty then .error .usage else .ok values

def readCommand (given : Given) : String → Except Stop Command
  | "filter" => (required given "filters").map .filter
  | "text-filter" => do return .textFilter (← required given "property") (← required given "text")
  | "project" => (requiredAll given "map").map .project
  | _ => .error .usage

namespace Invocation

/-- The invocation that the arguments describe. `fallback` stands in for the switch `config` in
either place where it is missing. -/
def parse (fallback : Option String) (args : List String) : Except Stop Invocation := do
  let (outer, command) ←
    readLevel outerSwitches (fun word => (commandSwitches? word).isSome) [] none args
  let some (name, args) := command | throw .usage
  let some switches := commandSwitches? name | throw .usage
  let (inner, _) ← readLevel switches (fun _ => false) [] none args
  let input : Input :=
    ⟨← required inner "schema", ← required inner "root", ← required inner "data"⟩
  let command ← readCommand inner name
  if fallback = some "" ∧ ((outer.lookup "config").isNone ∨ (inner.lookup "config").isNone) then
    throw .usage
  let format := (inner.lookup "format" <|> outer.lookup "format").bind formatOf?
  let config := inner.lookup "config" <|> outer.lookup "config" <|> fallback
  let explain := ((inner ++ outer).lookup "explain").isSome
  return ⟨format.getD .text, config, explain, input, command⟩

def files (i : Invocation) : List String :=
  i.config.toList ++ [i.input.schema, i.input.data] ++
    match i.command with
    | .filter filters => [filters]
    | _ => []

end Invocation

end RecordQuery.CommandLine
