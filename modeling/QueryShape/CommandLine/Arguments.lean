/-!
# Arguments of the command line

`CommandLine.parse` reads the arguments of the program: options that hold for every command, the name of
a command, and the options and the file of that command. The options for all commands may stand before
or after its name.
-/

set_option autoImplicit false

namespace QueryShape.CommandLine

inductive OutputFormat where
  | human
  | json
deriving DecidableEq, Repr, Inhabited

inductive Command where
  | compile (file : String) (mutation : Bool) (name : Option String)
  | listVariables (file : String)
  | listFragments (file : String)
  | usage
deriving DecidableEq, Repr, Inhabited

structure Invocation where
  format : Option OutputFormat
  indent : Option String
  verbose : Bool
  command : Command
deriving DecidableEq, Repr, Inhabited

/-- Why there is no command to run. -/
inductive Stop where
  | misuse
  | version
  | help
deriving DecidableEq, Repr, Inhabited

/-- Where options stand: before the name of a command, or after it. -/
inductive Place where
  | program
  | compile
  | listVariables
  | listFragments
  | usage
deriving DecidableEq, Repr, Inhabited

namespace Place

def ofCommandName? : String → Option Place
  | "compile" => some compile
  | "variables" => some listVariables
  | "fragments" => some listFragments
  | "usage" => some usage
  | _ => none

/-- Whether a file is named here. -/
def takesFile : Place → Bool
  | program => false
  | usage => false
  | _ => true

end Place

inductive Switch where
  | format
  | indent
  | verbose
  | mutation
  | name
  | version
  | help
deriving DecidableEq, Repr, Inhabited

namespace Switch

def takesValue : Switch → Bool
  | format => true
  | indent => true
  | name => true
  | _ => false

/-- Whether an option is known at a place. -/
def allowedAt (place : Place) : Switch → Bool
  | mutation => place = .compile
  | name => place = .compile
  | version => place = .program
  | _ => true

/-- The option with a long name. -/
def ofLong? (place : Place) (name : String) : Option Switch :=
  (match name with
    | "format" => some format
    | "indent" => some indent
    | "verbose" => some verbose
    | "mutation" => some mutation
    | "name" => some Switch.name
    | "version" => some version
    | "help" => some help
    | _ => none).filter (allowedAt place)

/-- The option with a short name. -/
def ofShort? (place : Place) (c : Char) : Option Switch :=
  (match c with
    | 'v' => some verbose
    | 'm' => some mutation
    | 'n' => some name
    | 'V' => some version
    | 'h' => some help
    | _ => none).filter (allowedAt place)

end Switch

/-- What has been given at one place. -/
structure Given where
  format : Option OutputFormat := none
  indent : Option String := none
  verbose : Bool := false
  mutation : Bool := false
  name : Option String := none
  file : Option String := none
deriving Repr, Inhabited

namespace Given

/-- Takes in an option with a value. None may come twice. -/
def setValue (g : Given) (value : String) : Switch → Except Stop Given
  | .format =>
    if g.format.isSome then .error .misuse
    else
      match value with
      | "human" => .ok { g with format := some .human }
      | "json" => .ok { g with format := some .json }
      | _ => .error .misuse
  | .indent => if g.indent.isSome then .error .misuse else .ok { g with indent := some value }
  | .name => if g.name.isSome then .error .misuse else .ok { g with name := some value }
  | _ => .error .misuse

/-- Takes in an option without a value. -/
def setFlag (g : Given) : Switch → Except Stop Given
  | .verbose => if g.verbose then .error .misuse else .ok { g with verbose := true }
  | .mutation => if g.mutation then .error .misuse else .ok { g with mutation := true }
  | .version => .error .version
  | .help => .error .help
  | _ => .error .misuse

/-- Takes in an argument that is no option. -/
def setFile (g : Given) (place : Place) (file : String) : Except Stop Given :=
  if place.takesFile && g.file.isNone && !file.isEmpty then .ok { g with file := some file }
  else .error .misuse

/-- Takes in an option with a long name, where a value may follow an equals sign. Gives the option that
still waits for its value. -/
def takeLong (g : Given) (place : Place) (cs : List Char) : Except Stop (Given × Option Switch) :=
  let name := cs.takeWhile (· ≠ '=')
  match Switch.ofLong? place (String.ofList name), cs.drop name.length with
  | none, _ => .error .misuse
  | some s, [] => if s.takesValue then .ok (g, some s) else (g.setFlag s).map (·, none)
  | some s, _ :: value =>
    if s.takesValue then (g.setValue (String.ofList value) s).map (·, none) else .error .misuse

/-- The value in the rest of a group of short names. -/
def attached : List Char → List Char
  | '=' :: value => value
  | value => value

/-- Takes in a group of short names. One that takes a value takes the rest of the group, or waits for
the next argument. -/
def takeShort (g : Given) (place : Place) : List Char → Except Stop (Given × Option Switch)
  | [] => .ok (g, none)
  | c :: rest =>
    match Switch.ofShort? place c with
    | none => .error .misuse
    | some s =>
      if s.takesValue then
        if rest = [] then .ok (g, some s)
        else (g.setValue (String.ofList (attached rest)) s).map (·, none)
      else do takeShort (← g.setFlag s) place rest

/-- Takes in an option, which is an argument that starts with a hyphen and is more than that. -/
def takeOption (g : Given) (place : Place) : List Char → Except Stop (Given × Option Switch)
  | '-' :: '-' :: cs => g.takeLong place cs
  | _ :: cs => g.takeShort place cs
  | [] => .error .misuse

end Given

def isOption (argument : String) : Bool := argument.startsWith "-" && argument ≠ "-"

/-- Why there is no command to run where help is asked for. It is given for the program or for one of its
commands. -/
def helpStop : List String → Stop
  | [] => .help
  | [name] => if name = "help" || (Place.ofCommandName? name).isSome then .help else .misuse
  | _ => .misuse

/-- The arguments up to the name of a command; `waiting` is an option that waits for its value. -/
def parseProgram (g : Given) (waiting : Option Switch) :
    List String → Except Stop (Given × Place × List String)
  | [] => .error .misuse
  | a :: rest =>
    match waiting with
    | some s => do
      if isOption a then .error .misuse else parseProgram (← g.setValue a s) none rest
    | none =>
      if a = "--" then .error .misuse
      else if isOption a then do
        let (g, waiting) ← g.takeOption .program a.toList
        parseProgram g waiting rest
      else
        match Place.ofCommandName? a with
        | some place => .ok (g, place, rest)
        | none => .error (if a = "help" then helpStop rest else .misuse)

/-- The arguments after the name of a command; after `--` none is an option. -/
def parseCommand (place : Place) (g : Given) (waiting : Option Switch) (literal : Bool) :
    List String → Except Stop Given
  | [] => if waiting.isSome then .error .misuse else .ok g
  | a :: rest =>
    match waiting with
    | some s => do
      if isOption a then .error .misuse
      else parseCommand place (← g.setValue a s) none literal rest
    | none =>
      if literal then do parseCommand place (← g.setFile place a) none true rest
      else if a = "--" then parseCommand place g none true rest
      else if isOption a then do
        let (g, waiting) ← g.takeOption place a.toList
        parseCommand place g waiting false rest
      else do parseCommand place (← g.setFile place a) none false rest

/-- The command at a place. -/
def Given.command? (g : Given) : Place → Option Command
  | .program => none
  | .compile => g.file.map (.compile · g.mutation g.name)
  | .listVariables => g.file.map .listVariables
  | .listFragments => g.file.map .listFragments
  | .usage => some .usage

/-- Reads the arguments of the program. What stands after the name of the command wins over what stands
before. -/
def parse (arguments : List String) : Except Stop Invocation := do
  let (before, place, rest) ← parseProgram {} none arguments
  let after ← parseCommand place {} none false rest
  match after.command? place with
  | none => .error .misuse
  | some command =>
    pure ⟨after.format <|> before.format, after.indent <|> before.indent,
      before.verbose || after.verbose, command⟩

end QueryShape.CommandLine
