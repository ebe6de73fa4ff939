import QueryShape.Catalog.Load
import QueryShape.CommandLine.Arguments
import QueryShape.CommandLine.Reference
import QueryShape.CommandLine.Table
import QueryShape.Log

/-!
# The command line program

`CommandLine.run` tells what the program writes and the code it ends with, given its arguments, the
environment and a way to read files.
-/

set_option autoImplicit false

namespace QueryShape.CommandLine

structure Environment where
  /-- The unit of indentation, where no option gives one. -/
  indent : Option String := none
  /-- The name of the log level. -/
  logLevel : Option String := none
  /-- Whether a person sees the output. -/
  terminal : Bool := false
deriving DecidableEq, Repr, Inhabited

structure Outcome where
  code : Nat
  output : String := ""
  /-- The messages of the log and of errors. -/
  log : List String := []
deriving DecidableEq, Repr, Inhabited

/-- The lines of the messages. A line ends with a line feed, and a carriage return before it belongs to
the end. -/
def Outcome.logLines (o : Outcome) : List String :=
  (o.log.flatMap (·.splitOn "\n")).map fun line =>
    if line.toList.getLast? = some '\r' then String.ofList line.toList.dropLast else line

/-- The text with tabs for what stands for them: a backslash and the letter. -/
def expandTabs : List Char → List Char
  | [] => []
  | '\\' :: 't' :: rest => '\t' :: expandTabs rest
  | c :: rest => c :: expandTabs rest

/-- The chosen unit of indentation: that of the option, else that of the environment. -/
def chosenIndent (env : Environment) (i : Invocation) : Option String :=
  (i.indent <|> env.indent).map fun unit => String.ofList (expandTabs unit.toList)

def threshold (env : Environment) (i : Invocation) : LogLevel :=
  if i.verbose then .debug else (env.logLevel.map LogLevel.ofName).getD .warn

def outputFormat (env : Environment) (i : Invocation) : OutputFormat :=
  i.format.getD (if env.terminal then .human else .json)

/-- Loads a catalog and compiles its root; the error is a message. -/
def compileFile (read : String → Except ReadFault String) (unit path : String) :
    Except String Compiled × List Event :=
  match Catalog.loadLogged read path with
  | (.error e, events) => (.error e.message, events)
  | (.ok c, events) =>
    let (result, more) := c.table.compileLogged unit (some c.root)
    (result.mapError Failure.message,
      events ++ .compilingCatalog path c.layout.root :: more.toList)

/-- Rows under a heading, or a note that there are none. -/
def tableOrNote (heading : List String) (rows : List (List String)) : String :=
  if rows.isEmpty then "No results." else table (heading :: rows)

def variableRow (v : Variable) : List String :=
  ["$" ++ v.name, v.type.getD "", (v.default.map Value.defaultText).getD "",
    ", ".intercalate v.usagePaths]

/-- The variables of an operation as text. -/
def variablesText (format : OutputFormat) (c : Compiled) : String :=
  match format with
  | .json => (Json.array (c.vars.map Variable.toJson)).pretty
  | .human => tableOrNote ["name", "type", "default", "used at"] (c.vars.map variableRow)

/-- The fragments of an operation as text. -/
def fragmentsText (format : OutputFormat) (c : Compiled) : String :=
  match format with
  | .json => (Json.array (c.fragments.map Fragment.toJson)).pretty
  | .human => tableOrNote ["name", "on"] (c.fragments.map fun f => [f.name, f.targetType])

/-- The document of an operation as text; in JSON the parts of the operation follow it. -/
def documentText (format : OutputFormat) (c : Compiled) (kind : OperationKind)
    (name : Option String) : Except String String := do
  let document ← (c.document kind name).mapError Failure.message
  match format with
  | .human => pure document
  | .json => pure (Json.object (("document", .string document) :: c.jsonFields)).pretty

/-- The hint about the unit of indentation in the environment. -/
def indentHint (env : Environment) : String :=
  match env.indent with
  | some unit => s!" (set: {Text.quoted unit})"
  | none => ""

/-- What a command writes, or the message of its error, and what happened on the way. -/
def perform (read : String → Except ReadFault String) (env : Environment) (unit : String)
    (format : OutputFormat) : Command → Except String String × List Event
  | .compile file mutation name =>
    let (result, events) := compileFile read unit file
    (result.bind fun c =>
      (documentText format c (if mutation then .mutation else .query) name).map (· ++ "\n"), events)
  | .listVariables file =>
    let (result, events) := compileFile read unit file
    (result.map fun c => variablesText format c ++ "\n", events)
  | .listFragments file =>
    let (result, events) := compileFile read unit file
    (result.map fun c => fragmentsText format c ++ "\n", events)
  | .usage => (.ok (reference (indentHint env)), [])

/-- Runs a command. -/
def execute (read : String → Except ReadFault String) (env : Environment) (i : Invocation) :
    Outcome :=
  let chosen := chosenIndent env i
  let (result, events) :=
    perform read env (chosen.getD defaultIndent) (outputFormat env i) i.command
  let events := (chosen.map Event.usedIndent).toList ++ events
  let log := Event.lines (threshold env i) events
  match result with
  | .ok output => { code := 0, output, log }
  | .error message => { code := 1, log := log ++ ["Error: " ++ message] }

/-- The name and version of the program. -/
def versionText : String := "shapeql 0.1.0\n"

/-- Runs the program. -/
def run (read : String → Except ReadFault String) (env : Environment) (arguments : List String) :
    Outcome :=
  match parse arguments with
  | .ok i => execute read env i
  | .error .version => { code := 0, output := versionText }
  | .error .help => { code := 0, output := reference (indentHint env) }
  | .error .misuse => { code := 2, log := ["Error: wrong arguments; see the command usage"] }

end QueryShape.CommandLine
