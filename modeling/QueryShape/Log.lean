import QueryShape.Event
import QueryShape.Failure
import QueryShape.Text.Quoted

/-!
# Log lines

Events as lines of a log, and how much of them is shown.
-/

set_option autoImplicit false

namespace QueryShape

/-- How much weight an event has. -/
inductive LogLevel where
  | trace
  | debug
  | info
  | warn
deriving DecidableEq, Repr, Inhabited

namespace LogLevel

def rank : LogLevel → Nat
  | trace => 0
  | debug => 1
  | info => 2
  | warn => 3

def text : LogLevel → String
  | trace => "TRACE"
  | debug => "DEBUG"
  | info => "INFO"
  | warn => "WARN"

/-- The level of a name; any other name stands for warnings. -/
def ofName : String → LogLevel
  | "trace" => trace
  | "debug" => debug
  | "info" => info
  | _ => warn

end LogLevel

/-- The number of a node, if there is one. -/
def nodeText : Option Nat → String
  | some n => s!"Some(NodeId({n}))"
  | none => "None"

def FieldKind.text : FieldKind → String
  | scalar => "Scalar"
  | object nested => s!"Object({nodeText nested})"
  | inline nested => s!"Inline({nodeText nested})"

namespace Event

def level : Event → LogLevel
  | resolvedField .. => .trace
  | spreadFragment .. => .trace
  | _ => .debug

/-- What an event says: a message, then names with values. -/
def text : Event → String
  | usedIndent unit => s!"using indent unit indent={Text.quoted unit}"
  | loadedCatalog path => s!"loaded catalog path={path}"
  | compilingCatalog path root => s!"compiling catalog path={path} root={Text.quoted root}"
  | reusedShape shape uses => s!"reusing shape shape={shape} reuse_count={uses}"
  | emptyShape shape => s!"shape has no visible members shape={shape}"
  | extractedShape shape fields isUnion =>
    s!"extracted shape shape={shape} fields={fields} union={isUnion}"
  | resolvedField shape field kind => s!"resolved field shape={shape} field={field} kind={kind.text}"
  | spreadFragment shape fragment => s!"spreading fragment shape={shape} fragment={fragment}"
  | numberedFragment shape fragment =>
    s!"fragment name already taken, using suffix shape={shape} fragment={fragment}"
  | registeredFragment shape fragment => s!"registered fragment shape={shape} fragment={fragment}"
  | newVariable name path => s!"new variable variable={name} path={Failure.pathText path}"
  | reusedVariable name path => s!"reusing variable variable={name} path={Failure.pathText path}"

/-- The lines of the events that have at least the weight of `threshold`. -/
def lines (threshold : LogLevel) (events : List Event) : List String :=
  (events.filter fun e => threshold.rank ≤ e.level.rank).map fun e => e.level.text ++ " " ++ e.text

end Event

end QueryShape
