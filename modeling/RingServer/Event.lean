/-!
Events that the server reports about itself, by level. A filter lets an event through if its level
is at least as grave as the one it names.
-/
namespace RingServer

inductive Level
  | error
  | warn
  | info
  | debug
  | trace
  deriving DecidableEq, Repr

namespace Level

def name : Level → String
  | error => "ERROR"
  | warn => "WARN"
  | info => "INFO"
  | debug => "DEBUG"
  | trace => "TRACE"

def all : List Level := [error, warn, info, debug, trace]

/-- The level of a name in lower case. -/
def ofName? (s : String) : Option Level := all.find? fun l => l.name.map Char.toLower = s

/-- The gravest level is 1. -/
def rank : Level → Nat
  | error => 1
  | warn => 2
  | info => 3
  | debug => 4
  | trace => 5

end Level

structure Event where
  level : Level
  message : String
  fields : List (String × String)
  deriving DecidableEq, Repr

/-- One line: level, message, then the fields as `name=value`. -/
def Event.line (e : Event) : String :=
  " ".intercalate (e.level.name :: e.message :: e.fields.map fun f => f.1 ++ "=" ++ f.2)

/-- The highest rank that is let through; 0 lets nothing through. -/
structure EventFilter where
  rank : Nat
  deriving DecidableEq, Repr

namespace EventFilter

def passes (f : EventFilter) (e : Event) : Bool := e.level.rank ≤ f.rank

/-- Reads a filter: a level in any case of letters, its rank, or `off`. A word that names no level
stands for a part of the program that does not exist and lets nothing through. -/
def ofText (s : String) : EventFilter :=
  match s.map Char.toLower with
  | "" | "error" | "1" => ⟨1⟩
  | "warn" | "2" => ⟨2⟩
  | "info" | "3" => ⟨3⟩
  | "debug" | "4" => ⟨4⟩
  | "trace" | "5" => ⟨5⟩
  | _ => ⟨0⟩

end EventFilter

end RingServer
