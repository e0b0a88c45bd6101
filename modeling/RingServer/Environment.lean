import RingServer.Text.Blank
import RingServer.Text.Quoted

/-!
Environment variables as configuration. A blank value counts as unset, and so does one that is not
UTF-8. A single value that cannot be read falls back to its default; a list is read as a whole or
not at all.
-/
namespace RingServer

/-- What the environment holds for a name. -/
inductive Variable
  | unset
  | text (s : String)
  /-- Bytes that are not UTF-8. -/
  | garbled
  deriving DecidableEq, Repr

abbrev Environment := String → Variable

namespace Variable

/-- The value without blanks around it, unless nothing else is there. -/
def value? : Variable → Option String
  | text s =>
    let cs := Text.trim s.toList
    if cs = [] then none else some (String.ofList cs)
  | unset | garbled => none

def read? {ε α : Type} (read : String → Except ε α) (v : Variable) : Option α :=
  v.value?.bind fun s => (read s).toOption

def readOr {ε α : Type} (read : String → Except ε α) (default : α) (v : Variable) : α :=
  (v.read? read).getD default

/-- The two values that a word stands for, in any case of ASCII letters. -/
def flag? (s : String) : Option Bool :=
  let word := Text.lowerAscii s
  if word ∈ ["1", "true", "yes", "on"] then some true
  else if word ∈ ["0", "false", "no", "off"] then some false
  else none

def flagOr (default : Bool) (v : Variable) : Bool := (v.value?.bind flag?).getD default

/-- The pieces between commas, without blanks around them and without the empty ones. -/
def pieces (s : String) : List String :=
  (((s.toList.splitOn ',').map Text.trim).filter fun cs => cs ≠ []).map String.ofList

/-- Every piece read, or the fault of the first that cannot be. -/
def readList {ε α : Type} (read : String → Except ε α) (default : List α) (v : Variable) :
    Except ε (List α) :=
  match v.value? with
  | none => .ok default
  | some s => (pieces s).mapM read

end Variable

/-- Any text, taken as it is. -/
def readText (s : String) : Except Empty String := .ok s

end RingServer
