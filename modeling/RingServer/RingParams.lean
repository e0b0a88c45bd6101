import RingServer.Fault

/-!
Description of a buffer ring: how many buffers, of which size, under which group number. Its text
form is the three numbers with colons between them.
-/
namespace RingServer

structure RingParams where
  entries : UInt16
  entrySize : UInt32
  group : UInt16
  deriving DecidableEq, Repr

def isPowerOfTwo (n : Nat) : Bool := n ≠ 0 && n &&& (n - 1) = 0

namespace RingParams

def maxEntries : Nat := 32768

/-- The number of entries is a power of two up to `maxEntries`, and buffers are not empty. -/
def validate (p : RingParams) : Except Fault Unit := do
  unless isPowerOfTwo p.entries.toNat && p.entries.toNat ≤ maxEntries do
    throw (.config (.ringEntries p.group p.entries))
  if p.entrySize = 0 then throw (.config (.ringEntrySize p.group))

def text (p : RingParams) : String := s!"{p.entries}:{p.entrySize}:{p.group}"

/-- The three numbers of a description, if it has that form. -/
def fields? (cs : List Char) : Option RingParams :=
  match cs.splitOn ':' with
  | [entries, entrySize, group] => do
    let entries ← (Text.readNat (UInt16.size - 1) entries).toOption
    let entrySize ← (Text.readNat (UInt32.size - 1) entrySize).toOption
    let group ← (Text.readNat (UInt16.size - 1) group).toOption
    return ⟨UInt16.ofNat entries, UInt32.ofNat entrySize, UInt16.ofNat group⟩
  | _ => none

/-- Reads a description, blanks around it aside, and checks it. -/
def parse (s : String) : Except Fault RingParams :=
  match fields? (Text.trim s.toList) with
  | none => .error (.config (.ringText s))
  | some p => p.validate.map fun _ => p

end RingParams

end RingServer
