import RingServer.Event
import RingServer.Memory

/-!
Log lines, written straight into a window of memory. A `SlotWriter` keeps what fits and notes that
something did not; a line keeps its last byte for the line end, so a line that is cut is still one.
-/
namespace RingServer

open Text (utf8)

/-- A writer over `capacity` bytes of memory from `base` on. -/
structure SlotWriter where
  memory : Memory
  base : Nat
  capacity : Nat
  length : Nat
  truncated : Bool

namespace SlotWriter

def new (memory : Memory) (base capacity : Nat) : SlotWriter := ⟨memory, base, capacity, 0, false⟩

def isEmpty (w : SlotWriter) : Bool := w.length = 0

/-- Appends the bytes of a text as far as they fit. -/
def write (w : SlotWriter) (s : String) : SlotWriter :=
  let bytes := utf8 s
  let kept := bytes.take (w.capacity - w.length)
  { w with
    memory := w.memory.write (w.base + w.length) kept
    length := w.length + kept.length
    truncated := w.truncated || kept.length < bytes.length }

end SlotWriter

/-- A reading of the wall clock, in nanoseconds since the start of 1970. -/
structure Instant where
  nanoseconds : Int
  deriving DecidableEq, Repr

namespace Instant

def perSecond : Nat := 1000000000

def perMillisecond : Nat := 1000000

/-- Whole seconds since 1970; an earlier time counts as 1970. -/
def seconds (t : Instant) : Nat := t.nanoseconds.toNat / perSecond

/-- Milliseconds within the second. -/
def milliseconds (t : Instant) : Nat := t.nanoseconds.toNat % perSecond / perMillisecond

/-- Seconds, a point and three digits of milliseconds. -/
def text (t : Instant) : String :=
  let ms := t.milliseconds
  let zeros := if ms < 10 then "00" else if ms < 100 then "0" else ""
  s!"{t.seconds}.{zeros}{ms}"

end Instant

namespace LogLine

/-- The time, slot and level in front of a message. -/
def header (slot : UInt16) (level : Level) (now : Instant) : String :=
  s!"{now.text} [{slot}] [{level.name}] "

/-- Writes a line into `size` bytes of memory from `base` on; the answer is its length. -/
def format (memory : Memory) (base size : Nat) (slot : UInt16) (level : Level) (now : Instant)
    (message : String) : Nat × Memory :=
  if size = 0 then (0, memory)
  else
    let w := ((SlotWriter.new memory base (size - 1)).write (header slot level now)).write message
    (w.length + 1, w.memory.write (base + w.length) [0x0a])

end LogLine

end RingServer
