import RingServer.BufferSource
import RingServer.Ledger

/-!
Buffer group as a plain queue of numbers, without shared memory: the kernel picks at the front, and
a recycled buffer goes to the back.
-/
namespace RingServer

open Text (Bytes)

structure BufferQueue where
  entrySize : Nat
  memory : Memory
  waiting : List UInt16
  ledger : Ledger

namespace BufferQueue

/-- All buffers waiting in order. -/
def new (group entries : UInt16) (entrySize : Nat) : BufferQueue :=
  ⟨entrySize, .blank, (List.range entries.toNat).map UInt16.ofNat, Ledger.new group entries.toNat⟩

def bufferAddress (q : BufferQueue) (id : UInt16) : Nat := id.toNat * q.entrySize

def take (id : UInt16) (length : Nat) (q : BufferQueue) :
    Except Fault ReceivedBuffer × BufferQueue :=
  let (outcome, ledger) := q.ledger.take id
  (outcome.map fun _ => ⟨q.ledger.group, id, min length q.entrySize⟩, { q with ledger })

def data (q : BufferQueue) (b : ReceivedBuffer) : Bytes :=
  q.memory.read (q.bufferAddress b.id) b.length

def recycle (b : ReceivedBuffer) (q : BufferQueue) : BufferQueue :=
  match q.ledger.giveBack b.id with
  | (true, ledger) => { q with ledger, waiting := q.waiting ++ [b.id] }
  | (false, _) => q

def select (q : BufferQueue) : Option (UInt16 × BufferQueue) :=
  match q.waiting with
  | [] => none
  | id :: waiting => some (id, { q with waiting })

/-- The kernel's write to the start of a buffer; what would pass its end is left out. -/
def fill (id : UInt16) (bytes : Bytes) (q : BufferQueue) : BufferQueue :=
  { q with memory := q.memory.write (q.bufferAddress id) (bytes.take q.entrySize) }

instance : BufferSource BufferQueue where
  group q := q.ledger.group
  entries q := q.ledger.entries
  entrySize q := q.entrySize
  take := take
  data := data
  recycle := recycle
  visible q := q.ledger.kernel
  held q := q.ledger.held

instance : KernelSide BufferQueue where
  select := select
  fill := fill

end BufferQueue

end RingServer
