import RingServer.BufferSource
import RingServer.Ledger
import RingServer.RingParams
import RingServer.SlotPool

/-!
Buffer ring in shared memory. One region holds the entries of the ring, 16 bytes each, and behind
them the buffers. An entry is the address of a buffer (8 bytes), its size (4) and its number (2);
the last two bytes of entry 0 are the published tail. The application appends at the tail, the
kernel consumes at a head of its own; both count modulo 2 ^ 16 and are masked to find an entry.
Addresses are relative to the start of the region.
-/
namespace RingServer

open Text (Bytes)

structure RingEntry where
  address : Nat
  size : Nat
  id : UInt16
  deriving DecidableEq, Repr

structure BufferRing where
  params : RingParams
  memory : Memory
  /-- Tail up to which entries are written, not all of them published. -/
  tail : UInt16
  ledger : Ledger

namespace BufferRing

def entryBytes : Nat := 16

def tailAddress : Nat := 14

/-- Where buffer `id` begins. -/
def bufferAddress (p : RingParams) (id : UInt16) : Nat :=
  p.entries.toNat * entryBytes + id.toNat * p.entrySize.toNat

/-- Where the entry for position `index` begins. -/
def entryAddress (p : RingParams) (index : UInt16) : Nat :=
  (index &&& (p.entries - 1)).toNat * entryBytes

/-- Writes a buffer into the entry at the tail without publishing it. -/
def append (id : UInt16) : BufferRing → BufferRing
  | ⟨p, memory, tail, ledger⟩ =>
    ⟨p, memory.write (entryAddress p tail)
      (littleEndian 8 (bufferAddress p id) ++ littleEndian 4 p.entrySize.toNat ++
        littleEndian 2 id.toNat), tail + 1, ledger⟩

/-- Shows the kernel all entries up to the tail. -/
def publish : BufferRing → BufferRing
  | ⟨p, memory, tail, ledger⟩ =>
    ⟨p, memory.write tailAddress (littleEndian 2 tail.toNat), tail, ledger⟩

/-- A ring with all its buffers published in order. The system grants regions of up to `granted`
bytes. -/
def new (granted : Nat) (p : RingParams) : Except Fault BufferRing := do
  p.validate
  let entries := p.entries.toNat
  let total := entries * p.entrySize.toNat + entries * entryBytes
  if UInt64.size ≤ total then throw (.allocation .ringOverflow)
  if maxRegion < total then throw (.allocation .ringLayout)
  if granted < total then throw (.allocation .ring)
  let empty : BufferRing := ⟨p, .blank, 0, Ledger.new p.group entries⟩
  return ((List.range entries).foldl (fun r i => r.append (UInt16.ofNat i)) empty).publish

/-- The tail as the kernel sees it. -/
def publishedTail (r : BufferRing) : UInt16 :=
  UInt16.ofNat (ofLittleEndian (r.memory.read tailAddress 2))

/-- The entry for a position of the ring. -/
def entry (r : BufferRing) (index : UInt16) : RingEntry :=
  let a := entryAddress r.params index
  { address := ofLittleEndian (r.memory.read a 8)
    size := ofLittleEndian (r.memory.read (a + 8) 4)
    id := UInt16.ofNat (ofLittleEndian (r.memory.read (a + 12) 2)) }

def take (id : UInt16) (length : Nat) : BufferRing → Except Fault ReceivedBuffer × BufferRing
  | ⟨p, memory, tail, ledger⟩ =>
    match ledger.take id with
    | (outcome, ledger) =>
      (outcome.map fun _ => ⟨p.group, id, min length p.entrySize.toNat⟩, ⟨p, memory, tail, ledger⟩)

def data (r : BufferRing) (b : ReceivedBuffer) : Bytes :=
  r.memory.read (bufferAddress r.params b.id) b.length

/-- Gives a buffer back at the tail. One that the application does not hold changes nothing. -/
def recycle (b : ReceivedBuffer) : BufferRing → BufferRing
  | ⟨p, memory, tail, ledger⟩ =>
    match ledger.giveBack b.id with
    | (true, ledger) => ((⟨p, memory, tail, ledger⟩ : BufferRing).append b.id).publish
    | (false, ledger) => ⟨p, memory, tail, ledger⟩

/-- The kernel's write to the start of a buffer; what would pass its end is left out. -/
def fill (id : UInt16) (bytes : Bytes) : BufferRing → BufferRing
  | ⟨p, memory, tail, ledger⟩ =>
    ⟨p, memory.write (bufferAddress p id) (bytes.take p.entrySize.toNat), tail, ledger⟩

end BufferRing

/-- A buffer ring together with the kernel's position in it. -/
structure SharedRing where
  ring : BufferRing
  head : UInt16

namespace SharedRing

def new (granted : Nat) (p : RingParams) : Except Fault SharedRing :=
  (BufferRing.new granted p).map fun ring => ⟨ring, 0⟩

/-- The kernel picks the buffer at its head, unless it has caught up with the tail. -/
def select : SharedRing → Option (UInt16 × SharedRing)
  | ⟨ring, head⟩ =>
    if head = ring.publishedTail then none else some ((ring.entry head).id, ⟨ring, head + 1⟩)

instance : BufferSource SharedRing where
  group s := s.ring.params.group
  entries s := s.ring.params.entries.toNat
  entrySize s := s.ring.params.entrySize.toNat
  take id length
    | ⟨ring, head⟩ =>
      match ring.take id length with
      | (outcome, ring) => (outcome, ⟨ring, head⟩)
  data s := s.ring.data
  recycle b
    | ⟨ring, head⟩ => ⟨ring.recycle b, head⟩
  visible s := s.ring.ledger.kernel
  held s := s.ring.ledger.held

instance : KernelSide SharedRing where
  select := select
  fill id bytes
    | ⟨ring, head⟩ => ⟨ring.fill id bytes, head⟩

end SharedRing

end RingServer
