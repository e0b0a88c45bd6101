import RingServer.FreeList
import RingServer.Memory

/-!
Pool of equal memory slots that lie back to back in one region. The index of a slot is also the
number under which the kernel knows its memory, so a fixed write names the slot that it sends from.
A slot goes from the free list to the application, from there to the kernel or straight back, and
from the kernel back to the free list when the write has completed.
-/
namespace RingServer

open Text (Bytes)

/-- A slot in the hands of the application. -/
structure Slot where
  index : UInt16
  deriving DecidableEq, Repr

/-- What the kernel gets of a slot: its first `length` bytes, which begin at `offset`. -/
structure Loan where
  index : UInt16
  offset : Nat
  length : UInt32
  deriving DecidableEq, Repr

structure SlotPool where
  entrySize : Nat
  memory : Memory
  free : FreeList

/-- A region may not pass this size, which keeps it a page away from the largest signed word. -/
def maxRegion : Nat := 0x7ffffffffffff000

namespace SlotPool

/-- A pool of zeroed slots. The system grants regions of up to `granted` bytes. -/
def new (granted entrySize entries : Nat) : Except Fault SlotPool := do
  if entrySize = 0 then throw (.config .slotSize)
  let free ← FreeList.new entries
  let total := entrySize * entries
  if UInt64.size ≤ total then throw (.allocation .poolOverflow)
  if maxRegion < total then throw (.allocation .poolLayout)
  if granted < total then throw (.allocation .pool)
  return ⟨entrySize, .blank, free⟩

def capacity (p : SlotPool) : Nat := p.free.capacity

def available (p : SlotPool) : Nat := p.free.available

def owner? (p : SlotPool) (index : UInt16) : Option SlotOwner := p.free.owner? index

/-- Where the slot begins in the region. -/
def offset (p : SlotPool) (index : UInt16) : Nat := index.toNat * p.entrySize

/-- First byte and size of a slot, as they are registered with the kernel. -/
def extent? (p : SlotPool) (index : UInt16) : Option (Nat × Nat) :=
  if index.toNat < p.capacity then some (p.offset index, p.entrySize) else none

def acquire : SlotPool → Option Slot × SlotPool
  | ⟨entrySize, memory, free⟩ =>
    match free.pop with
    | (index, free) => (index.map Slot.mk, ⟨entrySize, memory, free⟩)

/-- The contents of a slot. -/
def read (p : SlotPool) (s : Slot) : Bytes := p.memory.read (p.offset s.index) p.entrySize

/-- Stores bytes at a place in a slot; what would pass its end is left out. -/
def write (p : SlotPool) (s : Slot) (place : Nat) (bytes : Bytes) : SlotPool :=
  { p with memory := p.memory.write (p.offset s.index + place) (bytes.take (p.entrySize - place)) }

/-- Hands the first `length` bytes of a slot, at most all of it, to the kernel. -/
def lend (p : SlotPool) (s : Slot) (length : Nat) : Except Fault (Loan × SlotPool) := do
  let free ← p.free.lend s.index
  return (⟨s.index, p.offset s.index, UInt32.ofNat (min length p.entrySize)⟩, { p with free })

/-- The bytes that a loan covers. -/
def lent (p : SlotPool) (loan : Loan) : Bytes := p.memory.read loan.offset loan.length.toNat

/-- Takes a slot back that was never lent. -/
def reclaim (p : SlotPool) (s : Slot) : SlotPool :=
  match p.free.push s.index with
  | .ok free => { p with free }
  | .error _ => p

/-- Takes a slot back from the kernel, and from nobody else. -/
def release (p : SlotPool) (index : UInt16) : Except Fault SlotPool :=
  match p.owner? index with
  | some .kernel => (p.free.push index).map fun free => { p with free }
  | _ => .error (.slotNotOutstanding index)

end SlotPool

end RingServer
