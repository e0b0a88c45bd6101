import RingServer.SlotPool

/-!
A user of a slot pool: the pool together with the slots that it has acquired and not yet passed on.
Handles are plain values, so it is the user that spends each of them once: lending or reclaiming a
slot takes it out of the user's hands, whatever the pool says.
-/
namespace RingServer

open Text (Bytes)

structure PoolUser where
  pool : SlotPool
  slots : List Slot

namespace PoolUser

def new (pool : SlotPool) : PoolUser := ⟨pool, []⟩

def holds (u : PoolUser) (index : UInt16) : Bool := ⟨index⟩ ∈ u.slots

def acquire : PoolUser → Option Slot × PoolUser
  | ⟨pool, slots⟩ =>
    match pool.acquire with
    | (some slot, pool) => (some slot, ⟨pool, slot :: slots⟩)
    | (none, pool) => (none, ⟨pool, slots⟩)

instance : Supply PoolUser Slot where
  next := acquire

/-- Writes to a slot in hand. -/
def write? (index : UInt16) (place : Nat) (bytes : Bytes) (u : PoolUser) : Option PoolUser :=
  if u.holds index then some { u with pool := u.pool.write ⟨index⟩ place bytes } else none

/-- Reads a slot in hand. -/
def read? (index : UInt16) (u : PoolUser) : Option Bytes :=
  if u.holds index then some (u.pool.read ⟨index⟩) else none

/-- Lends a slot to the kernel. A slot that is not in hand is named all the same, and the pool
decides. -/
def lend (index : UInt16) (length : Nat) (u : PoolUser) : Except Fault Loan × PoolUser :=
  let slots := u.slots.erase ⟨index⟩
  match u.pool.lend ⟨index⟩ length with
  | .ok (loan, pool) => (.ok loan, ⟨pool, slots⟩)
  | .error fault => (.error fault, { u with slots })

/-- Gives a slot in hand back without lending it. -/
def reclaim? (index : UInt16) (u : PoolUser) : Option PoolUser :=
  if u.holds index then some ⟨u.pool.reclaim ⟨index⟩, u.slots.erase ⟨index⟩⟩ else none

/-- The kernel gives a slot back. -/
def release (index : UInt16) (u : PoolUser) : Except Fault Unit × PoolUser :=
  match u.pool.release index with
  | .ok pool => (.ok (), { u with pool })
  | .error fault => (.error fault, u)

end PoolUser

end RingServer
