import RingServer.BufferSource
import RingServer.Supply

/-!
A user of a buffer group: the group together with the buffers that it has taken and not yet given
back, the latest first.
-/
namespace RingServer

open Text (Bytes)

structure BufferUser (ρ : Type) where
  source : ρ
  buffers : List ReceivedBuffer

namespace BufferUser

variable {ρ : Type} [BufferSource ρ]

def new (source : ρ) : BufferUser ρ := ⟨source, []⟩

/-- The buffer in hand that has a number. -/
def buffer? (id : UInt16) (u : BufferUser ρ) : Option ReceivedBuffer :=
  u.buffers.find? fun b => b.id = id

def take (id : UInt16) (length : Nat) : BufferUser ρ → Except Fault ReceivedBuffer × BufferUser ρ
  | ⟨source, buffers⟩ =>
    match BufferSource.take id length source with
    | (.ok b, source) => (.ok b, ⟨source, b :: buffers⟩)
    | (.error fault, source) => (.error fault, ⟨source, buffers⟩)

/-- The contents of a buffer in hand. -/
def data? (id : UInt16) (u : BufferUser ρ) : Option Bytes :=
  (u.buffer? id).map (BufferSource.data u.source)

/-- Gives a buffer back. One that is not in hand is named all the same, and the group decides. -/
def recycle (id : UInt16) (u : BufferUser ρ) : BufferUser ρ :=
  let b := (u.buffer? id).getD ⟨BufferSource.group u.source, id, 0⟩
  ⟨BufferSource.recycle b u.source, u.buffers.filter fun b => b.id ≠ id⟩

/-- The kernel picks a buffer. -/
def select [KernelSide ρ] : BufferUser ρ → Option UInt16 × BufferUser ρ
  | ⟨source, buffers⟩ =>
    match KernelSide.select source with
    | some (id, source) => (some id, ⟨source, buffers⟩)
    | none => (none, ⟨source, buffers⟩)

instance [KernelSide ρ] : Supply (BufferUser ρ) UInt16 where
  next := select

/-- Lets buffers go round: up to `n` times the kernel picks one, and it is taken with one byte in it
and given back. The answer is how many went round, and the fault that ended it if one did. -/
def circulate [KernelSide ρ] : Nat → BufferUser ρ → Nat × Option Fault × BufferUser ρ :=
  go 0
where
  go (done : Nat) : Nat → BufferUser ρ → Nat × Option Fault × BufferUser ρ
    | 0, u => (done, none, u)
    | n + 1, u =>
      match u.select with
      | (none, u) => (done, none, u)
      | (some id, u) =>
        match u.take id 1 with
        | (.ok _, u) => go (done + 1) n (u.recycle id)
        | (.error fault, u) => (done, some fault, u)

end BufferUser

end RingServer
