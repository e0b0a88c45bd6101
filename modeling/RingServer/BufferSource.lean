import RingServer.Completion
import RingServer.Fault
import RingServer.Memory

/-!
What the server asks of a group of receive buffers, and what the kernel does with one. Two kinds
of group satisfy both: rings in shared memory and plain queues.
-/
namespace RingServer

open Text (Bytes)

/-- A buffer in the hands of the application, with the length of what was received into it. -/
structure ReceivedBuffer where
  group : UInt16
  id : UInt16
  length : Nat
  deriving DecidableEq, Repr

/-- The application's side of a buffer group. -/
class BufferSource (ρ : Type) where
  group : ρ → UInt16
  entries : ρ → Nat
  entrySize : ρ → Nat
  /-- Takes over a buffer that a completion names. -/
  take : UInt16 → Nat → ρ → Except Fault ReceivedBuffer × ρ
  data : ρ → ReceivedBuffer → Bytes
  /-- Gives a buffer back to the kernel. -/
  recycle : ReceivedBuffer → ρ → ρ
  /-- Number of buffers with the kernel. -/
  visible : ρ → Nat
  /-- Number of buffers with the application. -/
  held : ρ → Nat

/-- The kernel's side of a buffer group. -/
class KernelSide (ρ : Type) where
  /-- Picks the buffer that has waited longest, if one waits. -/
  select : ρ → Option (UInt16 × ρ)
  /-- Stores bytes at the start of a buffer. -/
  fill : UInt16 → Bytes → ρ → ρ

end RingServer
