import RingServer.Fault

/-!
Ledger of a buffer group: which buffers the application holds. Every other buffer is the kernel's,
in the ring or picked for a completion still to come.
-/
namespace RingServer

inductive Holder
  | kernel
  | app
  deriving DecidableEq, Repr

structure Ledger where
  group : UInt16
  holder : Array Holder
  held : Nat
  deriving DecidableEq, Repr

namespace Ledger

/-- All buffers with the kernel. -/
def new (group : UInt16) (entries : Nat) : Ledger :=
  ⟨group, Array.replicate entries .kernel, 0⟩

/-- The kernel hands a buffer to the application. One that it does not hold is refused, and the
ledger stays as it is. -/
def take (id : UInt16) : Ledger → Except Fault Unit × Ledger
  | ⟨group, holder, held⟩ =>
    match holder[id.toNat]? with
    | some .kernel => (.ok (), ⟨group, holder.setIfInBounds id.toNat .app, held + 1⟩)
    | _ => (.error (.bufferNotInKernel group id), ⟨group, holder, held⟩)

/-- The application gives a buffer back; `false` if it does not hold it. -/
def giveBack (id : UInt16) : Ledger → Bool × Ledger
  | ⟨group, holder, held⟩ =>
    match holder[id.toNat]? with
    | some .app => (true, ⟨group, holder.setIfInBounds id.toNat .kernel, held - 1⟩)
    | _ => (false, ⟨group, holder, held⟩)

def holder? (l : Ledger) (id : UInt16) : Option Holder := l.holder[id.toNat]?

def entries (l : Ledger) : Nat := l.holder.size

/-- Number of buffers with the kernel. -/
def kernel (l : Ledger) : Nat := l.entries - l.held

end Ledger

end RingServer
