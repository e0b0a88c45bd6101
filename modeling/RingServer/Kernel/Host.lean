import RingServer.SlotPool

/-!
What a host grants: memory, locked memory, processors, networking.
-/
namespace RingServer.Kernel

structure Host where
  /-- Largest region that an allocation may have, in bytes. -/
  addressSpace : Nat
  /-- Pages of memory that a process may lock. -/
  lockedPages : Nat
  processors : Nat
  /-- Whether the loopback interface is up, so that a client on the host reaches the server. -/
  loopback : Bool
  deriving DecidableEq, Repr

namespace Host

/-- An unprivileged process on a 64-bit host that is cut off from every network: 47 bits of
addresses, 8 MiB of locked memory, no loopback. -/
def isolated : Host := ⟨0x800000000000, 2048, 4, false⟩

end Host

def pageSize : Nat := 4096

/-- Pages that one slot of a pool touches. Each slot is locked by itself, so a page that several
slots share counts for each of them. -/
def slotPages (p : SlotPool) (index : Nat) : Nat :=
  let start := index * p.entrySize
  (start + p.entrySize - 1) / pageSize - start / pageSize + 1

def lockedPages (p : SlotPool) : Nat :=
  (List.range p.capacity).foldl (fun pages index => pages + slotPages p index) 0

end RingServer.Kernel
