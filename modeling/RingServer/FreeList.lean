import RingServer.Fault
import RingServer.Supply

/-!
Free list of slot indices: a stack threaded through an array of links, with the owner of every slot
beside it. A slot given back first is reused first, and a slot that is not outstanding cannot be
given back, so no index is on the list twice.
-/
namespace RingServer

inductive SlotOwner
  | free
  | app
  | kernel
  deriving DecidableEq, Repr

structure FreeList where
  /-- For a slot on the list, the slot below it. -/
  next : Array UInt16
  owner : Array SlotOwner
  head : UInt16
  free : Nat
  deriving Repr

namespace FreeList

/-- The link of the lowest slot on the list, and the head of an empty list. -/
def nil : UInt16 := 65535

def maxSlots : Nat := 65535

/-- All slots free, the highest index on top. -/
def new (slots : Nat) : Except Fault FreeList :=
  if slots = 0 ∨ slots > maxSlots then .error (.config (.slotCount slots))
  else .ok
    { next := Array.ofFn fun i : Fin slots => if i.val = 0 then nil else UInt16.ofNat (i.val - 1)
      owner := Array.replicate slots .free
      head := UInt16.ofNat (slots - 1)
      free := slots }

/-- Hands out the slot on top, if there is one. -/
def pop : FreeList → Option UInt16 × FreeList
  | ⟨next, owner, head, free⟩ =>
    if head = nil then (none, ⟨next, owner, head, free⟩)
    else
      let below := next.getD head.toNat nil
      (some head, ⟨next.setIfInBounds head.toNat nil, owner.setIfInBounds head.toNat .app, below,
        free - 1⟩)

instance : Supply FreeList UInt16 where
  next := pop

/-- Passes a slot of the application on to the kernel. -/
def lend (index : UInt16) : FreeList → Except Fault FreeList
  | ⟨next, owner, head, free⟩ =>
    match owner[index.toNat]? with
    | some .app => .ok ⟨next, owner.setIfInBounds index.toNat .kernel, head, free⟩
    | _ => .error (.slotNotOutstanding index)

/-- Takes an outstanding slot back. -/
def push (index : UInt16) : FreeList → Except Fault FreeList
  | ⟨next, owner, head, free⟩ =>
    match owner[index.toNat]? with
    | some .app | some .kernel =>
      .ok ⟨next.setIfInBounds index.toNat head, owner.setIfInBounds index.toNat .free, index,
        free + 1⟩
    | _ => .error (.slotNotOutstanding index)

def owner? (f : FreeList) (index : UInt16) : Option SlotOwner := f.owner[index.toNat]?

def capacity (f : FreeList) : Nat := f.next.size

def available (f : FreeList) : Nat := f.free

def outstanding (f : FreeList) : Nat := f.capacity - f.free

end FreeList

end RingServer
