import RingServer.Kernel.Uring

/-!
A program on a queue pair: its pool and rings, and the channels that it has asked to be closed. From
that request on it names such a channel by a descriptor that is never open.
-/
namespace RingServer.Kernel

open Text (Bytes)

structure Session where
  uring : Uring
  pool : SlotPool
  rings : List BufferRing
  closing : List Nat

/-- What a program asks to be done on a descriptor. -/
inductive Request
  | accept
  | receive (group : UInt16)
  | send (bytes : Bytes)
  | write (bytes : Bytes)
  /-- Copies the bytes into a pool slot and sends them from there. -/
  | writeFixed (bytes : Bytes)
  | shutdown
  | close
  deriving DecidableEq, Repr

/-- How a request was queued. -/
inductive Queued
  | plain
  | slot (index : UInt16)
  /-- No slot was free, so that nothing was queued. -/
  | noSlot
  deriving DecidableEq, Repr

namespace Session

def noDescriptor : Descriptor := -1

/-- The descriptor that the program uses for a channel. -/
def descriptor (s : Session) : Option Nat → Descriptor
  | some channel => if channel ∈ s.closing then noDescriptor else Int32.ofNat channel
  | none => noDescriptor

def submit (tag : Tag) (operation : Operation) (queued : Queued) (s : Session) :
    Except Fault Queued × Session :=
  let (outcome, uring) := s.uring.push s.pool.memory ⟨tag, operation⟩
  (outcome.map fun _ => queued, { s with uring })

def submitFixed (tag : Tag) (fd : Descriptor) (bytes : Bytes) (s : Session) :
    Except Fault Queued × Session :=
  match s.pool.acquire with
  | (none, _) => (.ok .noSlot, s)
  | (some slot, pool) =>
    let pool := pool.write slot 0 bytes
    match pool.lend slot bytes.length with
    | .error fault => (.error fault, { s with pool })
    | .ok (loan, pool) => { s with pool }.submit tag (.writeFixed fd loan) (.slot loan.index)

/-- Queues a request on a channel, or on no open descriptor at all. -/
def request (tag : Tag) (channel : Option Nat) (r : Request) (s : Session) :
    Except Fault Queued × Session :=
  let fd := s.descriptor channel
  match r with
  | .accept => s.submit tag (.accept fd) .plain
  | .receive group => s.submit tag (.receive fd group) .plain
  | .send bytes => s.submit tag (.send fd bytes) .plain
  | .write bytes => s.submit tag (.write fd bytes) .plain
  | .writeFixed bytes => s.submitFixed tag fd bytes
  | .shutdown => s.submit tag (.shutdown fd) .plain
  | .close => { s with closing := channel.toList ++ s.closing }.submit tag (.close fd) .plain

def release (index : UInt16) (s : Session) : Except Fault Unit × Session :=
  match s.pool.release index with
  | .ok pool => (.ok (), { s with pool })
  | .error fault => (.error fault, s)

def flush (s : Session) : Except Fault Nat × Session :=
  let (outcome, uring) := s.uring.flush s.pool.memory
  (outcome, { s with uring })

/-- Waits for all that was queued. -/
def wait (s : Session) : Except Fault Nat × Session :=
  let (outcome, uring) := s.uring.wait s.pool.memory s.uring.pending
  (outcome, { s with uring })

def drain (s : Session) : List Completion × Session :=
  let (ready, uring) := s.uring.drain
  (ready, { s with uring })

/-- The peer reads from its end of a channel; `none` if there is no such channel. -/
def peerRead? (channel : Nat) (s : Session) : Option (PeerRead × Session) :=
  s.uring.kernel.channels[channel]?.map fun c =>
    let (found, c) := c.peerRead
    (found, { s with uring := Uring.modifyChannel channel (fun _ => c) s.uring })

end Session

end RingServer.Kernel
