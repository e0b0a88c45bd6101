import RingServer.Backend
import RingServer.BufferRing
import RingServer.Event
import RingServer.Kernel.Channel
import RingServer.Kernel.CompletionQueue
import RingServer.Kernel.Host
import RingServer.Kernel.SubmissionQueue
import RingServer.Settings

/-!
A queue pair with a kernel behind it. The kernel is small: it knows channels and a listener, and it
completes every operation in the call that submits it, except for those that wait for a client.
Within a call the completions are posted by what they report: `mem_inPostingOrder` says that those
posted are those of the call.
-/
namespace RingServer.Kernel

open Text (Bytes)

/-- The kernel's side of a queue pair. -/
structure Machine where
  host : Host
  sqPoll : Bool
  completions : CompletionQueue
  /-- Channels by their descriptor, which counts from 0. -/
  channels : List Channel
  /-- Descriptors of listening sockets. -/
  listeners : List Descriptor
  hasBuffers : Bool
  groups : List UInt16
  /-- The ring's own descriptor was replaced, so that no call on it works. -/
  broken : Bool

abbrev Uring := SubmissionQueue Machine

/-- When a completion is posted, among those of one call. -/
inductive Posting
  /-- While the submissions are taken. -/
  | direct
  /-- When the call ends, after all direct ones. -/
  | deferred
  /-- By a worker, after the call. -/
  | byWorker
  deriving DecidableEq, Repr

namespace Posting

/-- A write that its channel refuses is reported when the call ends, and a shutdown by the worker
that carries it out. -/
def of (call : SystemCall) (result : Int32) : Posting :=
  match call with
  | .write .. | .writeFixed .. => if result = brokenPipe then .deferred else .direct
  | .shutdown .. => .byWorker
  | _ => .direct

/-- The completions of one call in the order in which they are posted. Those that are posted alike
keep the order of their submissions. -/
def inPostingOrder (done : List (Posting × Completion)) : List Completion :=
  [direct, deferred, byWorker].flatMap fun p => (done.filter (·.1 = p)).map (·.2)

theorem mem_inPostingOrder (c : Completion) (done : List (Posting × Completion)) :
    c ∈ inPostingOrder done ↔ ∃ p, (p, c) ∈ done := by
  constructor
  · simp only [inPostingOrder, List.mem_flatMap, List.mem_map, List.mem_filter]
    rintro ⟨_, _, ⟨p, _⟩, ⟨h, _⟩, rfl⟩
    exact ⟨p, h⟩
  · rintro ⟨p, h⟩
    simp only [inPostingOrder, List.mem_flatMap, List.mem_map, List.mem_filter]
    exact ⟨p, by cases p <;> simp, (p, c), ⟨h, by simp⟩, rfl⟩

end Posting

/-- Error number of a call on a descriptor that does not support it. -/
def notSupported : Int32 := 95

namespace Machine

/-- The channel of a descriptor, unless that is closed or was never open. -/
def channel? (m : Machine) (fd : Descriptor) : Option Channel :=
  if fd < 0 then none
  else (m.channels[fd.toInt.toNat]?).filter fun c => !c.closed

def withChannel (m : Machine) (fd : Descriptor) (f : Channel → Int32 × Channel) :
    Int32 × Machine :=
  match m.channel? fd with
  | none => (badDescriptor, m)
  | some c =>
    let (result, c) := f c
    (result, { m with channels := m.channels.set fd.toInt.toNat c })

/-- Carries a call out; `none` if it completes only when a client does something. Channels have no
positions, and are shut down both ways. -/
def execute (memory : Memory) (call : SystemCall) (m : Machine) : Option Int32 × Machine :=
  let complete := fun (x : Int32 × Machine) => (some x.1, x.2)
  match call with
  | .acceptMany fd =>
    if fd ∈ m.listeners then (none, m) else complete (m.withChannel fd fun c => (c.accept, c))
  | .receiveMany fd group =>
    match m.channel? fd with
    | none => (some badDescriptor, m)
    | some c =>
      if c.kind = .pipe then (some notSocket, m)
      else (if group ∈ m.groups then none else some noBuffers, m)
  | .send fd bytes => complete (m.withChannel fd (Channel.send bytes))
  | .write fd bytes _ => complete (m.withChannel fd (Channel.write bytes))
  | .writeFixed fd loan _ =>
    complete (m.withChannel fd fun c =>
      if m.hasBuffers then c.write (memory.read loan.offset loan.length.toNat)
      else (badAddress, c))
  | .shutdown fd _ => complete (m.withChannel fd Channel.shutdown)
  | .close fd => complete (m.withChannel fd Channel.close)

/-- Carries entries out, one after the other. A completion brings the user data back. -/
def executeAll (memory : Memory) :
    List QueueEntry → Machine → List (Posting × Completion) × Machine
  | [], m => ([], m)
  | e :: rest, m =>
    let (result, m) := m.execute memory e.call
    let (done, m) := executeAll memory rest m
    match result with
    | some r => ((.of e.call r, ⟨⟨e.userData⟩, r, 0⟩) :: done, m)
    | none => (done, m)

/-- Takes all entries over and posts what they complete, then looks at the backlog. Whatever
completes has been posted by then, so there is nothing to wait for. -/
def enter (memory : Memory) (entries : List QueueEntry) (m : Machine) :
    Except Int32 (Intake Machine) :=
  if m.broken then .error notSupported
  else
    let (done, m) := m.executeAll memory entries
    let completions := (m.completions.postAll (Posting.inPostingOrder done)).refill
    .ok ⟨entries.length, entries.length, { m with completions }⟩

/-- The thread of the kernel has taken all that was handed over. -/
def awaitRoom (m : Machine) : Except Int32 (Intake Machine) :=
  if m.broken then .error notSupported else .ok ⟨0, 0, m⟩

instance : Taker Machine where
  polls := sqPoll
  enter memory _ := enter memory
  awaitRoom _ _ := awaitRoom

end Machine

namespace Uring

def maxSqEntries : Nat := 32768

def maxCqEntries : Nat := 65536

def maxRegisteredSlots : Nat := 16384

/-- The smallest power of two that is not below `n`, which is at most 2 ^ 17. -/
def roundUp (n : Nat) : Nat := ((List.range 18).map (1 <<< ·)).find? (n ≤ ·) |>.getD 0

/-- The sizes of both queues, if the kernel accepts what is asked for. -/
def queueSizes? (s : QueueSettings) : Option (Nat × Nat) := do
  let sq := s.sqEntries.toNat
  if sq = 0 ∨ maxSqEntries < sq then none
  let sq := roundUp sq
  match s.cqEntries with
  | none => return (sq, 2 * sq)
  | some cq =>
    let cq := cq.toNat
    if cq = 0 ∨ maxCqEntries < cq then none
    let cq := roundUp cq
    if cq < sq then none
    return (sq, cq)

/-- Whether the thread that polls can run where it is asked to. -/
def pollable (host : Host) (s : QueueSettings) : Bool :=
  !s.sqPoll || s.sqPollCpu.all fun cpu => cpu.toNat < host.processors

/-- Sets the queues up over what is open, and reports that. -/
def new (host : Host) (s : QueueSettings) (channels : List Channel) (listeners : List Descriptor) :
    Except Fault (Uring × Event) :=
  match (if pollable host s then queueSizes? s else none) with
  | none => .error (.queueSetup 22)
  | some (sq, cq) =>
    let machine : Machine :=
      { host, sqPoll := s.sqPoll, completions := .new cq, channels, listeners, hasBuffers := false
        groups := [], broken := false }
    .ok (SubmissionQueue.new sq machine,
      ⟨.debug, "io_uring ready", [("sq_entries", toString sq), ("cq_entries", toString cq),
        ("sqpoll", toString s.sqPoll)]⟩)

def drain (u : Uring) : List Completion × Uring :=
  let (ready, completions) := u.kernel.completions.drain
  (ready, { u with kernel := { u.kernel with completions } })

instance : Backend Uring where
  push := SubmissionQueue.push
  flush := SubmissionQueue.flush
  wait := SubmissionQueue.wait
  drain := drain
  pending := SubmissionQueue.pending

/-- Registers all slots of a pool for fixed writes, once. -/
def registerBuffers (p : SlotPool) (u : Uring) : Except Fault (Uring × Event) :=
  let m := u.kernel
  if m.broken then .error (.registerBuffers notSupported)
  else if m.hasBuffers then .error (.registerBuffers 16)
  else if maxRegisteredSlots < p.capacity then .error (.registerBuffers 22)
  else if m.host.lockedPages < lockedPages p then .error (.registerBuffers 12)
  else
    .ok ({ u with kernel := { m with hasBuffers := true } },
      ⟨.debug, "registered fixed buffers",
        [("slots", toString p.capacity), ("entry_size", toString p.entrySize)]⟩)

/-- Registers a ring under its group, once. -/
def registerRing (r : BufferRing) (u : Uring) : Except Fault (Uring × Event) :=
  let group := r.params.group
  let m := u.kernel
  if m.broken then .error (.registerRing group notSupported)
  else if group ∈ m.groups then .error (.registerRing group 17)
  else
    .ok ({ u with kernel := { m with groups := group :: m.groups } },
      ⟨.debug, "registered buffer ring",
        [("bgid", toString group), ("entries", toString r.params.entries)]⟩)

/-- Replaces the descriptor of the ring by one that supports no call. -/
def breakRing (u : Uring) : Uring := { u with kernel := { u.kernel with broken := true } }

/-- Changes the peer's end of a channel. -/
def modifyChannel (i : Nat) (f : Channel → Channel) (u : Uring) : Uring :=
  { u with kernel := { u.kernel with channels := u.kernel.channels.modify i f } }

end Uring

end RingServer.Kernel
