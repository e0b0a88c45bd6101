import RingServer.Backend
import RingServer.Connection
import RingServer.Counters
import RingServer.Envelope
import RingServer.LogLine
import RingServer.Reply
import RingServer.Settings

/-!
The event loop. A turn waits for completions, dispatches each of them in order, and submits what
the dispatch queued as one batch. It works on any queue pair, buffer group and handler.

Faults split two ways. A broken ownership rule or a refused submission ends the turn and leaves the
state as it is at that point; a bad completion on one connection shuts that connection down and
touches nothing else.
-/
namespace RingServer

open Text (Bytes)

/-- What the loop works on. -/
structure EventLoop (β ρ σ : Type) where
  backend : β
  pool : SlotPool
  /-- The group whose buffers receive on connections. -/
  ring : ρ
  /-- The other groups, in order. -/
  spareRings : List ρ
  handler : Handler σ
  handlerState : σ
  connections : ConnectionTable
  listener : Option Descriptor
  accessLog : Bool
  counters : Counters
  events : Array Event
  /-- The readings that the wall clock will give, by their number. -/
  clock : Nat → Instant
  readings : Nat
  /-- The remote address of a descriptor, as the network reports it. -/
  peerOf : Descriptor → Option SocketAddress

/-- A step of the loop. What it did before a fault stays done. -/
abbrev LoopM (β ρ σ : Type) := ExceptT Fault (StateM (EventLoop β ρ σ))

/-- Why a receive completion is malformed. -/
inductive Malformed
  | longerThanBuffer
  | noBuffer
  | badEnvelope
  | truncated
  deriving DecidableEq, Repr

def Malformed.reason : Malformed → String
  | longerThanBuffer => "length exceeds buffer size"
  | noBuffer => "no buffer id"
  | badEnvelope => "bad recvmsg envelope"
  | truncated => "payload truncated"

/-- How a receive completion ended. -/
inductive Received
  | delivered
  | noBuffers
  | ended
  | failed (errno : Int32)
  | malformed (cause : Malformed)
  deriving DecidableEq, Repr

/-- Error number of a receive that found no buffer. -/
def noBufferSpace : Int32 := 105

/-- The descriptor that log lines go to. -/
def standardError : Descriptor := 2

namespace EventLoop

variable {β ρ σ : Type} [Backend β] [BufferSource ρ]

/-- A loop over its parts. The group for connections has to be among the rings, and its buffers
have to hold more than the header of an envelope. -/
def new (backend : β) (pool : SlotPool) (rings : List ρ) (handler : Handler σ) (state : σ)
    (settings : Settings) : Except Fault (EventLoop β ρ σ) := do
  let isReceive := fun r => BufferSource.group (ρ := ρ) r == settings.receiveGroup
  let some ring := rings.find? isReceive | throw (.unknownGroup settings.receiveGroup)
  if BufferSource.entrySize ring ≤ Envelope.headerSize then throw (.config .receiveEntrySize)
  return {
    backend, pool, ring, handler
    spareRings := rings.eraseP isReceive
    handlerState := state
    connections := .empty
    listener := none
    accessLog := settings.accessLog
    counters := .zero
    events := #[]
    clock := fun _ => ⟨0⟩
    readings := 0
    peerOf := fun _ => none }

/-- All buffer groups, the one for connections first. -/
def rings (l : EventLoop β ρ σ) : List ρ := l.ring :: l.spareRings

/-- The first ring of a group. -/
def ring? (l : EventLoop β ρ σ) (group : UInt16) : Option ρ :=
  l.rings.find? fun r => BufferSource.group r == group

/-- Lets the kernel work on the first ring of a group. -/
def withRing {α : Type} (group : UInt16) (f : ρ → Option (α × ρ)) (l : EventLoop β ρ σ) :
    Option (α × EventLoop β ρ σ) :=
  if BufferSource.group l.ring == group then
    (f l.ring).map fun (a, ring) => (a, { l with ring })
  else do
    let i ← l.spareRings.findIdx? fun r => BufferSource.group r == group
    let r ← l.spareRings[i]?
    let (a, r) ← f r
    return (a, { l with spareRings := l.spareRings.set i r })

/-! Small steps. -/

def emit (level : Level) (message : String) (fields : List (String × String)) : LoopM β ρ σ Unit :=
  modify fun l => { l with events := l.events.push ⟨level, message, fields⟩ }

def count (f : Counters → Counters) : LoopM β ρ σ Unit :=
  modify fun l => { l with counters := f l.counters }

def readClock : LoopM β ρ σ Instant :=
  modifyGet fun l => (l.clock l.readings, { l with readings := l.readings + 1 })

def submit (tag : Tag) (operation : Operation) : LoopM β ρ σ Unit := do
  let outcome ← modifyGet fun l =>
    let (outcome, backend) := Backend.push l.pool.memory ⟨tag, operation⟩ l.backend
    (outcome, { l with backend })
  liftExcept outcome

def flush : LoopM β ρ σ Unit := do
  let outcome ← modifyGet fun l =>
    let (outcome, backend) := Backend.flush l.pool.memory l.backend
    (outcome, { l with backend })
  let _ ← liftExcept outcome

def acquireSlot : LoopM β ρ σ (Option Slot) :=
  modifyGet fun l =>
    let (slot, pool) := l.pool.acquire
    (slot, { l with pool })

def lendSlot (slot : Slot) (length : Nat) : LoopM β ρ σ Loan := do
  let (loan, pool) ← liftExcept ((← get).pool.lend slot length)
  modify fun l => { l with pool }
  return loan

/-- Changes the table of connections and reports whether that succeeded. -/
def updateTable (f : ConnectionTable → Bool × ConnectionTable) : LoopM β ρ σ Bool :=
  modifyGet fun l =>
    let (done, connections) := f l.connections
    (done, { l with connections })

/-! Submissions. -/

def armAccept (fd : Descriptor) : LoopM β ρ σ Unit :=
  submit (.onDescriptor fd .accept) (.accept fd)

def armReceive (fd : Descriptor) : LoopM β ρ σ Unit := do
  submit (.onDescriptor fd .receive) (.receive fd (BufferSource.group (← get).ring))

/-- Submits the first `length` bytes of a slot as a fixed write to `fd`, tagged with the slot so
that its completion can release it. -/
def sendSlot (fd : Descriptor) (slot : Slot) (length : Nat) : LoopM β ρ σ Unit := do
  let loan ← lendSlot slot length
  submit (.onSlot loan.index) (.writeFixed fd loan)

/-- Writes a log line through a pool slot. Without a free slot the line is dropped and counted. -/
def writeLog (level : Level) (message : String) : LoopM β ρ σ Unit := do
  match ← acquireSlot with
  | none =>
    count fun c => { c with logDropped := c.logDropped + 1 }
    emit .warn "registered pool exhausted, log line dropped" []
  | some slot =>
    let now ← readClock
    let length ← modifyGet fun l =>
      let (length, memory) := LogLine.format l.pool.memory (l.pool.offset slot.index)
        l.pool.entrySize slot.index level now message
      (length, { l with pool := { l.pool with memory } })
    sendSlot standardError slot length
    count fun c => { c with logLines := c.logLines + 1 }

/-- The line of the access log for something that happened, if that log is kept. -/
def writeAccess (message : String) : LoopM β ρ σ Unit := do
  if (← get).accessLog then writeLog .info message

def countReply : LoopM β ρ σ Unit := count fun c => { c with replies := c.replies + 1 }

/-- Queues what a handler answered. A copied reply is cut to the size of a slot, and dropped and
counted when no slot is free. A fixed one is sent from where it is (`Operation.sending`). -/
def queueReply (fd : Descriptor) : Reply → LoopM β ρ σ Unit
  | .nothing => return
  | .fixed bytes => do
    submit (.onDescriptor fd .send) (.sending fd bytes)
    countReply
  | .copied bytes => do
    match ← acquireSlot with
    | none =>
      count fun c => { c with repliesDropped := c.repliesDropped + 1 }
      emit .warn "registered pool exhausted, reply dropped"
        [("fd", toString fd), ("len", toString bytes.length)]
    | some slot =>
      let sent := min bytes.length (← get).pool.entrySize
      modify fun l => { l with pool := l.pool.write slot 0 bytes }
      if sent < bytes.length then
        count fun c => { c with repliesTruncated := c.repliesTruncated + 1 }
        emit .debug "reply truncated to pool entry size"
          [("fd", toString fd), ("len", toString bytes.length), ("sent", toString sent)]
      sendSlot fd slot sent
      countReply

/-- Closes a connection unless that is under way already. -/
def closeConnection (fd : Descriptor) : LoopM β ρ σ Unit := do
  if ← updateTable (·.advance fd .closing) then
    submit (.onDescriptor fd .close) (.close fd)

/-- Ends the receive stream first when it is still armed; its last completion then closes the
descriptor. -/
def shutdownConnection (fd : Descriptor) (armed : Bool) : LoopM β ρ σ Unit := do
  if !armed then closeConnection fd
  else if ← updateTable (·.advance fd .shuttingDown) then
    submit (.onDescriptor fd .shutdown) (.shutdown fd)

/-- The receive stream has ended: arms it again if the connection is healthy. -/
def rearmOrClose (fd : Descriptor) : LoopM β ρ σ Unit := do
  if (← get).connections.isOpen fd then
    count fun c => { c with receiveRearms := c.receiveRearms + 1 }
    emit .debug "re-arming multishot recvmsg" [("fd", toString fd)]
    armReceive fd
  else closeConnection fd

/-! Dispatch. -/

/-- Tracks an accepted descriptor. One that is still tracked is tracked afresh. -/
def track (fd : Descriptor) (peer : Option SocketAddress) : LoopM β ρ σ Unit := do
  unless ← updateTable (·.insert fd peer) do
    emit .warn "descriptor reused while still tracked" [("fd", toString fd)]
    let _ ← updateTable fun t => (t.erase fd).insert fd peer

def onAccept (listener : Descriptor) (c : Completion) : LoopM β ρ σ Unit := do
  if c.result < 0 then
    count fun n => { n with acceptErrors := n.acceptErrors + 1 }
    emit .warn "accept failed" [("fd", toString listener), ("errno", toString (-c.result))]
  else
    let fd := c.result
    let peer := (← get).peerOf fd
    track fd peer
    count fun n => { n with accepts := n.accepts + 1 }
    emit .info "accepted" [("fd", toString fd), ("peer", peerText peer)]
    armReceive fd
    writeAccess s!"accepted fd {fd} from {peerText peer}"
  if !c.hasMore then
    count fun n => { n with acceptRearms := n.acceptRearms + 1 }
    emit .debug "re-arming multishot accept" [("fd", toString listener)]
    armAccept listener

/-- Hands a message to the handler and queues the reply. -/
def handle (fd : Descriptor) (peer : Option SocketAddress) (id : UInt16) (payload : Bytes) :
    LoopM β ρ σ Unit := do
  let length := payload.length
  modify fun l => { l with connections := l.connections.modify fd (.count (.ofNat length)) }
  count fun n => { n with messages := n.messages + 1, bytesIn := n.bytesIn + .ofNat length }
  emit .debug "message" [("fd", toString fd), ("bid", toString id), ("len", toString length)]
  writeAccess s!"fd {fd} peer {peerText peer} bid {id} len {length}: {Text.escaped payload}"
  let reply ← modifyGet fun l =>
    let (reply, handlerState) := l.handler.respond l.handlerState fd payload
    (reply, { l with handlerState })
  queueReply fd reply

/-- Checks the envelope in a buffer and delivers the payload to an open connection. An empty
payload is the end of what the peer sends. -/
def deliver (fd : Descriptor) (buffer : ReceivedBuffer) : LoopM β ρ σ Received := do
  let l ← get
  match Envelope.parse? (BufferSource.data l.ring buffer) with
  | none => return .malformed .badEnvelope
  | some envelope =>
    if envelope.truncated then return .malformed .truncated
    if envelope.payload.isEmpty then return .ended
    match (l.connections.get? fd).filter Connection.isOpen with
    | none =>
      emit .debug "dropping data for closing connection"
        [("fd", toString fd), ("len", toString envelope.payload.length)]
    | some connection => handle fd connection.peer buffer.id envelope.payload
    return .delivered

/-- Takes over the buffer that a completion names, if it names one. -/
def takeBuffer (c : Completion) : LoopM β ρ σ (Option ReceivedBuffer) := do
  match c.bufferId? with
  | none => return none
  | some id =>
    let outcome ← modifyGet fun l =>
      let (outcome, ring) := BufferSource.take id c.result.toInt.toNat l.ring
      (outcome, { l with ring })
    return some (← liftExcept outcome)

def recycle (buffer : ReceivedBuffer) : LoopM β ρ σ Unit :=
  modify fun l => { l with ring := BufferSource.recycle buffer l.ring }

/-- What a receive completion with this result and buffer means. -/
def receiveOutcome (fd : Descriptor) (result : Int32) (buffer : Option ReceivedBuffer) :
    LoopM β ρ σ Received := do
  if result = -noBufferSpace then return .noBuffers
  else if result = 0 then return .ended
  else if result < 0 then return .failed (-result)
  else if result.toInt.toNat > BufferSource.entrySize (← get).ring then
    return .malformed .longerThanBuffer
  else match buffer with
    | none => return .malformed .noBuffer
    | some buffer => deliver fd buffer

/-- What follows from a receive, with the stream still armed or not. -/
def concludeReceive (fd : Descriptor) (armed : Bool) : Received → LoopM β ρ σ Unit
  | .delivered => unless armed do rearmOrClose fd
  | .noBuffers => do
    count fun n => { n with receiveStops := n.receiveStops + 1 }
    emit .debug "buffer ring empty, receive stopped" [("fd", toString fd)]
    unless armed do rearmOrClose fd
  | .ended => do
    emit .debug "peer closed" [("fd", toString fd)]
    closeConnection fd
  | .failed errno => do
    emit .debug "receive failed" [("fd", toString fd), ("errno", toString errno)]
    unless armed do closeConnection fd
  | .malformed cause => do
    count fun n => { n with faults := n.faults + 1 }
    emit .warn "malformed receive, shutting connection down"
      [("fd", toString fd), ("reason", cause.reason)]
    shutdownConnection fd armed

/-- The buffer goes back to the kernel before the outcome is acted on, whatever that is. -/
def onReceive (fd : Descriptor) (c : Completion) : LoopM β ρ σ Unit := do
  let buffer ← takeBuffer c
  let outcome ← ExceptT.lift (receiveOutcome fd c.result buffer).run
  if let some buffer := buffer then recycle buffer
  concludeReceive fd c.hasMore (← liftExcept outcome)

def onWriteFixed (descriptor : UInt32) (c : Completion) : LoopM β ρ σ Unit := do
  if descriptor.toNat > FreeList.maxSlots then throw (.slotNotOutstanding 65535)
  let index := descriptor.toUInt16
  if c.result < 0 then
    emit .debug "fixed write failed" [("slot", toString index), ("errno", toString (-c.result))]
  let pool ← liftExcept ((← get).pool.release index)
  modify fun l => { l with pool }

def onClose (fd : Descriptor) (c : Completion) : LoopM β ρ σ Unit := do
  if c.result < 0 then
    emit .debug "close failed" [("fd", toString fd), ("errno", toString (-c.result))]
  let connection ← modifyGet fun l =>
    let (connection, connections) := l.connections.remove fd
    (connection, { l with connections })
  match connection with
  | none => emit .debug "close for untracked descriptor" [("fd", toString fd)]
  | some x =>
    count fun n => { n with closes := n.closes + 1 }
    emit .info "closed" [("fd", toString fd), ("peer", peerText x.peer),
      ("messages", toString x.messages), ("bytes", toString x.bytes)]
    writeAccess s!"closed fd {fd} from {peerText x.peer} after {x.messages} messages"

/-- One completion. -/
def dispatch (c : Completion) : LoopM β ρ σ Unit := do
  let descriptor := c.tag.descriptor
  let fd := descriptor.toInt32
  match c.tag.opcode? with
  | some .accept => onAccept fd c
  | some .receive => onReceive fd c
  | some .writeFixed => onWriteFixed descriptor c
  | some .close => onClose fd c
  | some op =>
    if c.result < 0 then
      emit .debug "operation failed" [("fd", toString descriptor), ("op", op.name),
        ("errno", toString (-c.result))]
  | none =>
    count fun n => { n with unknown := n.unknown + 1 }
    emit .debug "ignoring completion with unknown opcode"
      [("user_data", toString c.tag.word), ("opcode", toString c.tag.opcodeByte)]

/-! Operations of the loop. -/

/-- Starts accepting on a listening descriptor. -/
def listen (fd : Descriptor) : LoopM β ρ σ Unit := do
  modify fun l => { l with listener := some fd }
  armAccept fd
  flush
  emit .info "accepting connections" [("fd", toString fd)]

/-- One pass: wait, drain, dispatch, flush. The answer is how many completions it handled. After a
fault the rest of the batch is lost and the turn does not count. -/
def turn : LoopM β ρ σ Nat := do
  let outcome ← modifyGet fun l =>
    let (outcome, backend) := Backend.wait l.pool.memory 1 l.backend
    (outcome, { l with backend })
  let _ ← liftExcept outcome
  let batch ← modifyGet fun l =>
    let (batch, backend) := Backend.drain l.backend
    (batch, { l with backend })
  batch.forM dispatch
  flush
  count fun n =>
    { n with turns := n.turns + 1, completions := n.completions + .ofNat batch.length }
  return batch.length

/-- Up to `fuel` turns; the answer is the fault that ended them, if one did. -/
def run : Nat → EventLoop β ρ σ → Option Fault × EventLoop β ρ σ
  | 0, l => (none, l)
  | fuel + 1, l =>
    match turn.run.run l with
    | (.ok _, l) => run fuel l
    | (.error fault, l) => (some fault, l)

end EventLoop

end RingServer
