import RingServer.Text.Bytes

/-!
Channels: a pipe that the server writes, or one end of a pair of stream sockets. The other end
belongs to the peer. Every operation completes at once with a result, negative for an error number.
-/
namespace RingServer.Kernel

open Text (Bytes)

def badDescriptor : Int32 := -9

def badAddress : Int32 := -14

def invalidArgument : Int32 := -22

def brokenPipe : Int32 := -32

def notSocket : Int32 := -88

/-- No ring is registered from which a receive could take a buffer. -/
def noBuffers : Int32 := -105

inductive ChannelKind
  | pipe
  | socket
  deriving DecidableEq, Repr

structure Channel where
  kind : ChannelKind
  /-- The server's end is closed. -/
  closed : Bool
  /-- The server's end was shut down. -/
  shut : Bool
  /-- The peer's end is closed. -/
  peerClosed : Bool
  /-- Bytes that the peer has not read yet. -/
  waiting : Bytes
  deriving DecidableEq, Repr

/-- What the peer finds when it reads. -/
inductive PeerRead
  | bytes (bytes : Bytes)
  | empty
  | ended
  | peerClosed
  deriving DecidableEq, Repr

namespace Channel

def new (kind : ChannelKind) : Channel := ⟨kind, false, false, false, []⟩

/-- Writes bytes towards the peer. A pipe takes an empty write in any state. -/
def write (bytes : Bytes) (c : Channel) : Int32 × Channel :=
  if c.kind = .pipe ∧ bytes = [] then (0, c)
  else if c.shut ∨ c.peerClosed then (brokenPipe, c)
  else (Int32.ofNat bytes.length, { c with waiting := c.waiting ++ bytes })

def send (bytes : Bytes) (c : Channel) : Int32 × Channel :=
  match c.kind with
  | .pipe => (notSocket, c)
  | .socket => c.write bytes

def shutdown (c : Channel) : Int32 × Channel :=
  match c.kind with
  | .pipe => (notSocket, c)
  | .socket => (0, { c with shut := true })

/-- No end of a pair listens. -/
def accept (c : Channel) : Int32 :=
  match c.kind with
  | .pipe => notSocket
  | .socket => invalidArgument

def close (c : Channel) : Int32 × Channel := (0, { c with closed := true })

/-- The peer reads all that waits for it. -/
def peerRead (c : Channel) : PeerRead × Channel :=
  if c.peerClosed then (.peerClosed, c)
  else if c.waiting ≠ [] then (.bytes c.waiting, { c with waiting := [] })
  else if c.closed ∨ c.shut then (.ended, c)
  else (.empty, c)

def closePeer (c : Channel) : Channel := { c with peerClosed := true, waiting := [] }

end Channel

end RingServer.Kernel
