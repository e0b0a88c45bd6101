import RingServer.SocketAddress
import RingServer.Tag

/-!
Connections and the table of those that the server tracks, one at most for a descriptor. The state
of a connection only moves forward: open, shutting down, closing.
-/
namespace RingServer

inductive ConnectionState
  | opened
  | shuttingDown
  | closing
  deriving DecidableEq, Repr

namespace ConnectionState

def rank : ConnectionState → Nat
  | opened => 0
  | shuttingDown => 1
  | closing => 2

def name : ConnectionState → String
  | opened => "open"
  | shuttingDown => "shutting_down"
  | closing => "closing"

def ofName? (s : String) : Option ConnectionState :=
  [opened, shuttingDown, closing].find? fun state => state.name = s

end ConnectionState

structure Connection where
  peer : Option SocketAddress
  state : ConnectionState
  messages : UInt64
  bytes : UInt64
  deriving DecidableEq, Repr

namespace Connection

def fresh (peer : Option SocketAddress) : Connection := ⟨peer, .opened, 0, 0⟩

def isOpen (c : Connection) : Bool := c.state = .opened

/-- Counts one message of `length` bytes. -/
def count (length : UInt64) (c : Connection) : Connection :=
  { c with messages := c.messages + 1, bytes := c.bytes + length }

end Connection

/-- The text of a peer; a dash where none is known. -/
def peerText : Option SocketAddress → String
  | some address => address.text
  | none => "-"

structure ConnectionTable where
  rows : List (Descriptor × Connection)
  deriving Repr

namespace ConnectionTable

def empty : ConnectionTable := ⟨[]⟩

def get? (t : ConnectionTable) (fd : Descriptor) : Option Connection := t.rows.lookup fd

def contains (t : ConnectionTable) (fd : Descriptor) : Bool := (t.get? fd).isSome

def isOpen (t : ConnectionTable) (fd : Descriptor) : Bool := (t.get? fd).any Connection.isOpen

def size (t : ConnectionTable) : Nat := t.rows.length

/-- Changes the connection of a descriptor. -/
def modify (fd : Descriptor) (f : Connection → Connection) (t : ConnectionTable) :
    ConnectionTable :=
  ⟨t.rows.map fun row => if row.1 = fd then (fd, f row.2) else row⟩

def erase (fd : Descriptor) (t : ConnectionTable) : ConnectionTable :=
  ⟨t.rows.filter fun row => row.1 ≠ fd⟩

/-- Starts tracking a descriptor that is not tracked yet; `false` if it is. -/
def insert (fd : Descriptor) (peer : Option SocketAddress) (t : ConnectionTable) :
    Bool × ConnectionTable :=
  if t.contains fd then (false, t) else (true, ⟨(fd, .fresh peer) :: t.rows⟩)

/-- Moves a connection forward; `false` if it is not tracked or already as far. -/
def advance (fd : Descriptor) (state : ConnectionState) (t : ConnectionTable) :
    Bool × ConnectionTable :=
  match t.get? fd with
  | some c =>
    if c.state.rank < state.rank then (true, t.modify fd fun c => { c with state }) else (false, t)
  | none => (false, t)

/-- Stops tracking a descriptor and returns what was known of it. -/
def remove (fd : Descriptor) (t : ConnectionTable) : Option Connection × ConnectionTable :=
  (t.get? fd, t.erase fd)

/-- The rows by ascending descriptor. -/
def sorted (t : ConnectionTable) : List (Descriptor × Connection) :=
  t.rows.mergeSort fun x y => x.1 ≤ y.1

end ConnectionTable

end RingServer
