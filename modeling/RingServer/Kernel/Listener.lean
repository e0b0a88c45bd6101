import RingServer.Event
import RingServer.Fault
import RingServer.Tag

/-!
Listening sockets. The address is bound before the length of the backlog is looked at.
-/
namespace RingServer.Kernel

structure Listener where
  fd : Descriptor
  port : UInt16
  deriving DecidableEq, Repr

namespace Listener

/-- The port that the system picks when it is left the choice. -/
def freePort : UInt16 := 32768

/-- The first descriptor that a program can open itself. -/
def firstDescriptor : Descriptor := 3

/-- Lengths of a backlog that can be asked for. -/
def acceptsBacklog (n : Int32) : Bool := -1 ≤ n && n ≤ 4095

/-- Listens on a port of every local address, on a free one if that is 0. The ports of `others`
are taken. -/
def listen (others : List Listener) (port : UInt16) (backlog : Int32) :
    Except Fault (Listener × Event) := do
  if others.any fun l => l.port = port then throw (.socket "bind" 98)
  unless acceptsBacklog backlog do throw (.socket "listen" 22)
  let fd := firstDescriptor + Int32.ofNat others.length
  return (⟨fd, if port = 0 then freePort else port⟩,
    ⟨.debug, "listening", [("fd", toString fd), ("port", toString port)]⟩)

/-- The port of an open listener. -/
def localPort (opened : List Listener) (fd : Descriptor) : Except Fault UInt16 :=
  match opened.find? fun l => l.fd = fd with
  | some l => .ok l.port
  | none => .error (.socket "getsockname" 9)

end Listener

end RingServer.Kernel
