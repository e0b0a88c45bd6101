import RingServer.EventLoop
import RingServer.Kernel.Listener
import RingServer.Kernel.Uring

/-!
Starting the server: settings are checked, then resources are set up one after the other, and the
first fault ends the start. Each resource reports itself when it is there.
-/
namespace RingServer

open Kernel

/-- A server whose loop has not begun to accept. -/
structure Server where
  listener : Listener
  loop : EventLoop Uring SharedRing Unit

/-- A step of the start; what was reported before a fault stays reported. -/
abbrev StartM := ExceptT Fault (StateM (Array Event))

namespace Server

/-- Keeps the report that comes with a resource. -/
def report {α : Type} (x : Except Fault (α × Event)) : StartM α := do
  let (a, event) ← liftExcept x
  modify fun events => events.push event
  return a

def startRings (granted : Nat) : Uring → List RingParams → StartM (List SharedRing × Uring)
  | u, [] => return ([], u)
  | u, p :: ps => do
    let shared ← liftExcept (SharedRing.new granted p)
    let u ← report (u.registerRing shared.ring)
    let (rest, u) ← startRings granted u ps
    return (shared :: rest, u)

def start (host : Host) (s : Settings) : StartM Server := do
  liftExcept s.validate
  let listener ← report (Listener.listen [] s.port s.backlog)
  let u ← report (Uring.new host s.queue [] [listener.fd])
  let pool ← liftExcept (SlotPool.new host.addressSpace s.poolEntrySize s.poolEntries)
  let u ← report (u.registerBuffers pool)
  let (rings, u) ← startRings host.addressSpace u s.rings
  let loop ← liftExcept (EventLoop.new u pool rings s.reply.handler () s)
  return ⟨listener, loop⟩

/-- How a client fares that connects to the server from the host itself. Without a loopback
interface the connection is never made, and whoever waits for it waits in vain. -/
inductive ClientOutcome
  | connected
  | stalled
  deriving DecidableEq, Repr

def connect (host : Host) : ClientOutcome := if host.loopback then .connected else .stalled

end Server

end RingServer
