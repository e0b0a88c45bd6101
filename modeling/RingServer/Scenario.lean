import RingServer.EventLoop

/-!
An event loop seen from the kernel's side: what is reported to a loop over a queue pair that has no
kernel of its own.
-/
namespace RingServer

open Text (Bytes)

/-- A queue pair that completions can be put into. -/
class CompletionSink (β : Type) where
  post : Completion → β → β

instance : CompletionSink Recorder where
  post := Recorder.complete

instance : CompletionSink Script where
  post := Script.enqueue

namespace EventLoop

variable {β ρ σ : Type}

/-- Lets a completion arrive. -/
def arrive [CompletionSink β] (c : Completion) (l : EventLoop β ρ σ) : EventLoop β ρ σ :=
  { l with backend := CompletionSink.post c l.backend }

/-- Lets the kernel work on the first ring of a group, and what it reports arrive. -/
def arriveFrom [CompletionSink β] [BufferSource ρ] (group : UInt16)
    (work : ρ → Option (Completion × ρ)) (l : EventLoop β ρ σ) :
    Option (Completion × EventLoop β ρ σ) :=
  (l.withRing group work).map fun (c, l) => (c, l.arrive c)

/-- From now on the network reports this peer for a descriptor. -/
def setPeer (fd : Descriptor) (peer : Option SocketAddress) (l : EventLoop β ρ σ) :
    EventLoop β ρ σ :=
  { l with peerOf := fun x => if x = fd then peer else l.peerOf x }

/-- The first ring of each group, by ascending group. -/
def ringsByGroup [BufferSource ρ] (l : EventLoop β ρ σ) : List ρ :=
  let groups := (l.rings.map BufferSource.group).eraseDups.mergeSort
  groups.filterMap l.ring?

variable [BufferSource ρ]

/-- One turn that drains at most `batch` completions. -/
def turnOf (batch : Option Nat) (l : EventLoop Script ρ σ) :
    Except Fault Nat × EventLoop Script ρ σ :=
  let (outcome, l) := turn.run.run { l with backend := { l.backend with batch } }
  (outcome, { l with backend := { l.backend with batch := none } })

/-- Turns of at most `batch` completions until one fails; a wait that finds nothing fails with
`errno`. -/
def runDry (batch : Nat) (errno : Int32) (l : EventLoop Script ρ σ) :
    Option Fault × EventLoop Script ρ σ :=
  let (fault, l) := run (l.backend.queue.length + 1)
    { l with backend := { l.backend with batch := some batch, dryErrno := some errno } }
  (fault, { l with backend := { l.backend with batch := none, dryErrno := none } })

end EventLoop

end RingServer
