import RingServer.Completion
import RingServer.Submission

/-!
The queue pair that the event loop works on, and two queue pairs without a kernel: `Recorder`
replays completions put into it and keeps what is submitted; `Script` does so step by step, with
faults on request. The memory that submissions name is passed along, as a kernel would see it.
-/
namespace RingServer

open Text (Bytes)

class Backend (β : Type) where
  /-- Queues a submission, which the kernel need not see yet. -/
  push : Memory → Submission → β → Except Fault Unit × β
  /-- Submits all that is queued; the answer is how many entries that was. -/
  flush : Memory → β → Except Fault Nat × β
  /-- Submits all that is queued and waits for a number of completions. -/
  wait : Memory → Nat → β → Except Fault Nat × β
  /-- Takes the completions that are ready. -/
  drain : β → List Completion × β
  /-- Submissions queued since the last flush. -/
  pending : β → Nat

/-- Keeps all submissions, and refuses one when it has `limit` of them. -/
structure Recorder where
  submitted : List Submission
  ready : List Completion
  flushes : Nat
  pending : Nat
  limit : Option Nat
  deriving Repr

namespace Recorder

def new : Recorder := ⟨[], [], 0, 0, none⟩

/-- Makes a completion ready. -/
def complete (c : Completion) (r : Recorder) : Recorder := { r with ready := r.ready ++ [c] }

/-- Takes the submissions kept so far. -/
def takeSubmitted (r : Recorder) : List Submission × Recorder :=
  (r.submitted, { r with submitted := [] })

def push (s : Submission) (r : Recorder) : Except Fault Unit × Recorder :=
  if r.limit.any fun n => n ≤ r.submitted.length then (.error .queueFull, r)
  else (.ok (), { r with submitted := r.submitted ++ [s], pending := r.pending + 1 })

def flush (r : Recorder) : Except Fault Nat × Recorder :=
  (.ok r.pending, { r with pending := 0, flushes := r.flushes + 1 })

instance : Backend Recorder where
  push _ := push
  flush _ := flush
  wait _ _ r := (.ok r.ready.length, r.flush.2)
  drain r := (r.ready, { r with ready := [] })
  pending := pending

end Recorder

/-- A queue pair that is driven in steps. -/
structure Script where
  queue : List Completion
  /-- Submissions of this step, each with the bytes it would send when it was pushed. -/
  submitted : List (Submission × Bytes)
  /-- Tags of the fixed writes that no step has completed yet. -/
  openWrites : List Tag
  pending : Nat
  flushes : Nat
  /-- How many submissions a step may make. -/
  limit : Option Nat
  waitErrno : Option Int32
  flushErrno : Option Int32
  /-- Error number of a wait that finds no completion. -/
  dryErrno : Option Int32
  /-- How many completions are drained at once. -/
  batch : Option Nat
  deriving Repr

namespace Script

def new : Script := ⟨[], [], [], 0, 0, none, none, none, none, none⟩

def enqueue (c : Completion) (s : Script) : Script := { s with queue := s.queue ++ [c] }

def push (memory : Memory) (sub : Submission) (s : Script) : Except Fault Unit × Script :=
  if s.limit.any fun n => n ≤ s.submitted.length then (.error .queueFull, s)
  else
    let openWrites := match sub.operation with
      | .writeFixed .. => s.openWrites ++ [sub.tag]
      | _ => s.openWrites
    (.ok (), { s with
      submitted := s.submitted ++ [(sub, sub.bytes memory)]
      openWrites
      pending := s.pending + 1 })

def flush (s : Script) : Except Fault Nat × Script :=
  match s.flushErrno with
  | some e => (.error (.submit e), s)
  | none => (.ok s.pending, { s with pending := 0, flushes := s.flushes + 1 })

def wait (s : Script) : Except Fault Nat × Script :=
  match s.waitErrno, s.dryErrno with
  | some e, _ => (.error (.submit e), s)
  | none, some e =>
    if s.queue.isEmpty then (.error (.submit e), s) else (.ok s.pending, { s with pending := 0 })
  | none, none => (.ok s.pending, { s with pending := 0 })

def drain (s : Script) : List Completion × Script :=
  let n := s.batch.getD s.queue.length
  (s.queue.take n, { s with queue := s.queue.drop n })

/-- Begins a step: the submissions of the one before are forgotten. -/
def beginStep (s : Script) : Script := { s with submitted := [] }

/-- Completes the open fixed write at a position, the oldest being at 0. -/
def completeWrite (position : Nat) (result : Int32) (s : Script) : Option (Tag × Script) :=
  s.openWrites[position]?.map fun tag =>
    (tag, { s with openWrites := s.openWrites.eraseIdx position }.enqueue ⟨tag, result, 0⟩)

instance : Backend Script where
  push := push
  flush _ := flush
  wait _ _ := wait
  drain := drain
  pending := pending

end Script

end RingServer
