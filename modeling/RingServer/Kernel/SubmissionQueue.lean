import RingServer.Fault
import RingServer.Submission

/-!
Submission queue of bounded size in front of a kernel. A submission is queued as the entry that the
kernel reads: a call with all its arguments, and the tag as user data. The server fills the queue
and hands all of it over at once: when it flushes, when it waits, and when a submission finds no
room. Where a thread of the kernel takes the entries, a submission without room waits for that
thread as well. A call that fails leaves the queue as it was.
-/
namespace RingServer.Kernel

open Text (Bytes)

/-- What an entry asks for. -/
inductive SystemCall
  | acceptMany (fd : Descriptor)
  | receiveMany (fd : Descriptor) (group : UInt16)
  | send (fd : Descriptor) (bytes : Bytes)
  | write (fd : Descriptor) (bytes : Bytes) (position : UInt64)
  | writeFixed (fd : Descriptor) (loan : Loan) (position : UInt64)
  | shutdown (fd : Descriptor) (how : Int32)
  | close (fd : Descriptor)
  deriving DecidableEq, Repr

namespace SystemCall

/-- Sockets and pipes have no position to write at. -/
def noPosition : UInt64 := 0xffffffffffffffff

/-- A shutdown ends both directions. -/
def bothWays : Int32 := 2

def ofOperation : Operation → SystemCall
  | .accept fd => acceptMany fd
  | .receive fd group => receiveMany fd group
  | .send fd bytes => send fd bytes
  | .write fd bytes => write fd bytes noPosition
  | .writeFixed fd loan => writeFixed fd loan noPosition
  | .shutdown fd => shutdown fd bothWays
  | .close fd => close fd

theorem ofOperation_inj {o p : Operation} : ofOperation o = ofOperation p ↔ o = p := by
  cases o <;> cases p <;> simp [ofOperation]

end SystemCall

structure QueueEntry where
  call : SystemCall
  userData : UInt64
  deriving DecidableEq, Repr

namespace QueueEntry

def ofSubmission (s : Submission) : QueueEntry := ⟨.ofOperation s.operation, s.tag.word⟩

/-- No two submissions make the same entry. -/
theorem ofSubmission_inj {s t : Submission} : ofSubmission s = ofSubmission t ↔ s = t := by
  obtain ⟨⟨v⟩, o⟩ := s
  obtain ⟨⟨w⟩, p⟩ := t
  simp [ofSubmission, SystemCall.ofOperation_inj, and_comm]

end QueueEntry

/-- What a call of the kernel comes to: its answer, and how many entries have been taken from the
front of the queue. -/
structure Intake (κ : Type) where
  answer : Nat
  taken : Nat
  kernel : κ

/-- What a queue is handed over to. A call that fails has an error number. -/
class Taker (κ : Type) where
  /-- Whether a thread of the kernel takes the entries. -/
  polls : κ → Bool
  /-- Hands entries over and waits for a number of completions. -/
  enter : Memory → Nat → List QueueEntry → κ → Except Int32 (Intake κ)
  /-- Waits until the thread of the kernel has made room. -/
  awaitRoom : Memory → List QueueEntry → κ → Except Int32 (Intake κ)

structure SubmissionQueue (κ : Type) where
  capacity : Nat
  queued : List QueueEntry
  /-- Submissions since the last call, as the server counts them. -/
  pending : Nat
  kernel : κ

/-- Error number of a call that a signal has ended. -/
def interrupted : Int32 := 4

namespace SubmissionQueue

variable {κ : Type}

def new (capacity : Nat) (kernel : κ) : SubmissionQueue κ := ⟨capacity, [], 0, kernel⟩

/-- Entries that were taken leave the queue. -/
def afterIntake (intake : Intake κ) (q : SubmissionQueue κ) : SubmissionQueue κ :=
  { q with queued := q.queued.drop intake.taken, kernel := intake.kernel }

/-- Adds an entry to the queue if there is room. -/
def add? (e : QueueEntry) (q : SubmissionQueue κ) : Option (SubmissionQueue κ) :=
  if q.queued.length < q.capacity then
    some { q with queued := q.queued ++ [e], pending := q.pending + 1 }
  else none

variable [Taker κ]

/-- Enters the kernel with all that is queued. -/
def enter (memory : Memory) (want : Nat) (q : SubmissionQueue κ) :
    Except Int32 Nat × SubmissionQueue κ :=
  match Taker.enter memory want q.queued q.kernel with
  | .ok intake => (.ok intake.answer, { q.afterIntake intake with pending := 0 })
  | .error errno => (.error errno, q)

def flush (memory : Memory) (q : SubmissionQueue κ) : Except Fault Nat × SubmissionQueue κ :=
  if q.pending = 0 then (.ok 0, q)
  else
    match q.enter memory 0 with
    | (outcome, q) => (outcome.mapError Fault.submit, q)

/-- Waits for a number of completions. One that a signal has ended answers that nothing was handed
over; the caller looks at what is there. -/
def wait (memory : Memory) (want : Nat) (q : SubmissionQueue κ) :
    Except Fault Nat × SubmissionQueue κ :=
  match q.enter memory want with
  | (.ok n, q) => (.ok n, q)
  | (.error errno, q) => (if errno = interrupted then .ok 0 else .error (.submit errno), q)

/-- Waits for the thread of the kernel, if it has one. -/
def awaitRoom (memory : Memory) (q : SubmissionQueue κ) : Except Fault Unit × SubmissionQueue κ :=
  if Taker.polls q.kernel then
    match Taker.awaitRoom memory q.queued q.kernel with
    | .ok intake => (.ok (), q.afterIntake intake)
    | .error errno => (.error (.submit errno), q)
  else (.ok (), q)

/-- Queues a submission. One that finds no room has the queue flushed first. -/
def push (memory : Memory) (s : Submission) (q : SubmissionQueue κ) :
    Except Fault Unit × SubmissionQueue κ :=
  match q.add? (.ofSubmission s) with
  | some q => (.ok (), q)
  | none =>
    match q.flush memory with
    | (.error fault, q) => (.error fault, q)
    | (.ok _, q) =>
      match q.awaitRoom memory with
      | (.error fault, q) => (.error fault, q)
      | (.ok (), q) =>
        match q.add? (.ofSubmission s) with
        | some q => (.ok (), q)
        | none => (.error .queueFull, q)

end SubmissionQueue

end RingServer.Kernel
