import RingServer.Kernel.Uring
import RingServer.Proofs.Requests

/-!
A submission queue of bounded size against one without a bound. Whatever the kernel does, failed and
interrupted calls included, no entry is lost, doubled or moved: what the kernel has taken, followed
by what is queued, is what was accepted (`entries_serve`). A push that finds no room enters the
kernel before it queues, so the queue hands its entries over earlier than the server asks, but as
long as the kernel takes what it is given the server cannot tell: no push fails, the kernel gets the
entry of every submission once and in order, and the counter that a flush trusts is the length of
the queue (`Follows.perform`). What is handed over is seen by a kernel that keeps a note of every
call and is the same otherwise (`perform_unobserved`).
-/

namespace RingServer.Kernel

open Requests (serve serve_alike)

/-- A kernel with a note of what each call has taken. -/
structure Observed (κ : Type) where
  calls : List (List QueueEntry)
  kernel : κ

namespace Observed

variable {κ : Type}

def start (kernel : κ) : Observed κ := ⟨[], kernel⟩

/-- All that the kernel has been handed, in order. -/
def handed (o : Observed κ) : List QueueEntry := o.calls.flatten

/-- Adds to the note what a call has taken of the entries in the queue. -/
def noted (o : Observed κ) (entries : List QueueEntry) (intake : Intake κ) :
    Intake (Observed κ) :=
  ⟨intake.answer, intake.taken, o.calls ++ [entries.take intake.taken], intake.kernel⟩

instance [Taker κ] : Taker (Observed κ) where
  polls o := Taker.polls o.kernel
  enter memory want entries o := (Taker.enter memory want entries o.kernel).map (o.noted entries)
  awaitRoom memory entries o := (Taker.awaitRoom memory entries o.kernel).map (o.noted entries)

theorem handed_noted (o : Observed κ) (entries : List QueueEntry) (intake : Intake κ) :
    (o.noted entries intake).kernel.handed = o.handed ++ entries.take intake.taken := by
  rw [handed, noted, List.flatten_append, List.flatten_singleton]
  rfl

end Observed

/-- Kernels that take what they are given, whenever they are entered. One with a thread of its own
does not fail while the server waits for it. -/
structure Willing {κ : Type} [Taker κ] (good : κ → Prop) : Prop where
  enter : ∀ memory want entries kernel, good kernel → ∃ kernel',
    Taker.enter memory want entries kernel = .ok ⟨entries.length, entries.length, kernel'⟩ ∧
      good kernel'
  awaitRoom : ∀ memory kernel, good kernel → Taker.polls kernel = true → ∃ intake,
    Taker.awaitRoom memory [] kernel = .ok intake ∧ good intake.kernel

namespace Machine

variable (memory : Memory)

theorem broken_withChannel (m : Machine) (fd : Descriptor) (f : Channel → Int32 × Channel) :
    (m.withChannel fd f).2.broken = m.broken := by
  unfold withChannel
  split <;> rfl

theorem broken_execute (call : SystemCall) (m : Machine) :
    (m.execute memory call).2.broken = m.broken := by
  unfold execute
  cases call with
  | acceptMany fd =>
    simp only
    split
    · rfl
    · exact broken_withChannel m fd _
  | receiveMany fd group =>
    simp only
    split
    · rfl
    · split <;> rfl
  | send fd _ | write fd _ _ | writeFixed fd _ _ | shutdown fd _ | close fd =>
    exact broken_withChannel m fd _

theorem broken_executeAll (entries : List QueueEntry) (m : Machine) :
    (m.executeAll memory entries).2.broken = m.broken := by
  induction entries generalizing m with
  | nil => rfl
  | cons e rest ih =>
    have last := (ih (m.execute memory e.call).2).trans (broken_execute memory e.call m)
    simp only [executeAll]
    split <;> exact last

/-- A machine takes what it is given until its ring is broken, and no entry breaks it. -/
theorem willing : Willing fun m : Machine => m.broken = false where
  enter memory _ entries m hm := by
    refine ⟨_, if_neg ?_, ?_⟩
    · rw [hm]
      exact Bool.false_ne_true
    · exact (broken_executeAll memory entries m).trans hm
  awaitRoom _ m hm _ := by
    refine ⟨⟨0, 0, m⟩, if_neg ?_, hm⟩
    rw [hm]
    exact Bool.false_ne_true

end Machine

/-- What a server asks of a submission queue. -/
inductive QueueRequest
  | push (memory : Memory) (s : Submission)
  | flush (memory : Memory)
  | wait (memory : Memory) (want : Nat)

/-- A fault, or the number of entries that were handed over, for a request that reports it. -/
abbrev QueueAnswer := Except Fault (Option Nat)

namespace QueueRequest

def pushed? : QueueRequest → Option Submission
  | push _ s => some s
  | flush _ | wait _ _ => none

/-- What a request adds to the entries of a queue, judged by its answer. -/
def added : QueueRequest → QueueAnswer → List QueueEntry
  | push _ s, .ok _ => [.ofSubmission s]
  | push _ _, .error _ | flush _, _ | wait _ _, _ => []

end QueueRequest

/-- A queue without a bound. It hands its entries over when it is told to, and at no other time. -/
structure Outbox where
  handed : List QueueEntry
  queued : List QueueEntry

namespace Outbox

def after : QueueRequest → Outbox → Outbox
  | .push _ s, o => ⟨o.handed, o.queued ++ [.ofSubmission s]⟩
  | .flush _, o | .wait _ _, o => ⟨o.handed ++ o.queued, []⟩

def run : List QueueRequest → Outbox → Outbox
  | [], o => o
  | r :: rest, o => run rest (o.after r)

theorem after_pushed (r : QueueRequest) (o : Outbox) :
    (o.after r).handed ++ (o.after r).queued =
      o.handed ++ o.queued ++ r.pushed?.toList.map .ofSubmission := by
  cases r with
  | push memory s => exact (List.append_assoc ..).symm
  | flush memory | wait memory want => rfl

/-- Every submission is in an outbox once, where its push has put it. -/
theorem run_pushed (requests : List QueueRequest) (o : Outbox) :
    (o.run requests).handed ++ (o.run requests).queued =
      o.handed ++ o.queued ++
        (requests.filterMap QueueRequest.pushed?).map .ofSubmission := by
  induction requests generalizing o with
  | nil => exact (List.append_nil _).symm
  | cons r rest ih =>
    rw [run, ih, after_pushed, List.append_assoc, List.filterMap_cons]
    cases r.pushed? <;> rfl

end Outbox

namespace SubmissionQueue

variable {κ : Type} [Taker κ]

def perform : QueueRequest → SubmissionQueue κ → QueueAnswer × SubmissionQueue κ
  | .push memory s, q => ((q.push memory s).1.map fun _ => none, (q.push memory s).2)
  | .flush memory, q => ((q.flush memory).1.map some, (q.flush memory).2)
  | .wait memory want, q => ((q.wait memory want).1.map some, (q.wait memory want).2)

/-! ## The note of the calls changes nothing -/

/-- The queue in front of the kernel itself. -/
def unobserved (q : SubmissionQueue (Observed κ)) : SubmissionQueue κ :=
  ⟨q.capacity, q.queued, q.pending, q.kernel.kernel⟩

section Note

variable (memory : Memory) (want : Nat) (s : Submission) (q : SubmissionQueue (Observed κ))

theorem taker_enter_eq : Taker.enter memory want q.queued q.kernel =
    (Taker.enter memory want q.queued q.kernel.kernel).map (q.kernel.noted q.queued) := rfl

theorem taker_awaitRoom_eq : Taker.awaitRoom memory q.queued q.kernel =
    (Taker.awaitRoom memory q.queued q.kernel.kernel).map (q.kernel.noted q.queued) := rfl

theorem enter_unobserved : q.unobserved.enter memory want =
    ((q.enter memory want).1, (q.enter memory want).2.unobserved) := by
  have e : Taker.enter memory want q.unobserved.queued q.unobserved.kernel =
      Taker.enter memory want q.queued q.kernel.kernel := rfl
  rw [enter, e, enter, taker_enter_eq]
  cases Taker.enter memory want q.queued q.kernel.kernel <;> rfl

theorem flush_unobserved :
    q.unobserved.flush memory = ((q.flush memory).1, (q.flush memory).2.unobserved) := by
  have e : q.unobserved.pending = q.pending := rfl
  unfold flush
  rw [e, enter_unobserved]
  split <;> rfl

theorem wait_unobserved : q.unobserved.wait memory want =
    ((q.wait memory want).1, (q.wait memory want).2.unobserved) := by
  unfold wait
  rw [enter_unobserved]
  rcases q.enter memory want with ⟨errno | n, p⟩ <;> rfl

theorem awaitRoom_unobserved : q.unobserved.awaitRoom memory =
    ((q.awaitRoom memory).1, (q.awaitRoom memory).2.unobserved) := by
  have e : Taker.awaitRoom memory q.unobserved.queued q.unobserved.kernel =
      Taker.awaitRoom memory q.queued q.kernel.kernel := rfl
  have polls : Taker.polls q.unobserved.kernel = Taker.polls q.kernel := rfl
  unfold awaitRoom
  rw [polls, e, taker_awaitRoom_eq]
  split
  · cases Taker.awaitRoom memory q.queued q.kernel.kernel <;> rfl
  · rfl

omit [Taker κ] in
theorem add?_unobserved (e : QueueEntry) : q.unobserved.add? e = (q.add? e).map unobserved := by
  have same : q.unobserved.queued.length < q.unobserved.capacity ↔ q.queued.length < q.capacity :=
    Iff.rfl
  by_cases room : q.queued.length < q.capacity
  · rw [add?, add?, if_pos (same.mpr room), if_pos room]
    rfl
  · rw [add?, add?, if_neg (mt same.mp room), if_neg room]
    rfl

theorem push_unobserved :
    q.unobserved.push memory s = ((q.push memory s).1, (q.push memory s).2.unobserved) := by
  unfold push
  rw [add?_unobserved, flush_unobserved]
  cases q.add? (.ofSubmission s) with
  | some _ => rfl
  | none =>
    rcases q.flush memory with ⟨fault | n, p⟩
    · rfl
    simp only [Option.map_none, awaitRoom_unobserved]
    rcases p.awaitRoom memory with ⟨fault | _, p⟩
    · rfl
    · simp only [add?_unobserved]
      cases p.add? (.ofSubmission s) <;> rfl

theorem perform_unobserved (r : QueueRequest) :
    perform r q.unobserved = ((perform r q).1, (perform r q).2.unobserved) := by
  cases r with
  | push memory s => rw [perform, push_unobserved]; rfl
  | flush memory => rw [perform, flush_unobserved]; rfl
  | wait memory want => rw [perform, wait_unobserved]; rfl

end Note

theorem serve_unobserved (q : SubmissionQueue (Observed κ)) (requests : List QueueRequest) :
    serve perform requests q.unobserved =
      ((serve perform requests q).1, (serve perform requests q).2.unobserved) := by
  have step : ∀ {p : SubmissionQueue κ} {q : SubmissionQueue (Observed κ)}, p = q.unobserved →
      ∀ r, (perform r p).1 = (perform r q).1 ∧ (perform r p).2 = (perform r q).2.unobserved := by
    intro p q h r
    rw [h, perform_unobserved]
    exact ⟨rfl, rfl⟩
  obtain ⟨e, same⟩ := serve_alike (R := fun p q => p = SubmissionQueue.unobserved q) step requests
    (Eq.refl q.unobserved)
  exact Prod.ext e same

/-! ## Whatever the kernel does -/

/-- What the kernel has taken, followed by what is queued. -/
def entries (q : SubmissionQueue (Observed κ)) : List QueueEntry := q.kernel.handed ++ q.queued

section Entries

variable (memory : Memory) (want : Nat) (s : Submission) (q : SubmissionQueue (Observed κ))

omit [Taker κ] in
/-- A call moves entries from one part to the other. -/
theorem entries_afterIntake (intake : Intake κ) :
    (q.afterIntake (q.kernel.noted q.queued intake)).entries = q.entries := by
  show (q.kernel.noted q.queued intake).kernel.handed ++ q.queued.drop intake.taken = q.entries
  rw [Observed.handed_noted, List.append_assoc, List.take_append_drop, entries]

theorem entries_enter : (q.enter memory want).2.entries = q.entries := by
  rw [enter, taker_enter_eq]
  cases Taker.enter memory want q.queued q.kernel.kernel with
  | error errno => rfl
  | ok intake => exact entries_afterIntake q intake

theorem entries_flush : (q.flush memory).2.entries = q.entries := by
  unfold flush
  split
  · rfl
  · exact entries_enter memory 0 q

theorem entries_wait : (q.wait memory want).2.entries = q.entries := by
  have same := entries_enter memory want q
  unfold wait
  rcases h : q.enter memory want with ⟨errno | n, p⟩
  · rw [h] at same
    exact same
  · rw [h] at same
    exact same

theorem entries_awaitRoom : (q.awaitRoom memory).2.entries = q.entries := by
  unfold awaitRoom
  split
  · rw [taker_awaitRoom_eq]
    cases Taker.awaitRoom memory q.queued q.kernel.kernel with
    | error errno => rfl
    | ok intake => exact entries_afterIntake q intake
  · rfl

omit [Taker κ] in
theorem entries_add? {p q : SubmissionQueue (Observed κ)} {e : QueueEntry}
    (h : q.add? e = some p) : p.entries = q.entries ++ [e] := by
  unfold add? at h
  split at h
  · cases h
    exact (List.append_assoc ..).symm
  · cases h

theorem entries_push : (q.push memory s).2.entries =
    q.entries ++ QueueRequest.added (.push memory s) ((q.push memory s).1.map fun _ => none) := by
  unfold push
  cases added : q.add? (.ofSubmission s) with
  | some p => exact entries_add? added
  | none =>
    have flushed := entries_flush memory q
    rcases hf : q.flush memory with ⟨fault | n, p⟩ <;> rw [hf] at flushed
    · exact flushed.trans (List.append_nil _).symm
    have waited := (entries_awaitRoom memory p).trans flushed
    simp only
    rcases hw : p.awaitRoom memory with ⟨fault | _, r⟩ <;> rw [hw] at waited
    · exact waited.trans (List.append_nil _).symm
    simp only
    cases added : r.add? (.ofSubmission s) with
    | some _ => exact (entries_add? added).trans (congrArg (· ++ _) waited)
    | none => exact waited.trans (List.append_nil _).symm

/-- A request adds its submission if it is accepted, and nothing is lost otherwise. -/
theorem entries_perform (r : QueueRequest) :
    (perform r q).2.entries = q.entries ++ r.added (perform r q).1 := by
  cases r with
  | push memory s => exact entries_push memory s q
  | flush memory => exact (entries_flush memory q).trans (List.append_nil _).symm
  | wait memory want => exact (entries_wait memory want q).trans (List.append_nil _).symm

/-- No kernel, however it fails, makes a queue lose an entry, hand it over twice or out of order. -/
theorem entries_serve (requests : List QueueRequest) :
    (serve perform requests q).2.entries = q.entries ++
      (List.zipWith QueueRequest.added requests (serve perform requests q).1).flatten := by
  induction requests generalizing q with
  | nil => exact (List.append_nil _).symm
  | cons r rest ih =>
    show (serve perform rest (perform r q).2).2.entries = _
    rw [ih, entries_perform, List.append_assoc]
    rfl

end Entries

/-! ## Beside an outbox -/

/-- The queue has handed over what the outbox has, and perhaps more of what is queued there. -/
structure Follows (good : κ → Prop) (capacity : Nat) (o : Outbox)
    (q : SubmissionQueue (Observed κ)) : Prop where
  ready : good q.kernel.kernel
  room : q.capacity = capacity
  pending : q.pending = q.queued.length
  bound : q.queued.length ≤ capacity
  whole : q.entries = o.handed ++ o.queued
  early : o.handed <+: q.kernel.handed

variable {good : κ → Prop} {capacity : Nat} {o : Outbox}

omit [Taker κ] in
/-- An empty queue has handed over all that any outbox with the same entries has. -/
theorem early_of_nil {q : SubmissionQueue (Observed κ)} (empty : q.queued = [])
    (whole : q.entries = o.handed ++ o.queued) : o.handed <+: q.kernel.handed := by
  rw [entries, empty, List.append_nil] at whole
  exact ⟨o.queued, whole.symm⟩

/-- What one call hands over is what is queued. -/
theorem Follows.exists_enter {q} (h : Follows good capacity o q) (willing : Willing good)
    (memory : Memory) (want : Nat) : ∃ kernel, good kernel ∧ q.enter memory want =
      (.ok q.queued.length, ⟨q.capacity, [], 0, ⟨q.kernel.calls ++ [q.queued], kernel⟩⟩) := by
  obtain ⟨kernel, e, hk⟩ := willing.enter memory want q.queued q.kernel.kernel h.ready
  refine ⟨kernel, hk, ?_⟩
  rw [SubmissionQueue.enter, taker_enter_eq, e]
  simp [Except.map, Observed.noted, afterIntake]

/-- After a call the queue follows every outbox that has the same entries, wherever that stands. -/
theorem Follows.enter {q} (h : Follows good capacity o q) (willing : Willing good)
    (memory : Memory) (want : Nat) {o' : Outbox}
    (same : o'.handed ++ o'.queued = o.handed ++ o.queued) :
    (q.enter memory want).1 = .ok q.queued.length ∧ (q.enter memory want).2.queued = [] ∧
      (q.enter memory want).2.kernel.calls = q.kernel.calls ++ [q.queued] ∧
      Follows good capacity o' (q.enter memory want).2 := by
  have whole := (entries_enter memory want q).trans (h.whole.trans same.symm)
  obtain ⟨kernel, hk, e⟩ := h.exists_enter willing memory want
  rw [e] at whole ⊢
  exact ⟨rfl, rfl, rfl, hk, h.room, rfl, Nat.zero_le _, whole, early_of_nil rfl whole⟩

/-- A flush enters the kernel exactly when something is queued. -/
theorem Follows.flush_eq {q} (h : Follows good capacity o q) (memory : Memory) :
    q.flush memory = if q.queued = [] then (.ok 0, q)
      else ((q.enter memory 0).1.mapError Fault.submit, (q.enter memory 0).2) := by
  have e : q.pending = 0 ↔ q.queued = [] := by
    rw [h.pending, List.length_eq_zero_iff]
  unfold SubmissionQueue.flush
  split
  next hp => rw [if_pos (e.mp hp)]
  next hp => rw [if_neg (mt e.mpr hp)]

theorem Follows.flush {q} (h : Follows good capacity o q) (willing : Willing good)
    (memory : Memory) {o' : Outbox} (same : o'.handed ++ o'.queued = o.handed ++ o.queued) :
    (q.flush memory).1 = .ok q.queued.length ∧ (q.flush memory).2.queued = [] ∧
      (q.flush memory).2.kernel.calls =
        (if q.queued = [] then q.kernel.calls else q.kernel.calls ++ [q.queued]) ∧
      Follows good capacity o' (q.flush memory).2 := by
  have whole := h.whole.trans same.symm
  rw [h.flush_eq]
  split
  next hq =>
    exact ⟨by rw [hq]; rfl, hq, rfl, h.ready, h.room, h.pending, h.bound, whole,
      early_of_nil hq whole⟩
  next hq =>
    obtain ⟨answer, empty, calls, next⟩ := h.enter willing memory 0 same
    exact ⟨by rw [answer]; rfl, empty, calls, next⟩

theorem Follows.wait {q} (h : Follows good capacity o q) (willing : Willing good)
    (memory : Memory) (want : Nat) {o' : Outbox}
    (same : o'.handed ++ o'.queued = o.handed ++ o.queued) :
    (q.wait memory want).1 = .ok q.queued.length ∧
      Follows good capacity o' (q.wait memory want).2 := by
  obtain ⟨answer, -, -, next⟩ := h.enter willing memory want same
  have split : q.enter memory want = (.ok q.queued.length, (q.enter memory want).2) :=
    Prod.ext answer rfl
  rw [SubmissionQueue.wait, split]
  exact ⟨rfl, next⟩

/-- Behind an empty queue nothing is left to wait for. -/
theorem Follows.awaitRoom {q} (h : Follows good capacity o q) (willing : Willing good)
    (memory : Memory) (empty : q.queued = []) :
    (q.awaitRoom memory).1 = .ok () ∧ (q.awaitRoom memory).2.queued = [] ∧
      Follows good capacity o (q.awaitRoom memory).2 := by
  have whole := (entries_awaitRoom memory q).trans h.whole
  unfold SubmissionQueue.awaitRoom at whole ⊢
  split
  next polls =>
    obtain ⟨intake, e, hk⟩ := willing.awaitRoom memory q.kernel.kernel h.ready polls
    rw [if_pos polls] at whole
    rw [taker_awaitRoom_eq, empty, e] at whole ⊢
    have still : (q.afterIntake (q.kernel.noted [] intake)).queued = [] := by
      show q.queued.drop intake.taken = []
      rw [empty, List.drop_nil]
    refine ⟨rfl, still, hk, h.room, ?_, ?_, whole, early_of_nil still whole⟩
    · show q.pending = (q.queued.drop intake.taken).length
      rw [h.pending, empty, List.drop_nil]
    · show (q.queued.drop intake.taken).length ≤ capacity
      rw [empty, List.drop_nil]
      exact Nat.zero_le _
  next => exact ⟨rfl, empty, h⟩

omit [Taker κ] in
/-- Where there is room, a push does what it does to an outbox. -/
theorem Follows.add? {q} (h : Follows good capacity o q) (e : QueueEntry)
    (room : q.queued.length < capacity) :
    ∃ p, q.add? e = some p ∧ Follows good capacity ⟨o.handed, o.queued ++ [e]⟩ p := by
  have added : q.add? e = some _ := if_pos (h.room.symm ▸ room)
  refine ⟨_, added, h.ready, h.room, ?_, ?_, ?_, h.early⟩
  · simp [h.pending]
  · simpa using Nat.succ_le_of_lt room
  · rw [entries_add? added, h.whole, List.append_assoc]

theorem Follows.push {q} (h : Follows good capacity o q) (willing : Willing good)
    (hc : 0 < capacity) (memory : Memory) (s : Submission) :
    (q.push memory s).1 = .ok () ∧
      Follows good capacity ⟨o.handed, o.queued ++ [.ofSubmission s]⟩ (q.push memory s).2 := by
  by_cases room : q.queued.length < capacity
  · obtain ⟨p, e, hp⟩ := h.add? (.ofSubmission s) room
    rw [SubmissionQueue.push, e]
    exact ⟨rfl, hp⟩
  · -- the flush on the way leaves the outbox where it is, and makes room
    have full : q.add? (.ofSubmission s) = none := if_neg (h.room.symm ▸ room)
    obtain ⟨flushed, empty, -, hf⟩ := h.flush willing memory rfl
    rcases flush : q.flush memory with ⟨_, m⟩
    rw [flush] at flushed empty hf
    obtain ⟨waited, still, hw⟩ := hf.awaitRoom willing memory empty
    rcases wait : m.awaitRoom memory with ⟨_, n⟩
    rw [wait] at waited still hw
    obtain ⟨p, e, hp⟩ := hw.add? (.ofSubmission s) (by rw [still]; exact hc)
    cases flushed
    cases waited
    rw [SubmissionQueue.push, full, flush]
    simp only [wait, e]
    exact ⟨trivial, hp⟩

/-- No request fails, and none can be told from what it does to an outbox. -/
theorem Follows.perform {q} (h : Follows good capacity o q) (willing : Willing good)
    (hc : 0 < capacity) (r : QueueRequest) :
    (∃ n, (perform r q).1 = .ok n) ∧ Follows good capacity (o.after r) (perform r q).2 := by
  let all : Outbox := ⟨o.handed ++ o.queued, []⟩
  have same : all.handed ++ all.queued = o.handed ++ o.queued := List.append_nil _
  cases r with
  | push memory s =>
    obtain ⟨answer, next⟩ := h.push willing hc memory s
    exact ⟨⟨none, congrArg (Except.map _) answer⟩, next⟩
  | flush memory =>
    obtain ⟨answer, -, -, next⟩ := h.flush willing memory same
    exact ⟨⟨_, congrArg (Except.map _) answer⟩, next⟩
  | wait memory want =>
    obtain ⟨answer, next⟩ := h.wait willing memory want same
    exact ⟨⟨_, congrArg (Except.map _) answer⟩, next⟩

theorem Follows.serve {q} (h : Follows good capacity o q) (willing : Willing good)
    (hc : 0 < capacity) (requests : List QueueRequest) :
    (∀ answer ∈ (Requests.serve SubmissionQueue.perform requests q).1, ∃ n, answer = .ok n) ∧
      Follows good capacity (o.run requests)
        (Requests.serve SubmissionQueue.perform requests q).2 := by
  induction requests generalizing o q with
  | nil => exact ⟨nofun, h⟩
  | cons r rest ih =>
    obtain ⟨first, next⟩ := h.perform willing hc r
    obtain ⟨others, last⟩ := ih next
    exact ⟨List.forall_mem_cons.mpr ⟨first, others⟩, last⟩

omit [Taker κ] in
theorem follows_new {kernel : κ} (h : good kernel) :
    Follows good capacity ⟨[], []⟩ (new capacity (.start kernel)) :=
  ⟨h, rfl, rfl, Nat.zero_le _, rfl, List.prefix_rfl⟩

/-- As long as the kernel takes what it is given, a queue with room for one entry or more serves as
one without a bound. No request fails. What the kernel has been handed, followed by what is queued,
is the entries of what was pushed, in that order, with the tags as user data, and no two submissions
share an entry; nothing is handed over later than without a bound. The counter is the length of the
queue, which stays within its capacity. A flush then hands over all that is queued, and enters the
kernel unless that is nothing. A note of the calls changes nothing. -/
theorem hands_over_what_is_pushed (willing : Willing good) (hc : 0 < capacity) {kernel : κ}
    (hk : good kernel) (requests : List QueueRequest) :
    let run := serve perform requests (new capacity (.start kernel))
    let q := run.2
    let pushed := requests.filterMap QueueRequest.pushed?
    let unbounded := Outbox.run requests ⟨[], []⟩
    serve perform requests (new capacity kernel) = (run.1, q.unobserved) ∧
      (∀ answer ∈ run.1, ∃ n, answer = .ok n) ∧
      q.kernel.handed ++ q.queued = pushed.map .ofSubmission ∧
      (q.kernel.handed ++ q.queued).map (·.userData) = pushed.map (·.tag.word) ∧
      (∀ s t, QueueEntry.ofSubmission s = .ofSubmission t → s = t) ∧
      unbounded.handed ++ unbounded.queued = q.kernel.handed ++ q.queued ∧
      unbounded.handed <+: q.kernel.handed ∧
      q.pending = q.queued.length ∧ q.queued.length ≤ capacity ∧
      ∀ memory, let flushed := (q.flush memory).2
        (q.flush memory).1 = .ok q.queued.length ∧ flushed.queued = [] ∧ flushed.pending = 0 ∧
          flushed.kernel.handed = pushed.map .ofSubmission ∧
          flushed.kernel.calls =
            (if q.queued = [] then q.kernel.calls else q.kernel.calls ++ [q.queued]) ∧
          ((q.flush memory).1 = .ok 0 ∧ flushed.kernel.calls = q.kernel.calls ↔ q.queued = []) := by
  intro run q pushed unbounded
  have start : Follows good capacity ⟨[], []⟩ (new capacity (.start kernel)) := follows_new hk
  obtain ⟨answers, hq⟩ := start.serve willing hc requests
  have whole : q.kernel.handed ++ q.queued = pushed.map .ofSubmission :=
    hq.whole.trans (Outbox.run_pushed requests ⟨[], []⟩)
  have tags : (pushed.map QueueEntry.ofSubmission).map (·.userData) = pushed.map (·.tag.word) :=
    List.map_map
  refine ⟨serve_unobserved (new capacity (.start kernel)) requests, answers, whole, ?_,
    fun s t => QueueEntry.ofSubmission_inj.mp, hq.whole.symm, hq.early, hq.pending, hq.bound,
    fun memory => ?_⟩
  · rw [whole, tags]
  intro flushed
  obtain ⟨answer, empty, calls, hf⟩ := hq.flush willing memory rfl
  have handed : flushed.kernel.handed ++ flushed.queued = pushed.map .ofSubmission :=
    (entries_flush memory q).trans whole
  rw [empty, List.append_nil] at handed
  refine ⟨answer, empty, ?_, handed, calls, ?_⟩
  · rw [hf.pending, empty]
    rfl
  · constructor
    · rintro ⟨zero, -⟩
      rw [answer, Except.ok.injEq, List.length_eq_zero_iff] at zero
      exact zero
    · intro hq'
      rw [answer, calls, if_pos hq', hq']
      exact ⟨rfl, rfl⟩

/-- Room for two: the third push has the first two handed over, the first flush hands over the
third entry and the second flush does not enter the kernel. -/
theorem hands_over_what_is_pushed_past_capacity :
    let machine : Machine := ⟨.isolated, false, .new 4, [], [], false, [], false⟩
    let ask (fd : Descriptor) : Submission := ⟨.onDescriptor fd .close, .close fd⟩
    let asked (fd : Descriptor) : QueueEntry := ⟨.close fd, (Tag.onDescriptor fd .close).word⟩
    let pushes := [7, 8, 9].map fun fd => QueueRequest.push .blank (ask fd)
    let requests := pushes ++ [.flush .blank, .flush .blank, .push .blank (ask 7)]
    let q := (serve perform requests (new 2 (Observed.start machine))).2
    Willing (fun m : Machine => m.broken = false) ∧ 0 < 2 ∧ machine.broken = false ∧
      q.kernel.calls = [[asked 7, asked 8], [asked 9]] ∧ q.queued = [asked 7] ∧ q.pending = 1 ∧
      q.kernel.handed ++ q.queued = [asked 7, asked 8, asked 9, asked 7] := by
  intro machine ask asked pushes requests q
  obtain ⟨-, -, pushed, -, -, -, -, pending, -⟩ :=
    hands_over_what_is_pushed Machine.willing (by decide : 0 < 2) (rfl : machine.broken = false)
      requests
  have queued : q.queued = [asked 7] := by decide +kernel
  refine ⟨Machine.willing, by decide, rfl, by decide +kernel, queued, ?_, pushed⟩
  exact pending.trans (congrArg List.length queued)

end SubmissionQueue

end RingServer.Kernel
