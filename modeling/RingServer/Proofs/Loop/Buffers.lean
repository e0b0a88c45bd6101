import Mathlib.Data.List.Count
import Mathlib.Data.List.Forall2
import Mathlib.Data.List.Induction
import RingServer.Proofs.Loop.Apart
import RingServer.Proofs.Loop.Delivery

/-!
Where the buffers are. Between the steps of a run no buffer is with the application: a dispatch that
takes one gives it back, whatever it means and however the dispatch ends. A run is `Attended` by a
kernel that picks buffers of the connection group and fills them, and `Handling` lists the buffers
picked and the completions dispatched. If every receive names a buffer that was picked for it
(`Faithful`), the buffers that wait and those that are under way are all there are, and they are
picked in the order in which they came back.
-/

namespace RingServer

open Text (Bytes)

/-- The kernel picked a buffer of the connection group, or a completion was dispatched. -/
inductive Handling
  | picked (id : UInt16)
  | dispatched (c : Completion)

namespace Handling

/-- The buffers that were picked, in order. -/
def picks (es : List Handling) : List UInt16 :=
  es.filterMap fun
    | .picked id => some id
    | .dispatched _ => none

/-- The buffers that receives brought, in order. -/
def returns (es : List Handling) : List UInt16 :=
  es.filterMap fun
    | .picked _ => none
    | .dispatched c => c.picked?

/-- The buffers that were picked and not brought yet. -/
def underWay (es : List Handling) : List UInt16 := (picks es).diff (returns es)

/-- Every receive names a buffer that was picked, and for each time that one was picked at most one
receive names it. -/
def Faithful (es : List Handling) : Prop :=
  ∀ a c b id, es = a ++ .dispatched c :: b → c.picked? = some id →
    (returns a).count id < (picks a).count id

variable {es : List Handling} {id : UInt16} {c : Completion}

@[simp]
theorem picks_picked : picks (es ++ [.picked id]) = picks es ++ [id] := by simp [picks]

@[simp]
theorem picks_dispatched : picks (es ++ [.dispatched c]) = picks es := by simp [picks]

@[simp]
theorem returns_picked : returns (es ++ [.picked id]) = returns es := by simp [returns]

@[simp]
theorem returns_dispatched :
    returns (es ++ [.dispatched c]) = returns es ++ c.picked?.toList := by
  cases h : c.picked? <;> simp [returns, h]

theorem Faithful.of_append {a b : List Handling} (h : Faithful (a ++ b)) : Faithful a := by
  intro x c y id e
  exact h x c (y ++ b) id (by rw [e, List.append_assoc, List.cons_append])

theorem faithful_nil : Faithful [] := by
  intro a c b id e
  cases a <;> cases e

/-- Only what is dispatched has to be faithful, and only to what came before. -/
theorem Faithful.append {e : Handling} (h : Faithful es)
    (he : ∀ c id, e = .dispatched c → c.picked? = some id →
      (returns es).count id < (picks es).count id) : Faithful (es ++ [e]) := by
  intro a c b id hs hc
  rcases EventLoop.append_singleton_eq hs with ⟨rfl, rfl, rfl⟩ | ⟨b', -, rfl⟩
  · exact he c id rfl hc
  · exact h a c b' id rfl hc

theorem Faithful.count_le (h : Faithful es) (id : UInt16) :
    (returns es).count id ≤ (picks es).count id := by
  induction es using List.reverseRecOn with
  | nil => exact Nat.le_refl 0
  | append_singleton es e ih =>
    have before := ih h.of_append
    cases e with
    | picked j =>
      rw [returns_picked, picks_picked, List.count_append]
      omega
    | dispatched c =>
      rw [returns_dispatched, picks_dispatched, List.count_append]
      cases hc : c.picked? with
      | none => simpa using before
      | some j =>
        by_cases e : j = id
        · have room := h es c [] id rfl (hc.trans (congrArg some e))
          simp only [e, Option.toList_some, List.count_singleton_self]
          omega
        · simpa [e] using before

/-- What goes round in order is always all there, in the queue or under way. -/
theorem perm_of_order {first waiting : List UInt16} (h : Faithful es)
    (order : first ++ returns es = picks es ++ waiting) :
    (waiting ++ underWay es).Perm first := by
  rw [List.perm_iff_count]
  intro id
  have counts := congrArg (List.count id) order
  have le := h.count_le id
  rw [List.count_append, List.count_append] at counts
  rw [List.count_append, underWay, List.count_diff]
  omega

end Handling

/-- The completion that a step dispatched, if it did. -/
def Occurrence.handlings (o : Occurrence) : List Handling :=
  (o.completion.map Handling.dispatched).toList

namespace KernelSide

theorem Works.ledger {q r : BufferQueue} (h : Works q r) : r.ledger = q.ledger := by
  induction h with
  | rest => rfl
  | @select s t id _ hs ih =>
    change s.select = some (id, t) at hs
    unfold BufferQueue.select at hs
    split at hs
    · cases hs
    · cases hs
      exact ih
  | fill _ _ _ ih => exact ih

theorem map_ledger {qs rs : List BufferQueue} (h : List.Forall₂ Works qs rs) :
    rs.map (·.ledger) = qs.map (·.ledger) := by
  induction h with
  | nil => rfl
  | cons hw _ ih => rw [List.map_cons, List.map_cons, hw.ledger, ih]

end KernelSide

namespace EventLoop

open Handling

variable {β ρ σ : Type}

/-- What a completion does to a queue at rest: a receive moves its buffer to the end, wherever that
buffer was. -/
theorem settled_eq {q : BufferQueue} (h : BufferSource.AtRest q) (c : Completion) :
    settled c q = c.picked?.elim q fun id =>
      if id.toNat < q.ledger.entries then { q with waiting := q.waiting ++ [id] } else q := by
  by_cases hr : c.tag.opcode? = some .receive
  · rw [settled, grasp, if_pos hr, Completion.picked?, if_pos hr]
    rcases c.bufferId? with _ | id
    · rfl
    simp only [Option.elim_some]
    by_cases hid : id.toNat < q.ledger.entries
    · have kernel := BufferQueue.atRest_iff.mp h id hid
      have taken : BufferSource.take id c.result.toInt.toNat q = _ :=
        BufferQueue.take_of_kernel c.result.toInt.toNat kernel
      rw [taken, if_pos hid]
      exact BufferQueue.recycle_take taken
    · have none : q.ledger.holder? id ≠ some .kernel := fun e =>
        hid (Ledger.lt_size_of_holder? e)
      have refused : BufferSource.take id c.result.toInt.toNat q = _ :=
        BufferQueue.take_eq_error c.result.toInt.toNat none
      rw [refused, if_neg hid]
      rfl
  · rw [settled_of_ne hr, Completion.picked?, if_neg hr]
    rfl

theorem settled_ledger {q : BufferQueue} (h : BufferSource.AtRest q) (c : Completion) :
    (settled c q).ledger = q.ledger := by
  rw [settled_eq h]
  rcases c.picked? with _ | id
  · rfl
  · simp only [Option.elim_some]
    split <;> rfl

theorem atRest_of_ledger {q r : BufferQueue} (h : BufferSource.AtRest q)
    (e : r.ledger = q.ledger) : BufferSource.AtRest r := by
  rw [BufferQueue.atRest_iff, e]
  exact BufferQueue.atRest_iff.mp h

theorem rings_of_new [BufferSource ρ] {backend : β} {pool : SlotPool} {rings : List ρ}
    {handler : Handler σ} {state : σ} {settings : Settings} {l : EventLoop β ρ σ}
    (h : EventLoop.new backend pool rings handler state settings = .ok l) :
    ∀ r ∈ l.rings, r ∈ rings := by
  have first := ring_mem_of_new h
  have others : ∀ r ∈ l.spareRings, r ∈ rings := by
    rw [(eq_of_new h).2.2]
    exact fun r => List.mem_of_mem_eraseP
  intro r hr
  rcases List.mem_cons.mp hr with rfl | hr
  · exact first
  · exact others r hr

/-! ## Runs -/

section

variable [Backend β]

/-- A run during which the kernel picks and fills buffers of the connection group. What it does to
other groups meanwhile, and what else goes on around the loop, is nobody's concern. -/
inductive Attended (start : Watched β BufferQueue σ) :
    List Handling → Watched β BufferQueue σ → Prop
  | start : Attended start [] start
  | step {es : List Handling} {l m : Watched β BufferQueue σ} {o : Occurrence} :
    Attended start es l → Takes l o m → Attended start (es ++ o.handlings) m
  | select {es : List Handling} {l : Watched β BufferQueue σ} {id : UInt16} {ring : BufferQueue} :
    Attended start es l → KernelSide.select l.ring = some (id, ring) →
    Attended start (es ++ [.picked id]) { l with ring }
  | fill {es : List Handling} {l : Watched β BufferQueue σ} (id : UInt16) (bytes : Bytes) :
    Attended start es l → Attended start es { l with ring := KernelSide.fill id bytes l.ring }
  | idle {es : List Handling} {l m : Watched β BufferQueue σ} :
    Attended start es l → Idle l m → m.ring = l.ring →
    List.Forall₂ KernelSide.Works l.spareRings m.spareRings → Attended start es m

variable {start l m : Watched β BufferQueue σ} {es : List Handling} {o : Occurrence}

theorem Attended.reached (ha : Attended start es l) : ∃ h, Reached start h l := by
  induction ha with
  | start => exact ⟨[], .start⟩
  | step _ ht ih =>
    obtain ⟨h, reached⟩ := ih
    exact ⟨_, reached.step ht⟩
  | select _ _ ih =>
    obtain ⟨h, reached⟩ := ih
    exact ⟨h, reached.idle ⟨rfl, rfl, rfl, rfl, rfl, rfl⟩⟩
  | fill id bytes _ ih =>
    obtain ⟨h, reached⟩ := ih
    exact ⟨h, reached.idle ⟨rfl, rfl, rfl, rfl, rfl, rfl⟩⟩
  | idle _ hi _ _ ih =>
    obtain ⟨h, reached⟩ := ih
    exact ⟨h, reached.idle hi⟩

/-- A step settles the buffer of its completion, if it dispatches one, and does nothing else to any
group. -/
theorem Takes.apart [BufferSource ρ] {l m : Watched β ρ σ} (ht : Takes l o m) :
    Apart { l with ring := o.completion.elim l.ring (settled · l.ring) } none m := by
  cases ht with
  | listen fd =>
    have h := apart_listen fd l
    exact ⟨h.ring, h.spareRings, h.turns, h.completions⟩
  | log level message =>
    have h := apart_writeLog level message l
    exact ⟨h.ring, h.spareRings, h.turns, h.completions⟩
  | dispatch c =>
    have h := dispatch_apart c l
    exact ⟨h.ring, h.spareRings, h.turns, h.completions⟩

/-! ## Batches and turns -/

/-- The groups may as well stay as they are. -/
theorem Attended.rest (ha : Attended start es l) (hi : Idle l m) (hr : m.ring = l.ring)
    (hs : m.spareRings = l.spareRings) : Attended start es m := by
  refine ha.idle hi hr ?_
  rw [hs]
  exact List.forall₂_same.mpr fun _ _ => .rest

theorem Attended.batch (ha : Attended start es l) (batch : List Completion) :
    Attended start (es ++ (occurrences batch l).flatMap Occurrence.handlings)
      (exec (batch.forM dispatch) l).2 := by
  induction batch generalizing es l with
  | nil =>
    rw [occurrences, List.flatMap_nil, List.append_nil]
    exact ha
  | cons c batch ih =>
    have first := ha.step (.dispatch c)
    show Attended start _ (exec (dispatch c >>= fun _ => batch.forM dispatch) l).2
    rcases hc : exec (dispatch c) l with ⟨e | a, m⟩
    · rw [occurrences, exec_bind_error hc, hc]
      rw [hc] at first
      simpa using first
    · rw [occurrences, exec_bind_ok hc, hc]
      rw [hc] at first
      have rest := ih first
      rwa [List.append_assoc] at rest

/-- A turn is part of a run, however it ends. -/
theorem Attended.turn (ha : Attended start es l) :
    Attended start (es ++ (turnOccurrences l).flatMap Occurrence.handlings) (exec turn l).2 := by
  have ready := idle_collect l
  have apart := apart_collect l
  rcases turn_cases l with ⟨e, m, hc, quiet, ended⟩ | ⟨batch, m, hc, happened, ended⟩
  · have kept := apart.to_exec hc
    rw [quiet, ended, List.flatMap_nil, List.append_nil]
    exact ha.rest (ready.to_exec hc) kept.ring kept.spareRings
  · have kept := apart.to_exec hc
    have dispatched := (ha.rest (ready.to_exec hc) kept.ring kept.spareRings).batch batch
    rw [happened]
    rcases ended with ended | ended
    · rw [ended]
      exact dispatched
    · obtain ⟨ring, spareRings⟩ := rings_conclude batch (exec (batch.forM dispatch) m).2
      rw [ended]
      exact dispatched.rest (idle_conclude batch _) ring spareRings

/-! ## Conservation -/

/-- The ledgers are those of the start, and the buffers of the connection group go round in order
as long as the kernel is faithful. -/
structure Conserved (start : Watched β BufferQueue σ) (es : List Handling)
    (l : Watched β BufferQueue σ) : Prop where
  ledger : l.ring.ledger = start.ring.ledger
  spareLedgers : l.spareRings.map (·.ledger) = start.spareRings.map (·.ledger)
  known : Faithful es → ∀ id ∈ returns es, id ∈ start.ring.waiting
  order : Faithful es → start.ring.waiting ++ returns es = picks es ++ l.ring.waiting

omit [Backend β] in
theorem conserved_start (l : Watched β BufferQueue σ) : Conserved l [] l :=
  ⟨rfl, rfl, fun _ => nofun, fun _ => List.append_nil _⟩

omit [Backend β] in
/-- A completion moves the buffer that it brings to the end of the queue. -/
theorem Conserved.dispatched (hc : Conserved start es l) (rest : BufferSource.AtRest start.ring)
    (bound : ∀ id ∈ start.ring.waiting, id.toNat < start.ring.ledger.entries) {c : Completion}
    (hr : m.ring = settled c l.ring) (hs : m.spareRings = l.spareRings) :
    Conserved start (es ++ [.dispatched c]) m := by
  have atRest := atRest_of_ledger rest hc.ledger
  have same := settled_eq atRest c
  -- A faithful kernel names a buffer that it picked, so one of the group.
  have named : Faithful (es ++ [.dispatched c]) → ∀ id, c.picked? = some id →
      id ∈ start.ring.waiting := by
    intro faithful id hid
    have picked := faithful es c [] id rfl hid
    have member : id ∈ picks es ++ l.ring.waiting :=
      List.mem_append_left _ (List.count_pos_iff.mp (by omega))
    rw [← hc.order faithful.of_append] at member
    rcases List.mem_append.mp member with first | back
    · exact first
    · exact hc.known faithful.of_append id back
  refine ⟨?_, ?_, fun faithful => ?_, fun faithful => ?_⟩
  · rw [hr, settled_ledger atRest, hc.ledger]
  · rw [hs]
    exact hc.spareLedgers
  · rw [returns_dispatched]
    intro id hid
    rcases List.mem_append.mp hid with before | now
    · exact hc.known faithful.of_append id before
    · exact named faithful id (Option.mem_toList.mp now)
  · have before := hc.order faithful.of_append
    rw [returns_dispatched, picks_dispatched, hr, same]
    rcases hp : c.picked? with _ | id
    · simpa using before
    · have inside : id.toNat < l.ring.ledger.entries := by
        rw [hc.ledger]
        exact bound id (named faithful id hp)
      simp only [Option.elim_some, if_pos inside, Option.toList_some]
      rw [← List.append_assoc, before, List.append_assoc]

theorem Attended.conserved (ha : Attended start es l) (rest : BufferSource.AtRest start.ring)
    (bound : ∀ id ∈ start.ring.waiting, id.toNat < start.ring.ledger.entries) :
    Conserved start es l := by
  induction ha with
  | start => exact conserved_start start
  | @step es l m o _ ht ih =>
    have apart := ht.apart
    rw [Occurrence.handlings]
    rcases ho : o.completion with _ | c
    · rw [ho] at apart
      have ring : m.ring = l.ring := apart.ring
      simp only [Option.map_none, Option.toList_none, List.append_nil]
      refine ⟨?_, ?_, ih.known, ?_⟩
      · rw [ring, ih.ledger]
      · rw [apart.spareRings]
        exact ih.spareLedgers
      · rw [ring]
        exact ih.order
    · rw [ho] at apart
      exact ih.dispatched rest bound apart.ring apart.spareRings
  | @select es l id ring _ hs ih =>
    change l.ring.select = some (id, ring) at hs
    unfold BufferQueue.select at hs
    split at hs
    · cases hs
    next waiting hw =>
      cases hs
      refine ⟨ih.ledger, ih.spareLedgers, fun faithful => ?_, fun faithful => ?_⟩
      · rw [returns_picked]
        exact ih.known faithful.of_append
      · have before := ih.order faithful.of_append
        rw [hw] at before
        rw [returns_picked, picks_picked, List.append_assoc]
        exact before
  | fill id bytes _ ih => exact ⟨ih.ledger, ih.spareLedgers, ih.known, ih.order⟩
  | @idle es l m _ _ hr hs ih =>
    refine ⟨?_, (KernelSide.map_ledger hs).trans ih.spareLedgers, ih.known, ?_⟩
    · rw [hr, ih.ledger]
    · rw [hr]
      exact ih.order

/-- On new groups, along every run and however pushes and dispatches end: no buffer of any group is
with the application, and the kernel has them all; no step of the loop touches a group other than
the one for connections. If every receive names a buffer that was picked for it, then no buffer
waits twice, those that wait and those under way are all there are, and the buffers are picked in
order: first as they were at the start, then as they came back. -/
theorem buffers_are_conserved {backend : β} {pool : SlotPool} {rings : List BufferQueue}
    {handler : Handler σ} {state : σ} {settings : Settings}
    (hn : EventLoop.new (.of backend) pool rings handler.recording (state, []) settings = .ok start)
    (hr : ∀ q ∈ rings, ∃ group entries size, q = BufferQueue.new group entries size)
    (ha : Attended start es l) :
    (∀ q ∈ l.rings, BufferSource.held q = 0 ∧ BufferSource.visible q = BufferSource.entries q) ∧
    (∀ o m, Takes l o m → m.spareRings = l.spareRings) ∧
    (Faithful es → l.ring.waiting.Nodup ∧
      (l.ring.waiting ++ underWay es).Perm
        ((List.range (BufferSource.entries l.ring)).map UInt16.ofNat) ∧
      (List.range (BufferSource.entries l.ring)).map UInt16.ofNat ++ returns es =
        picks es ++ l.ring.waiting) := by
  have fresh : ∀ q ∈ start.rings, ∃ group entries size, q = BufferQueue.new group entries size :=
    fun q hq => hr q (rings_of_new hn q hq)
  obtain ⟨group, entries, size, first⟩ := fresh start.ring List.mem_cons_self
  have conserved := ha.conserved (by rw [first]; exact BufferQueue.atRest_new _ _ _)
    (by rw [first]; exact fun id => BufferQueue.lt_of_mem_waiting_new)
  have all : BufferSource.entries l.ring = entries.toNat := by
    show l.ring.ledger.entries = _
    rw [conserved.ledger, first]
    exact Array.size_replicate
  have full : start.ring.waiting =
      (List.range (BufferSource.entries l.ring)).map UInt16.ofNat := by
    rw [all, first]
    rfl
  refine ⟨fun q hq => ?_, fun o m ht => ht.apart.spareRings, fun faithful => ?_⟩
  · have ledger : q.ledger ∈ start.rings.map (·.ledger) := by
      rw [EventLoop.rings, List.map_cons, ← conserved.ledger, ← conserved.spareLedgers,
        ← List.map_cons]
      exact List.mem_map_of_mem hq
    obtain ⟨r, hmem, e⟩ := List.mem_map.mp ledger
    obtain ⟨g, n, s, rfl⟩ := fresh r hmem
    show q.ledger.held = 0 ∧ q.ledger.entries - q.ledger.held = q.ledger.entries
    rw [← e]
    exact ⟨rfl, rfl⟩
  · have order := conserved.order faithful
    have perm := perm_of_order faithful order
    rw [full] at order perm
    have once : ((List.range (BufferSource.entries l.ring)).map UInt16.ofNat).Nodup := by
      rw [← full, first]
      exact BufferQueue.nodup_waiting_new _ _ _
    exact ⟨(List.nodup_append.mp (perm.nodup_iff.mpr once)).1, perm, order⟩

end

theorem fresh_buffers : ∀ q ∈ [BufferQueue.new 0 4 64], ∃ group entries size,
    q = BufferQueue.new group entries size :=
  fun _ hq => ⟨0, 4, 64, List.mem_singleton.mp hq⟩

/-- An empty message in the first buffer. -/
def emptyReport : Completion := KernelSide.completion 5 0 16 true

/-- The first buffer is picked, a turn dispatches its completion, and it waits behind the others. -/
theorem buffers_are_conserved_after_turn : ∃ ring, KernelSide.select echoing.ring = some (0, ring) ∧
    Attended echoing [.picked 0, .dispatched emptyReport]
      (exec turn (ready [emptyReport] { echoing with ring })).2 ∧
    BufferSource.held (exec turn (ready [emptyReport] { echoing with ring })).2.ring = 0 ∧
    [0, 1, 2, 3] ++ [0] =
      [0] ++ (exec turn (ready [emptyReport] { echoing with ring })).2.ring.waiting := by
  obtain ⟨ring, picked⟩ : ∃ ring, KernelSide.select echoing.ring = some (0, ring) := ⟨_, rfl⟩
  have reported := (Attended.start.select picked).rest (idle_ready [emptyReport] _) rfl rfl
  have turned := reported.turn
  rw [turnOccurrences_of_single rfl] at turned
  have faithful : Faithful [.picked 0, .dispatched emptyReport] := by
    have first : Faithful ([] ++ [.picked 0]) := faithful_nil.append fun _ _ => nofun
    refine first.append fun c id e hc => ?_
    cases e
    rw [show emptyReport.picked? = some 0 from by decide] at hc
    cases hc
    decide
  have all : (List.range (BufferSource.entries (exec turn (ready [emptyReport]
      { echoing with ring })).2.ring)).map UInt16.ofNat = [0, 1, 2, 3] := by
    cases picked
    decide +kernel
  obtain ⟨held, -, order⟩ := buffers_are_conserved new_echoing fresh_buffers turned
  have around := (order faithful).2.2
  rw [all] at around
  exact ⟨ring, picked, turned, (held _ List.mem_cons_self).1, around⟩

end EventLoop

end RingServer
