import RingServer.Proofs.Message
import RingServer.Proofs.Loop.Streams

/-!
What one dispatch does for the peers. A kernel that fails no receive reports messages in buffers
and the want of buffers (`Brings`). The dispatch of such a report for an open connection hands the
message over and gives the buffer back, and closes the descriptor only at the end of what the peer
sends; the dispatch of anything else hands nothing over and closes nothing (`Serves`).
-/

namespace RingServer

open Text (Bytes)

namespace Completion

/-- The buffer that a receive brings. -/
def picked? (c : Completion) : Option UInt16 :=
  if c.tag.opcode? = some .receive then c.bufferId? else none

/-- The descriptor that an accept brings. -/
def accepted? (c : Completion) : Option Descriptor :=
  if c.tag.opcode? = some .accept ∧ ¬ c.result < 0 then some c.result else none

end Completion

/-- What a step handed to the handler from a descriptor. -/
def Occurrence.handed (d : Descriptor) (o : Occurrence) : Bytes :=
  (messages d o.calls).flatten

namespace EventLoop

open Envelope (headerSize)

/-- What a kernel that fails no receive reports: a message in a buffer, or that it found no buffer
for one, which ends the stream. -/
inductive Brings (q : BufferQueue) (c : Completion) : Bytes → Prop
  | message {id : UInt16} {message : Bytes} :
    c.bufferId? = some id → id.toNat < q.ledger.entries → q.Holds id message →
    c.result.toInt = headerSize + message.length → Brings q c message
  | starved :
    c.bufferId? = none → c.result = -noBufferSpace → c.hasMore = false → Brings q c []

variable {β ρ σ : Type} {q r : BufferQueue} {c : Completion} {message : Bytes}

theorem Brings.payload_eq (h : Brings q c message) : q.payload c = message := by
  cases h with
  | message hi _ holds hr => exact holds.payload_eq hi hr
  | starved hi =>
    unfold BufferQueue.payload
    rw [hi]

/-- Only the buffer that the completion names matters. -/
theorem Brings.of_holds (h : Brings q c message) (he : r.ledger.entries = q.ledger.entries)
    (hh : ∀ id, c.bufferId? = some id → ∀ m, q.Holds id m → r.Holds id m) :
    Brings r c message := by
  cases h with
  | message hi hid holds hr => exact .message hi (he ▸ hid) (hh _ hi _ holds) hr
  | starved hi hr hm => exact .starved hi hr hm

/-- A result that counts a header and what follows it is no code of a fault, and no end. -/
theorem not_fault_of_counts {result : Int32} {n : Nat} (h : result.toInt = headerSize + n) :
    result ≠ -noBufferSpace ∧ result ≠ 0 ∧ ¬ result < 0 ∧ n < UInt32.size := by
  have size : UInt32.size = 4294967296 := rfl
  have header : headerSize = 16 := rfl
  have zero : (0 : Int32).toInt = 0 := rfl
  have shortage : (-noBufferSpace).toInt = -105 := by decide
  have bound := result.toInt_lt
  refine ⟨?_, ?_, fun negative => ?_, by omega⟩
  · rintro rfl
    omega
  · rintro rfl
    omega
  · have := Int32.lt_iff_toInt_lt.mp negative
    omega

/-- What a dispatch takes such a completion for. -/
theorem Brings.judged {buffer : Option ReceivedBuffer} (h : Brings q c message)
    (hr : c.tag.opcode? = some .receive) (hg : (grasp c q).1 = .ok buffer) :
    (buffer = none ∧ message = [] ∧ c.hasMore = false ∧
      judge (grasp c q).2 c.result buffer = (.noBuffers, [])) ∨
    ∃ b, buffer = some b ∧ c.bufferId? = some b.id ∧
      judge (grasp c q).2 c.result buffer =
        (if message = [] then .ended else .delivered, message) := by
  cases h with
  | starved hi hres hm =>
    left
    have untaken : grasp c q = (.ok none, q) := by
      unfold grasp
      rw [if_pos hr, hi]
    rw [untaken] at hg ⊢
    cases hg
    refine ⟨rfl, rfl, hm, ?_⟩
    unfold judge
    rw [if_pos hres]
  | @message id _ hi hid holds hres =>
    right
    cases buffer with
    | none =>
      unfold grasp at hg
      rw [if_pos hr, hi] at hg
      simp only [] at hg
      rcases ht : BufferSource.take id c.result.toInt.toNat q with ⟨e | b, s⟩ <;>
        rw [ht] at hg <;> cases hg
    | some b =>
      obtain ⟨id', hi', ht⟩ := grasp_some hg
      cases hi.symm.trans hi'
      obtain ⟨hb, -, -, size, -⟩ := BufferQueue.of_take ht
      refine ⟨b, rfl, hb ▸ hi, ?_⟩
      have fits := holds.fits
      have positive : c.result.toInt.toNat = headerSize + message.length := by omega
      have whole : BufferSource.data (grasp c q).2 b =
          Envelope.header message.length false ++ message := holds.data_of_take positive ht
      obtain ⟨no_shortage, nonzero, nonnegative, short⟩ := not_fault_of_counts hres
      have small : ¬ c.result.toInt.toNat > BufferSource.entrySize (grasp c q).2 := by
        show ¬ c.result.toInt.toNat > (grasp c q).2.entrySize
        rw [size]
        omega
      unfold judge
      rw [if_neg no_shortage, if_neg nonzero, if_neg nonnegative, if_neg small]
      simp only [whole, Envelope.parse?_header short]
      cases message <;> rfl

/-! ## What is planned -/

/-- Deeds that hand nothing over and close, shut down, count as malformed and track nothing. -/
def Deed.mild : Deed → Bool
  | forget _ | tally _ _ | armAccept _ | armReceive _ | log _ | recycle _ => true
  | track _ | shutDown _ | close _ | answer _ _ | blame => false

theorem mild_access (l : EventLoop β ρ σ) (line : String) :
    ∀ deed ∈ access l line, deed.mild = true := by
  unfold access
  split <;> simp [Deed.mild]

/-- What is planned about a completion that is no receive: an accept may track a descriptor, and
everything else is mild. -/
theorem mild_plan [BufferSource ρ] (buffer : Option ReceivedBuffer) (l : EventLoop β ρ σ)
    (hr : c.tag.opcode? ≠ some .receive) :
    ∀ deed ∈ plan c buffer l, deed.mild = true ∨
      ∃ fd, deed = .track fd ∧ c.accepted? = some fd := by
  intro deed hd
  unfold plan at hd
  split at hd
  next ha =>
    rcases List.mem_append.mp hd with hd | hd
    · split at hd
      · cases hd
      next hn =>
        rw [List.mem_cons, List.mem_cons] at hd
        rcases hd with rfl | rfl | hd
        · exact Or.inr ⟨_, rfl, if_pos ⟨ha, hn⟩⟩
        · exact Or.inl rfl
        · exact Or.inl (mild_access _ _ deed hd)
    · left
      split at hd
      · cases hd
      · rw [List.mem_singleton.mp hd]
        rfl
  next h => exact absurd h hr
  next =>
    left
    rw [List.mem_cons] at hd
    rcases hd with rfl | hd
    · rfl
    · split at hd
      · cases hd
      · exact mild_access _ _ deed hd
  next => cases hd

/-- What is planned about a message for an open connection: it is handed over, or, if it is empty,
the descriptor is closed. Everything else is mild. -/
theorem Brings.planned {l : EventLoop β BufferQueue σ} {buffer : Option ReceivedBuffer}
    (h : Brings l.ring c message) (hr : c.tag.opcode? = some .receive)
    (ho : l.connections.state? c.tag.descriptor.toInt32 = some .opened)
    (hg : (grasp c l.ring).1 = .ok buffer) :
    ∃ before after, plan c buffer { l with ring := (grasp c l.ring).2 } = before ++
        (if message = [] then [] else [.answer c.tag.descriptor.toInt32 message]) ++ after ∧
      (∀ deed ∈ before, deed.mild = true) ∧
      ∀ deed ∈ after, deed.mild = true ∨ deed = .close c.tag.descriptor.toInt32 ∧ message = [] ∧
        c.bufferId? ≠ none := by
  generalize hd : c.tag.descriptor.toInt32 = fd at ho
  have row : ∃ x, l.connections.get? fd = some x ∧ x.isOpen = true := by
    obtain ⟨x, hx, hs⟩ := Option.map_eq_some_iff.mp ho
    exact ⟨x, hx, by simpa [Connection.isOpen] using hs⟩
  obtain ⟨x, hx, open_x⟩ := row
  have is_open : l.connections.isOpen fd = true := by
    rw [ConnectionTable.isOpen_eq, ho]
    rfl
  have rearms : rearming fd l.connections = [.armReceive fd] := by
    rw [rearming, if_pos is_open]
  have closes : closing fd l.connections = [.close fd] := by
    have state : x.state = .opened := by simpa [Connection.isOpen] using open_x
    rw [closing, hx, if_pos (by simp [state])]
  rcases h.judged hr hg with ⟨rfl, rfl, hm, hj⟩ | ⟨b, rfl, hi, hj⟩
  · refine ⟨[], [.armReceive fd], ?_, by simp, by simp [Deed.mild]⟩
    rw [plan_receive hr, heard, hj, hd, hm]
    simp [aftermath, rearms]
  · by_cases empty : message = []
    · rw [if_pos empty] at hj
      refine ⟨[], [.recycle b, .close fd], ?_, by simp, ?_⟩
      · rw [plan_receive hr, heard, hj, hd]
        simp [aftermath, closes, empty]
      · simp [Deed.mild, empty, hi]
    · rw [if_neg empty] at hj
      have kept : (l.connections.get? fd).filter Connection.isOpen = some x := by
        rw [hx, Option.filter_some, if_pos open_x]
      refine ⟨.tally fd message.length :: access l (messageLine fd x.peer b.id message),
        .recycle b :: if c.hasMore then [] else [.armReceive fd], ?_, ?_, ?_⟩
      · rw [plan_receive hr, heard, hj, hd, if_neg empty, if_pos rfl]
        simp [hearing, kept, aftermath, rearms, access]
      · rintro deed hd
        rcases List.mem_cons.mp hd with rfl | hd
        · rfl
        · exact mild_access _ _ deed hd
      · intro deed hd
        cases hm : c.hasMore <;> simp [hm] at hd
        · rcases hd with rfl | rfl <;> exact Or.inl rfl
        · rw [hd]
          exact Or.inl rfl

/-! ## What a dispatch does -/

/-- A connection is shut down by the one deed that is there for it. -/
theorem shuttingDown_of_foldl {ds : List Deed} {d : Descriptor} {s : Option ConnectionState}
    (hs : ∀ fd, .shutDown fd ∉ ds) (h : ds.foldl (Deed.onState d) s = some .shuttingDown) :
    s = some .shuttingDown := by
  induction ds generalizing s with
  | nil => exact h
  | cons deed ds ih =>
    have before := ih (fun fd hd => hs fd (List.mem_cons_of_mem _ hd)) h
    cases deed with
    | shutDown fd => exact absurd List.mem_cons_self (hs fd)
    | track fd =>
      simp only [Deed.onState] at before
      split at before
      · cases before
      · exact before
    | forget fd =>
      simp only [Deed.onState] at before
      split at before
      · cases before
      · exact before
    | close fd =>
      simp only [Deed.onState] at before
      split at before
      · cases s <;> cases before
      · exact before
    | tally _ _ | armAccept _ | armReceive _ | log _ | answer _ _ | recycle _ | blame =>
      exact before

/-- And so it is tracked. -/
theorem foldl_none {ds : List Deed} {d : Descriptor} (ht : .track d ∉ ds) :
    ds.foldl (Deed.onState d) none = none := by
  induction ds with
  | nil => rfl
  | cons deed ds ih =>
    have same : deed.onState d none = none := by
      cases deed with
      | track fd =>
        have ne : fd ≠ d := by
          rintro rfl
          exact ht List.mem_cons_self
        exact if_neg ne
      | forget fd | shutDown fd | close fd => exact ite_self _
      | tally _ _ | armAccept _ | armReceive _ | log _ | answer _ _ | recycle _ | blame => rfl
    rw [List.foldl_cons, same]
    exact ih fun hd => ht (List.mem_cons_of_mem _ hd)

/-- What the dispatch of a completion does for the peers: what the completion brings is handed to
the handler, its buffer goes back, no descriptor is closed except after the end of what the peer
sends, and the completion is not taken for malformed. -/
structure Serves (c : Completion) (o : Occurrence) (l m : Watched β BufferQueue σ) : Prop where
  handed : ∀ d, o.handed d = if c.answers .receive d then l.ring.payload c else []
  closes : ∀ d, (.close, d) ∈ o.pushed.filterMap (·.control?) →
    c.answers .receive d = true ∧ l.ring.payload c = [] ∧ c.bufferId? ≠ none
  ring : l.ring.Returns c.picked? m.ring
  shut : ∀ d, m.connections.state? d = some .shuttingDown →
    l.connections.state? d = some .shuttingDown
  untracked : ∀ d, l.connections.state? d = none → c.accepted? ≠ some d →
    m.connections.state? d = none
  faults : m.counters.faults = l.counters.faults

theorem control?_eq_close {deed : Deed} {d : Descriptor} (h : deed.control? = some (.close, d)) :
    deed = .close d := by
  cases deed <;> cases h
  rfl

/-- The dispatch did what was planned, and that is good for the peers. -/
theorem Done.serves [Backend β] {ds : List Deed} {ps : List Submission} {cs : List Call}
    {l k m : Watched β BufferQueue σ} (done : Done ds ps cs k m)
    (hk : k = { l with ring := k.ring })
    (handed : ∀ d, (messages d (ds.filterMap Deed.call?)).flatten =
      if c.answers .receive d then l.ring.payload c else [])
    (closes : ∀ d, .close d ∈ ds →
      c.answers .receive d = true ∧ l.ring.payload c = [] ∧ c.bufferId? ≠ none)
    (ring : l.ring.Returns c.picked? (ds.foldl Deed.onRing k.ring))
    (shut : ∀ fd, .shutDown fd ∉ ds) (tracks : ∀ fd, .track fd ∈ ds → c.accepted? = some fd)
    (blameless : .blame ∉ ds) : Serves c ⟨some c, l.peerOf, ps, cs⟩ l m := by
  have table : k.connections = l.connections := by rw [hk]
  have after : ∀ d, m.connections.state? d =
      ds.foldl (Deed.onState d) (l.connections.state? d) := by
    intro d
    rw [done.performs.connections, state?_foldl, table]
  refine ⟨fun d => ?_, fun d hd => ?_, ?_, fun d hd => ?_, fun d hd hc => ?_, ?_⟩
  · rw [← handed d, ← done.calls]
    rfl
  · simp only [done.controls] at hd
    obtain ⟨deed, member, e⟩ := List.mem_filterMap.mp hd
    rw [control?_eq_close e] at member
    exact closes d member
  · rw [done.performs.ring]
    exact ring
  · rw [after] at hd
    exact shuttingDown_of_foldl shut hd
  · rw [after, hd]
    exact foldl_none fun member => hc (tracks d member)
  · rw [done.performs.faults blameless, hk]

theorem call?_of_mild {ds : List Deed} (h : ∀ deed ∈ ds, deed.mild = true ∨ deed.call? = none) :
    ds.filterMap Deed.call? = [] := by
  rw [List.filterMap_eq_nil_iff]
  intro deed hd
  rcases h deed hd with mild | e
  · cases deed <;> first | rfl | cases mild
  · exact e

variable [Backend β] {h : List Occurrence} {l m : Watched β BufferQueue σ}

/-- A completion that is no receive hands nothing over. -/
theorem Done.serves_other {buffer : Option ReceivedBuffer} {ps : List Submission} {cs : List Call}
    (hr : c.tag.opcode? ≠ some .receive)
    (done : Done (plan c buffer { l with ring := (grasp c l.ring).2 }) ps cs
      { l with ring := (grasp c l.ring).2 } m) : Serves c ⟨some c, l.peerOf, ps, cs⟩ l m := by
  have untaken : (grasp c l.ring).2 = l.ring := by
    unfold grasp
    rw [if_neg hr]
  have mild := mild_plan buffer { l with ring := (grasp c l.ring).2 } hr
  -- A deed of no mild kind is the tracking of what was accepted.
  have only : ∀ deed ∈ plan c buffer { l with ring := (grasp c l.ring).2 }, deed.mild = false →
      ∃ fd, deed = .track fd ∧ c.accepted? = some fd := by
    intro deed hd hm
    rcases mild deed hd with e | tracked
    · rw [hm] at e
      cases e
    · exact tracked
  refine done.serves rfl (fun d => ?_) (fun d hd => ?_) ?_ (fun fd hd => ?_) (fun fd hd => ?_)
    fun hd => ?_
  · rw [call?_of_mild, answers_eq_false hr]
    · rfl
    · intro deed hd
      rcases mild deed hd with e | ⟨fd, rfl, -⟩
      · exact Or.inl e
      · exact Or.inr rfl
  · obtain ⟨fd, e, -⟩ := only _ hd rfl
    cases e
  · rw [onRing_plan, if_neg hr]
    show l.ring.Returns c.picked? (grasp c l.ring).2
    rw [untaken, Completion.picked?, if_neg hr]
    exact .refl _
  · obtain ⟨fd, e, -⟩ := only _ hd rfl
    cases e
  · obtain ⟨fd', e, accepted⟩ := only _ hd rfl
    cases e
    exact accepted
  · obtain ⟨fd, e, -⟩ := only _ hd rfl
    cases e

omit [Backend β] in
/-- The buffer of a receive goes back. -/
theorem returns_plan {buffer : Option ReceivedBuffer} (hr : c.tag.opcode? = some .receive)
    (hg : (grasp c l.ring).1 = .ok buffer) : l.ring.Returns c.picked?
      ((plan c buffer { l with ring := (grasp c l.ring).2 }).foldl Deed.onRing
        (grasp c l.ring).2) := by
  rw [onRing_plan, if_pos hr, Completion.picked?, if_pos hr]
  cases buffer with
  | none =>
    unfold grasp at hg ⊢
    rw [if_pos hr] at hg ⊢
    rcases hi : c.bufferId? with _ | id
    · exact .refl _
    · rw [hi] at hg
      simp only [] at hg
      rcases ht : BufferSource.take id c.result.toInt.toNat l.ring with ⟨e | b, s⟩ <;>
        rw [ht] at hg <;> cases hg
  | some b =>
    obtain ⟨id, hi, ht⟩ := grasp_some hg
    obtain ⟨-, -, -, -, back⟩ := BufferQueue.of_take ht
    rw [hi]
    exact back

/-- The message of an open connection is handed over. -/
theorem Done.serves_receive {buffer : Option ReceivedBuffer} {ps : List Submission}
    {cs : List Call} (hb : Brings l.ring c message) (hr : c.tag.opcode? = some .receive)
    (ho : l.connections.state? c.tag.descriptor.toInt32 = some .opened)
    (hg : (grasp c l.ring).1 = .ok buffer)
    (done : Done (plan c buffer { l with ring := (grasp c l.ring).2 }) ps cs
      { l with ring := (grasp c l.ring).2 } m) : Serves c ⟨some c, l.peerOf, ps, cs⟩ l m := by
  obtain ⟨before, after, e, mild, mild'⟩ := hb.planned hr ho hg
  have ring := returns_plan hr hg
  have answered : ∀ d, c.answers .receive d = decide (c.tag.descriptor.toInt32 = d) := by
    intro d
    simp [Completion.answers, hr]
  rw [e] at done ring
  -- A deed of no mild kind answers the message or closes the descriptor.
  have only : ∀ deed ∈ before ++ (if message = [] then [] else
      [.answer c.tag.descriptor.toInt32 message]) ++ after, deed.mild = false →
      deed = .answer c.tag.descriptor.toInt32 message ∨
        deed = .close c.tag.descriptor.toInt32 ∧ message = [] ∧ c.bufferId? ≠ none := by
    intro deed hd hm
    rw [List.mem_append, List.mem_append] at hd
    rcases hd with (hd | hd) | hd
    · rw [mild deed hd] at hm
      cases hm
    · split at hd
      · cases hd
      · exact Or.inl (List.mem_singleton.mp hd)
    · rcases mild' deed hd with e | closed
      · rw [e] at hm
        cases hm
      · exact Or.inr closed
  refine done.serves rfl (fun d => ?_) (fun d hd => ?_) ring (fun fd hd => ?_) (fun fd hd => ?_)
    fun hd => ?_
  · have first : before.filterMap Deed.call? = [] :=
      call?_of_mild fun deed hd => Or.inl (mild deed hd)
    have last : after.filterMap Deed.call? = [] := by
      refine call?_of_mild fun deed hd => (mild' deed hd).imp_right ?_
      rintro ⟨rfl, -, -⟩
      rfl
    rw [List.filterMap_append, List.filterMap_append, first, last, answered, hb.payload_eq]
    by_cases empty : message = []
    · simp [empty]
    · by_cases hd : c.tag.descriptor.toInt32 = d <;> simp [empty, Deed.call?, messages, hd]
  · rcases only _ hd rfl with e | ⟨e, empty, named⟩
    · cases e
    · cases e
      exact ⟨by simp [answered], hb.payload_eq.trans empty, named⟩
  · rcases only _ hd rfl with e | ⟨e, -, -⟩ <;> cases e
  · rcases only _ hd rfl with e | ⟨e, -, -⟩ <;> cases e
  · rcases only _ hd rfl with e | ⟨e, -, -⟩ <;> cases e

/-- The completion of a fixed write is not counted. -/
theorem counters_written (hw : c.tag.opcode? = some .writeFixed) (l : EventLoop β BufferQueue σ) :
    (exec (dispatch c) l).2.counters = l.counters := by
  by_cases hd : c.tag.descriptor.toNat ≤ FreeList.maxSlots
  · obtain ⟨events, e⟩ := exec_dispatch_release (l := l) hw hd
    rw [e]
    rcases l.pool.release c.tag.descriptor.toUInt16 with f | pool <;> rfl
  · rw [exec_dispatch_writeFixed_of_lt hw (Nat.lt_of_not_le hd)]

variable {n : Nat} {x : Except Fault Unit}

/-- What a proper completion leads to, if one of a receive is for an open connection. -/
theorem Streaming.dispatch_serves (hs : Streaming h l) (hl : Recording l) (ho : Owned n h l)
    (hg : Genuine h) (hc : Proper h l c) (hb : c.tag.opcode? = some .receive →
      l.connections.state? c.tag.descriptor.toInt32 = some .opened ∧ ∃ message,
        Brings l.ring c message)
    (accepted : m.backend.refusals = l.backend.refusals)
    (he : exec (EventLoop.dispatch c) l = (x, m)) :
    x = .ok () ∧ ∃ ps cs, Adds ps cs l m ∧ Streaming (h ++ [⟨some c, l.peerOf, ps, cs⟩]) m ∧
      Serves c ⟨some c, l.peerOf, ps, cs⟩ l m := by
  by_cases hw : c.tag.opcode? = some .writeFixed
  · obtain ⟨ok, ⟨pool, aside⟩, streaming⟩ := hs.released ho (hc.written hw) hg hw he
    have other : c.tag.opcode? ≠ some .receive := by simp [hw]
    have table : m.connections = l.connections := by rw [aside]
    have ring : m.ring = l.ring := by rw [aside]
    have counters : m.counters = l.counters := by
      have kept := counters_written hw l
      rwa [he] at kept
    refine ⟨ok, [], [], (Adds.of_idle aside.idle).of_eq rfl rfl rfl, streaming, ?_⟩
    refine ⟨fun d => ?_, fun d hd => ?_, ?_, fun d => ?_, fun d hd _ => ?_, congrArg _ counters⟩
    · rw [answers_eq_false other]
      rfl
    · cases hd
    · rw [ring, Completion.picked?, if_neg other]
      exact .refl _
    · rw [table]
      exact id
    · rw [table]
      exact hd
  · obtain ⟨ok, buffer, ps, cs, hg, done, -, streaming⟩ := hs.dispatch hl ho.lends hc hw accepted he
    refine ⟨ok, ps, cs, done.added.of_eq rfl rfl rfl, streaming, ?_⟩
    by_cases hr : c.tag.opcode? = some .receive
    · obtain ⟨opened, message, brings⟩ := hb hr
      exact done.serves_receive brings hr opened hg
    · exact done.serves_other hr

end EventLoop

end RingServer
