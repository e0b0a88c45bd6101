import Mathlib.Logic.Function.Basic
import RingServer.Proofs.Loop.Delivery

/-!
Sockets, and where the bytes are that peers have sent. `Posts` says what a kernel has posted that
keeps to the submissions of the loop and to its own buffers: the first of it is proper to dispatch
(`Posts.proper`), and the rest is left in order by that dispatch (`Posts.dispatched`). On top of it
`Flows` says that the bytes of every peer are with the handler, in the buffers of posted
completions or in the queue of its socket, one after the other. Dispatches keep to this
(`Flows.dispatched`), and so does what the kernel posts and what the peers send.
-/

namespace RingServer

open Text (Bytes)
open Envelope (headerSize)

/-- A connection on the kernel's side. -/
structure Socket where
  /-- All that the peer has sent. -/
  sent : Bytes
  /-- What of it has not been received into a buffer. -/
  queue : Bytes
  /-- The peer sends no more. -/
  finished : Bool
  /-- The length of the history when the connection was accepted. -/
  since : Nat

namespace EventLoop

variable {β σ : Type}

/-- The bytes from a descriptor that were handed to the handler after the first steps. -/
def handed (d : Descriptor) (since : Nat) (h : List Occurrence) : Bytes :=
  (h.drop since).flatMap (·.handed d)

/-- The bytes in buffers whose completions have not been dispatched. -/
def undispatched (q : BufferQueue) (d : Descriptor) (posted : List Completion) : Bytes :=
  (posted.filter (·.answers .receive d)).flatMap q.payload

/-! ## Completions that are posted -/

/-- What a kernel has posted that keeps to the loop's submissions and its own buffers. -/
structure Posts (h : List Occurrence) (posted : List Completion) (l : Watched β BufferQueue σ) :
    Prop where
  streaming : Streaming h l
  genuine : Genuine h
  /-- No buffer waits that is in use, and none is used twice. -/
  buffers : (l.ring.waiting ++ posted.filterMap (·.picked?)).Nodup
  within : ∀ id ∈ l.ring.waiting, id.toNat < l.ring.ledger.entries
  roomy : headerSize ≤ l.ring.entrySize
  brings : ∀ c ∈ posted, c.tag.opcode? = some .receive → Brings l.ring c (l.ring.payload c)
  live : ∀ c ∈ posted, c.tag.opcode? = some .receive →
    0 < armed .receive c.tag.descriptor.toInt32 h
  /-- An empty message ends its stream. -/
  ends : ∀ c ∈ posted, c.tag.opcode? = some .receive → l.ring.payload c = [] → c.hasMore = false
  /-- A stream posts nothing after its end. -/
  last : posted.Pairwise fun c c' => ∀ d, c.answers .receive d = true →
    c'.answers .receive d = true → c.hasMore = true
  accepted : (posted.filterMap (·.accepted?)).Nodup
  untracked : ∀ d ∈ posted.filterMap (·.accepted?), l.connections.state? d = none
  closes : ∀ d, h.countP (·.closes d) + posted.countP (·.answers .close d) ≤ closings d h
  slots : ∀ c ∈ posted, c.tag.opcode? = some .writeFixed → ∃ i : UInt16,
    c.tag.descriptor = i.toUInt32
  writes : ∀ i, completions i h + posted.countP (·.ends i) ≤ pushes i h
  unshut : ∀ d, l.connections.state? d ≠ some .shuttingDown

variable {h : List Occurrence} {posted : List Completion} {l m : Watched β BufferQueue σ}
  {c : Completion} {o : Occurrence}

theorem picked?_eq_none (hr : c.tag.opcode? ≠ some .receive) : c.picked? = none := if_neg hr

theorem picks_of_ne_receive (hr : c.tag.opcode? ≠ some .receive) (q : BufferQueue) :
    q.Picks c.picked? q := by
  rw [picked?_eq_none hr]
  exact .refl q

theorem filterMap_picked?_cons (c : Completion) (posted : List Completion) :
    (c :: posted).filterMap (·.picked?) = c.picked?.toList ++ posted.filterMap (·.picked?) := by
  rw [List.filterMap_cons]
  cases c.picked? <;> rfl

/-- A connection that a receive is posted for is open. -/
theorem Posts.opened (hp : Posts h posted l) (hc : c ∈ posted)
    (hr : c.tag.opcode? = some .receive) :
    l.connections.state? c.tag.descriptor.toInt32 = some .opened := by
  have armed := hp.live c hc hr
  rw [hp.streaming.receive] at armed
  obtain ⟨x, hx, ne⟩ := state?_of_streams armed
  have unshut := hp.unshut c.tag.descriptor.toInt32
  rw [hx] at unshut ⊢
  cases x with
  | opened => rfl
  | shuttingDown => exact absurd rfl unshut
  | closing => exact absurd rfl ne

/-- What comes first of what is posted is proper. -/
theorem Posts.proper (hp : Posts h (c :: posted) l) : Proper h l c where
  receive := hp.live c List.mem_cons_self
  unended := by
    intro hr more
    have brings := hp.brings c List.mem_cons_self hr
    have nonempty : l.ring.payload c ≠ [] := by
      intro e
      rw [hp.ends c List.mem_cons_self hr e] at more
      cases more
    generalize l.ring.payload c = message at brings nonempty
    cases brings with
    | starved => exact absurd rfl nonempty
    | @message id _ hi hid holds hres =>
      obtain ⟨-, nonzero, -, short⟩ := not_fault_of_counts hres
      refine ⟨nonzero, fun id' b r e hi' ht hparse => ?_⟩
      cases hi.symm.trans hi'
      have read : BufferSource.data r b = _ := holds.data_of_take (by omega) ht
      rw [read, Envelope.parse?_header short] at hparse
      cases hparse
      exact nonempty
  buffer := by
    intro hr id hi
    have brings := hp.brings c List.mem_cons_self hr
    generalize l.ring.payload c = message at brings
    cases brings with
    | starved hn => rw [hn] at hi; cases hi
    | message hi' hid =>
      cases hi'.symm.trans hi
      exact hid
  untracked := by
    intro ha hn
    have accepted : c.accepted? = some c.result := if_pos ⟨ha, hn⟩
    have none := hp.untracked c.result (List.mem_filterMap.mpr ⟨c, List.mem_cons_self, accepted⟩)
    exact Option.map_eq_none_iff.mp none
  close := by
    intro hc
    have counted := hp.closes c.tag.descriptor.toInt32
    have one : 0 < (c :: posted).countP (·.answers .close c.tag.descriptor.toInt32) :=
      List.countP_pos_iff.mpr ⟨c, List.mem_cons_self, answers_iff.mpr ⟨hc, rfl⟩⟩
    omega
  written := by
    intro hw
    obtain ⟨i, hi⟩ := hp.slots c List.mem_cons_self hw
    have counted := hp.writes i
    have one : 0 < (c :: posted).countP (·.ends i) :=
      List.countP_pos_iff.mpr ⟨c, List.mem_cons_self, by simp [Completion.ends, hw, hi]⟩
    exact ⟨i, hi, by omega⟩

/-- The buffers of other completions stay as they are. -/
theorem Brings.returns {q r : BufferQueue} {id : Option UInt16} {message : Bytes}
    (hb : Brings q c message) (hr : q.Returns id r) : Brings r c message :=
  hb.of_holds hr.entries fun _ _ _ holds => holds.of_eq hr.memory hr.entrySize

theorem Posts.payload_eq {id : Option UInt16} {r : BufferQueue} (hp : Posts h posted l)
    (hr : l.ring.Returns id r) (hc : c ∈ posted) (ho : c.tag.opcode? = some .receive) :
    r.payload c = l.ring.payload c :=
  ((hp.brings c hc ho).returns hr).payload_eq

theorem filterMap_accepted?_cons (c : Completion) (posted : List Completion) :
    (c :: posted).filterMap (·.accepted?) =
      c.accepted?.toList ++ posted.filterMap (·.accepted?) := by
  rw [List.filterMap_cons]
  cases c.accepted? <;> rfl

/-- A stream that has something posted behind the completion that is dispatched stays armed. -/
theorem Posts.still_live (hp : Posts h (c :: posted) l) (ho : o.completion = some c)
    {c' : Completion} (hc : c' ∈ posted) (hr : c'.tag.opcode? = some .receive) :
    0 < armed .receive c'.tag.descriptor.toInt32 (h ++ [o]) := by
  have before := hp.live c' (List.mem_cons_of_mem _ hc) hr
  have unended : (c.answers .receive c'.tag.descriptor.toInt32 && !c.hasMore) = false := by
    rw [Bool.eq_false_iff]
    intro ended
    rw [Bool.and_eq_true] at ended
    have more := (List.pairwise_cons.mp hp.last).1 c' hc _ ended.1 (answers_iff.mpr ⟨hr, rfl⟩)
    rw [more] at ended
    exact absurd ended.2 (by simp)
  rw [armed_append, ho, Option.any_some, unended]
  simp only [Bool.false_eq_true, if_false]
  omega

/-- What is left after the dispatch of the first completion. -/
theorem Posts.dispatched (hp : Posts h (c :: posted) l) (hs : Streaming (h ++ [o]) m)
    (ho : o.completion = some c) (serves : Serves c o l m) : Posts (h ++ [o]) posted m where
  streaming := hs
  genuine := by
    refine hp.genuine.append fun c' hc' hw => ?_
    rw [ho] at hc'
    cases hc'
    exact hp.proper.written hw
  buffers := by
    have nodup := hp.buffers
    rwa [filterMap_picked?_cons, ← List.append_assoc, ← serves.ring.waiting] at nodup
  within := by
    intro id hid
    rw [serves.ring.waiting, List.mem_append] at hid
    rw [serves.ring.entries]
    rcases hid with hid | hid
    · exact hp.within id hid
    · by_cases hr : c.tag.opcode? = some .receive
      · have named := Option.mem_toList.mp hid
        rw [Completion.picked?, if_pos hr] at named
        exact hp.proper.buffer hr id named
      · rw [picked?_eq_none hr] at hid
        cases hid
  roomy := by
    rw [serves.ring.entrySize]
    exact hp.roomy
  brings := by
    intro c' hc' hr
    have member := List.mem_cons_of_mem c hc'
    rw [hp.payload_eq serves.ring member hr]
    exact (hp.brings c' member hr).returns serves.ring
  live := fun c' hc' hr => hp.still_live ho hc' hr
  ends := by
    intro c' hc' hr empty
    have member := List.mem_cons_of_mem c hc'
    rw [hp.payload_eq serves.ring member hr] at empty
    exact hp.ends c' member hr empty
  last := (List.pairwise_cons.mp hp.last).2
  accepted := by
    have nodup := hp.accepted
    rw [filterMap_accepted?_cons] at nodup
    exact nodup.of_append_right
  untracked := by
    intro d hd
    have nodup := hp.accepted
    rw [filterMap_accepted?_cons] at nodup
    refine serves.untracked d (hp.untracked d ?_) fun e => ?_
    · rw [filterMap_accepted?_cons]
      exact List.mem_append_right _ hd
    · exact List.disjoint_of_nodup_append nodup (Option.mem_toList.mpr e) hd
  closes := by
    intro d
    have counted := hp.closes d
    have closed : o.closes d = c.answers .close d := by rw [Occurrence.closes, ho]; rfl
    rw [closings_append, List.countP_append, List.countP_singleton, closed]
    rw [List.countP_cons] at counted
    omega
  slots := fun c' hc' => hp.slots c' (List.mem_cons_of_mem c hc')
  writes := by
    intro i
    have counted := hp.writes i
    rw [completions_append, pushes_append, ho, Option.any_some]
    rw [List.countP_cons] at counted
    omega
  unshut := fun d hd => hp.unshut d (serves.shut d hd)

/-! ## Sockets -/

/-- What the peers have sent is where it should be: with the handler, in a buffer that waits for
its dispatch, or in the queue of the socket, in this order. -/
structure Flows (sockets : Descriptor → Option Socket) (h : List Occurrence)
    (posted : List Completion) (l : Watched β BufferQueue σ) : Prop
    extends Posts h posted l where
  faults : l.counters.faults = 0
  since : ∀ d s, sockets d = some s → s.since ≤ h.length
  served : ∀ c ∈ posted, c.tag.opcode? = some .receive →
    ∃ s, sockets c.tag.descriptor.toInt32 = some s ∧
      (l.ring.payload c = [] → c.bufferId? ≠ none → s.finished = true ∧ s.queue = [])
  whole : ∀ d s, sockets d = some s →
    handed d s.since h ++ undispatched l.ring d posted ++ s.queue = s.sent
  closed : ∀ d s a o b, sockets d = some s → h = a ++ o :: b → s.since ≤ a.length →
    (.close, d) ∈ o.pushed.filterMap (·.control?) →
    s.finished = true ∧ handed d s.since (a ++ [o]) = s.sent

variable {sockets : Descriptor → Option Socket}

theorem handed_append {since : Nat} (hs : since ≤ h.length) (d : Descriptor) (o : Occurrence) :
    handed d since (h ++ [o]) = handed d since h ++ o.handed d := by
  rw [handed, List.drop_append_of_le_length hs, List.flatMap_append]
  simp [handed]

theorem undispatched_cons (q : BufferQueue) (d : Descriptor) (c : Completion)
    (posted : List Completion) : undispatched q d (c :: posted) =
      (if c.answers .receive d then q.payload c else []) ++ undispatched q d posted := by
  rw [undispatched, List.filter_cons]
  split <;> simp [undispatched]

theorem undispatched_congr {q r : BufferQueue} (d : Descriptor)
    (h : ∀ c ∈ posted, c.tag.opcode? = some .receive → r.payload c = q.payload c) :
    undispatched r d posted = undispatched q d posted := by
  unfold undispatched
  refine List.flatMap_congr fun c hc => ?_
  rw [List.mem_filter, answers_iff] at hc
  exact h c hc.1 hc.2.1

/-- Nothing is posted behind the end of a stream. -/
theorem Posts.undispatched_of_ended (hp : Posts h (c :: posted) l) {d : Descriptor}
    (hd : c.answers .receive d = true) (hm : c.hasMore = false) :
    undispatched l.ring d posted = [] := by
  have unanswered : posted.filter (·.answers .receive d) = [] := by
    rw [List.filter_eq_nil_iff]
    intro c' hc' hd'
    rw [(List.pairwise_cons.mp hp.last).1 c' hc' d hd hd'] at hm
    cases hm
  rw [undispatched, unanswered]
  rfl

theorem Flows.dispatched (hf : Flows sockets h (c :: posted) l) (hs : Streaming (h ++ [o]) m)
    (ho : o.completion = some c) (serves : Serves c o l m) : Flows sockets (h ++ [o]) posted m := by
  have payloads : ∀ d, undispatched m.ring d posted = undispatched l.ring d posted := fun d =>
    undispatched_congr d fun c' hc' hr =>
      hf.payload_eq serves.ring (List.mem_cons_of_mem c hc') hr
  have whole : ∀ d s, sockets d = some s →
      handed d s.since (h ++ [o]) ++ undispatched l.ring d posted ++ s.queue = s.sent := by
    intro d s hd
    have before := hf.whole d s hd
    rw [undispatched_cons, ← serves.handed d, ← List.append_assoc] at before
    rwa [handed_append (hf.since d s hd)]
  refine ⟨hf.toPosts.dispatched hs ho serves, serves.faults.trans hf.faults, fun d s hd => ?_,
    fun c' hc' hr => ?_, fun d s hd => ?_, fun d s a o' b hd e hsince hclose => ?_⟩
  · have before := hf.since d s hd
    rw [List.length_append]
    omega
  · have member := List.mem_cons_of_mem c hc'
    obtain ⟨s, hd, ended⟩ := hf.served c' member hr
    rw [hf.payload_eq serves.ring member hr]
    exact ⟨s, hd, ended⟩
  · rw [payloads]
    exact whole d s hd
  · rcases append_singleton_eq e with ⟨rfl, rfl, rfl⟩ | ⟨b', -, rfl⟩
    · -- The descriptor is closed by this very dispatch: the peer has ended, and nothing is left.
      obtain ⟨answered, empty, named⟩ := serves.closes d hclose
      obtain ⟨hr, hdesc⟩ := answers_iff.mp answered
      obtain ⟨s', hs', ended⟩ := hf.served c List.mem_cons_self hr
      rw [hdesc, hd] at hs'
      cases hs'
      obtain ⟨finished, queue⟩ := ended empty named
      have arrived := whole d s hd
      rw [hf.undispatched_of_ended answered (hf.ends c List.mem_cons_self hr empty), queue,
        List.append_nil, List.append_nil] at arrived
      exact ⟨finished, arrived⟩
    · exact hf.closed d s a o' b' hd rfl hsince hclose

/-! ## Posting -/

/-- The buffer that is picked is in no other completion, so the others bring what they did. -/
theorem Posts.brings_of_picks {id : Option UInt16} {r : BufferQueue} (hp : Posts h posted l)
    (ring : l.ring.Picks id r) (hc : c ∈ posted) (hr : c.tag.opcode? = some .receive) :
    Brings r c (l.ring.payload c) := by
  have entries : r.ledger.entries = l.ring.ledger.entries := by rw [ring.ledger]
  refine (hp.brings c hc hr).of_holds entries fun other named => ring.holds other ?_
  rintro rfl
  have waits : other ∈ l.ring.waiting := by
    rw [ring.waiting]
    exact List.mem_append_left _ (List.mem_singleton_self other)
  have used : other ∈ posted.filterMap (·.picked?) :=
    List.mem_filterMap.mpr ⟨c, hc, by rw [Completion.picked?, if_pos hr, named]⟩
  exact List.disjoint_of_nodup_append hp.buffers waits used

theorem Posts.undispatched_of_picks {id : Option UInt16} {r : BufferQueue} (hp : Posts h posted l)
    (ring : l.ring.Picks id r) (d : Descriptor) :
    undispatched r d posted = undispatched l.ring d posted :=
  undispatched_congr d fun _ hc hr => (hp.brings_of_picks ring hc hr).payload_eq

theorem Posts.nodup_of_picks {r : BufferQueue} (hp : Posts h posted l)
    (ring : l.ring.Picks c.picked? r) :
    (r.waiting ++ (posted ++ [c]).filterMap (·.picked?)).Nodup := by
  have nodup := hp.buffers
  rw [ring.waiting] at nodup
  have one : [c].filterMap (·.picked?) = c.picked?.toList := by
    cases e : c.picked? <;> simp [e]
  rw [List.filterMap_append, one, ← List.append_assoc]
  refine List.perm_append_comm.nodup_iff.mp ?_
  rwa [← List.append_assoc]

/-- What the kernel has to keep to when it posts one more completion. -/
theorem Posts.post (hp : Posts h posted l) (hi : Idle l m) (ring : l.ring.Picks c.picked? m.ring)
    (receive : c.tag.opcode? = some .receive → Brings m.ring c (m.ring.payload c) ∧
      0 < armed .receive c.tag.descriptor.toInt32 h ∧
      (m.ring.payload c = [] → c.hasMore = false) ∧
      ∀ c' ∈ posted, c'.answers .receive c.tag.descriptor.toInt32 = true → c'.hasMore = true)
    (accept : ∀ d, c.accepted? = some d → d ∉ posted.filterMap (·.accepted?) ∧
      l.connections.state? d = none)
    (close : ∀ d, c.answers .close d = true →
      h.countP (·.closes d) + posted.countP (·.answers .close d) < closings d h)
    (written : c.tag.opcode? = some .writeFixed → ∃ i : UInt16, c.tag.descriptor = i.toUInt32 ∧
      completions i h + posted.countP (·.ends i) < pushes i h) : Posts h (posted ++ [c]) m where
  streaming := by
    refine hp.streaming.idle hi ?_
    rw [BufferQueue.atRest_iff, ring.ledger]
    exact BufferQueue.atRest_iff.mp hp.streaming.atRest
  genuine := hp.genuine
  buffers := hp.nodup_of_picks ring
  within := by
    intro id hid
    rw [ring.ledger]
    refine hp.within id ?_
    rw [ring.waiting]
    exact List.mem_append_right _ hid
  roomy := by
    rw [ring.entrySize]
    exact hp.roomy
  brings := by
    refine List.forall_mem_append.mpr ⟨fun c' hc' hr => ?_,
      List.forall_mem_singleton.mpr fun hr => (receive hr).1⟩
    have brings := hp.brings_of_picks ring hc' hr
    rwa [brings.payload_eq]
  live := List.forall_mem_append.mpr
    ⟨hp.live, List.forall_mem_singleton.mpr fun hr => (receive hr).2.1⟩
  ends := by
    refine List.forall_mem_append.mpr ⟨fun c' hc' hr empty => ?_,
      List.forall_mem_singleton.mpr fun hr => (receive hr).2.2.1⟩
    rw [(hp.brings_of_picks ring hc' hr).payload_eq] at empty
    exact hp.ends c' hc' hr empty
  last := by
    refine List.pairwise_append.mpr ⟨hp.last, List.pairwise_singleton _ _, ?_⟩
    intro c' hc' c'' hc'' d hd hd''
    cases List.mem_singleton.mp hc''
    obtain ⟨hr, rfl⟩ := answers_iff.mp hd''
    exact (receive hr).2.2.2 c' hc' hd
  accepted := by
    rw [List.filterMap_append]
    refine hp.accepted.append ?_ fun d hd hd' => ?_
    · cases e : c.accepted? <;> simp [e]
    · obtain ⟨c', hc', e⟩ := List.mem_filterMap.mp hd'
      cases List.mem_singleton.mp hc'
      exact (accept d e).1 hd
  untracked := by
    intro d hd
    rw [hi.connections]
    rw [List.filterMap_append, List.mem_append] at hd
    rcases hd with hd | hd
    · exact hp.untracked d hd
    · obtain ⟨c', hc', e⟩ := List.mem_filterMap.mp hd
      cases List.mem_singleton.mp hc'
      exact (accept d e).2
  closes := by
    intro d
    have counted := hp.closes d
    rw [List.countP_append, List.countP_singleton]
    split
    next answered =>
      have fewer := close d answered
      omega
    next => omega
  slots := by
    refine List.forall_mem_append.mpr ⟨hp.slots, List.forall_mem_singleton.mpr fun hw => ?_⟩
    obtain ⟨i, hi, -⟩ := written hw
    exact ⟨i, hi⟩
  writes := by
    intro i
    have counted := hp.writes i
    rw [List.countP_append, List.countP_singleton]
    split
    next ended =>
      rw [Completion.ends, decide_eq_true_eq] at ended
      obtain ⟨j, hj, fewer⟩ := written ended.1
      have same : i = j := UInt16.toUInt32_inj.mp (ended.2.symm.trans hj)
      rw [same] at counted ⊢
      omega
    next => omega
  unshut := by
    rw [hi.connections]
    exact hp.unshut

theorem undispatched_append (q : BufferQueue) (d : Descriptor) (posted : List Completion)
    (c : Completion) : undispatched q d (posted ++ [c]) =
      undispatched q d posted ++ if c.answers .receive d then q.payload c else [] := by
  rw [undispatched, List.filter_append, List.flatMap_append]
  congr 1
  rw [List.filter_cons, List.filter_nil]
  split <;> simp

/-- A completion that is no receive concerns no socket. -/
theorem Flows.post_other (hf : Flows sockets h posted l) (hp : Posts h (posted ++ [c]) m)
    (ring : m.ring = l.ring) (faults : m.counters.faults = l.counters.faults)
    (hr : c.tag.opcode? ≠ some .receive) : Flows sockets h (posted ++ [c]) m := by
  refine ⟨hp, faults.trans hf.faults, hf.since, fun c' hc' hr' => ?_, fun d s hd => ?_, hf.closed⟩
  · rw [ring]
    rcases List.mem_append.mp hc' with hc' | hc'
    · exact hf.served c' hc' hr'
    · cases List.mem_singleton.mp hc'
      exact absurd hr' hr
  · rw [ring, undispatched_append, answers_eq_false hr]
    simpa using hf.whole d s hd

/-- The bytes that a receive brings have left the queue. -/
theorem Flows.post_receive {s : Socket} {rest : Bytes} (hf : Flows sockets h posted l)
    (hp : Posts h (posted ++ [c]) m) (ring : l.ring.Picks c.picked? m.ring)
    (faults : m.counters.faults = l.counters.faults)
    (hs : sockets c.tag.descriptor.toInt32 = some s) (hr : c.tag.opcode? = some .receive)
    (queue : s.queue = m.ring.payload c ++ rest)
    (ended : m.ring.payload c = [] → c.bufferId? ≠ none → s.finished = true ∧ rest = []) :
    Flows (Function.update sockets c.tag.descriptor.toInt32 (some { s with queue := rest })) h
      (posted ++ [c]) m := by
  generalize hd : c.tag.descriptor.toInt32 = d at hs
  -- Of the sockets only the queue of one is different.
  have socket : ∀ d' s', Function.update sockets d (some { s with queue := rest }) d' = some s' →
      (d' = d ∧ s' = { s with queue := rest }) ∨ (d' ≠ d ∧ sockets d' = some s') := by
    intro d' s' hs'
    by_cases e : d' = d
    · subst e
      rw [Function.update_self] at hs'
      cases hs'
      exact Or.inl ⟨rfl, rfl⟩
    · rw [Function.update_of_ne e] at hs'
      exact Or.inr ⟨e, hs'⟩
  have answered : ∀ d', c.answers .receive d' = decide (d = d') := by
    intro d'
    simp [Completion.answers, hr, hd]
  refine ⟨hp, faults.trans hf.faults, fun d' s' hs' => ?_, fun c' hc' hr' => ?_,
    fun d' s' hs' => ?_, fun d' s' a o b hs' e since closes => ?_⟩
  · rcases socket d' s' hs' with ⟨rfl, rfl⟩ | ⟨-, hs'⟩
    · exact hf.since d' s hs
    · exact hf.since d' s' hs'
  · rcases List.mem_append.mp hc' with hc' | hc'
    · obtain ⟨s', hs', done⟩ := hf.served c' hc' hr'
      rw [(hf.brings_of_picks ring hc' hr').payload_eq]
      by_cases e : c'.tag.descriptor.toInt32 = d
      · rw [e, hs] at hs'
        cases hs'
        refine ⟨{ s with queue := rest }, by rw [e, Function.update_self], fun empty named => ?_⟩
        obtain ⟨finished, nothing⟩ := done empty named
        rw [nothing] at queue
        exact ⟨finished, (List.append_eq_nil_iff.mp queue.symm).2⟩
      · exact ⟨s', by rw [Function.update_of_ne e, hs'], done⟩
    · cases List.mem_singleton.mp hc'
      exact ⟨{ s with queue := rest }, by rw [hd, Function.update_self], ended⟩
  · rw [undispatched_append, hf.undispatched_of_picks ring, answered]
    rcases socket d' s' hs' with ⟨rfl, rfl⟩ | ⟨ne, hs'⟩
    · have before := hf.whole d' s hs
      rw [queue] at before
      simpa using before
    · have before := hf.whole d' s' hs'
      simpa [Ne.symm ne] using before
  · rcases socket d' s' hs' with ⟨rfl, rfl⟩ | ⟨-, hs'⟩
    · exact hf.closed d' s a o b hs e since closes
    · exact hf.closed d' s' a o b hs' e since closes

/-- A connection on a descriptor that is not in use: nothing of it has been sent or posted. -/
theorem Flows.connect {d : Descriptor} (hf : Flows sockets h posted l)
    (hp : Posts h (posted ++ [c]) m) (ring : m.ring = l.ring)
    (faults : m.counters.faults = l.counters.faults) (hr : c.tag.opcode? ≠ some .receive)
    (hd : l.connections.state? d = none) :
    Flows (Function.update sockets d (some ⟨[], [], false, h.length⟩)) h (posted ++ [c]) m := by
  have posted_other : ∀ c' ∈ posted ++ [c], c'.tag.opcode? = some .receive →
      c' ∈ posted ∧ c'.tag.descriptor.toInt32 ≠ d := by
    intro c' hc' hr'
    rcases List.mem_append.mp hc' with hc' | hc'
    · refine ⟨hc', fun e => ?_⟩
      have armed := hf.live c' hc' hr'
      rw [hf.streaming.receive, e, hd] at armed
      cases armed
    · cases List.mem_singleton.mp hc'
      exact absurd hr' hr
  have unanswered : (posted ++ [c]).filter (·.answers .receive d) = [] := by
    rw [List.filter_eq_nil_iff]
    intro c' hc' answered
    obtain ⟨hr', e⟩ := answers_iff.mp answered
    exact (posted_other c' hc' hr').2 e
  refine ⟨hp, faults.trans hf.faults, fun d' s' hs' => ?_, fun c' hc' hr' => ?_,
    fun d' s' hs' => ?_, fun d' s' a o b hs' e since closes => ?_⟩
  · by_cases e : d' = d
    · rw [e, Function.update_self] at hs'
      cases hs'
      exact Nat.le_refl _
    · rw [Function.update_of_ne e] at hs'
      exact hf.since d' s' hs'
  · obtain ⟨hc', ne⟩ := posted_other c' hc' hr'
    rw [ring, Function.update_of_ne ne]
    exact hf.served c' hc' hr'
  · by_cases e : d' = d
    · rw [e, Function.update_self] at hs'
      cases hs'
      rw [e, undispatched, unanswered, handed, List.drop_length]
      rfl
    · rw [Function.update_of_ne e] at hs'
      rw [ring, undispatched_append, answers_eq_false hr]
      simpa using hf.whole d' s' hs'
  · by_cases ne : d' = d
    · rw [ne, Function.update_self] at hs'
      cases hs'
      have bound : h.length ≤ a.length := since
      rw [e, List.length_append, List.length_cons] at bound
      omega
    · rw [Function.update_of_ne ne] at hs'
      exact hf.closed d' s' a o b hs' e since closes

/-- The peer sends more, and may end with it. -/
theorem Flows.send {d : Descriptor} {s : Socket} (hf : Flows sockets h posted l)
    (hs : sockets d = some s) (unfinished : s.finished = false) (bytes : Bytes) (last : Bool) :
    Flows (Function.update sockets d
      (some ⟨s.sent ++ bytes, s.queue ++ bytes, last, s.since⟩)) h posted l := by
  refine ⟨hf.toPosts, hf.faults, fun d' s' hs' => ?_, fun c' hc' hr' => ?_,
    fun d' s' hs' => ?_, fun d' s' a o b hs' e since closes => ?_⟩
  · by_cases e : d' = d
    · rw [e, Function.update_self] at hs'
      cases hs'
      exact hf.since d s hs
    · rw [Function.update_of_ne e] at hs'
      exact hf.since d' s' hs'
  · obtain ⟨s', hs', ended⟩ := hf.served c' hc' hr'
    by_cases e : c'.tag.descriptor.toInt32 = d
    · rw [e, hs] at hs'
      cases hs'
      refine ⟨_, by rw [e, Function.update_self], fun empty named => ?_⟩
      rw [(ended empty named).1] at unfinished
      cases unfinished
    · exact ⟨s', by rw [Function.update_of_ne e, hs'], ended⟩
  · by_cases e : d' = d
    · rw [e, Function.update_self] at hs'
      cases hs'
      rw [e, ← List.append_assoc]
      exact congrArg (· ++ bytes) (hf.whole d s hs)
    · rw [Function.update_of_ne e] at hs'
      exact hf.whole d' s' hs'
  · by_cases ne : d' = d
    · rw [ne, Function.update_self] at hs'
      cases hs'
      rw [ne] at closes
      rw [(hf.closed d s a o b hs e since closes).1] at unfinished
      cases unfinished
    · rw [Function.update_of_ne ne] at hs'
      exact hf.closed d' s' a o b hs' e since closes

/-- Nothing changes while the loop idles and nothing happens to the buffers. -/
theorem Flows.idle (hf : Flows sockets h posted l) (hi : Idle l m) (ring : m.ring = l.ring)
    (faults : m.counters.faults = l.counters.faults) : Flows sockets h posted m := by
  have streaming := hf.streaming.idle hi (ring ▸ hf.streaming.atRest)
  obtain ⟨posts, none_faulty, since, served, whole, closed⟩ := hf
  obtain ⟨-, genuine, buffers, within, roomy, brings, live, ends, last, accepted, untracked, closes,
    slots, writes, unshut⟩ := posts
  rw [← ring] at buffers within roomy brings ends served whole
  rw [← hi.connections] at untracked unshut
  exact ⟨⟨streaming, genuine, buffers, within, roomy, brings, live, ends, last, accepted, untracked,
    closes, slots, writes, unshut⟩, faults.trans none_faulty, since, served, whole, closed⟩

/-- A step without a completion that calls and closes nothing. -/
theorem Flows.push {ps : List Submission} (hf : Flows sockets h posted l)
    (hs : Streaming (h ++ [⟨none, l.peerOf, ps, []⟩]) m)
    (closes : ∀ d, (.close, d) ∉ ps.filterMap (·.control?))
    (table : m.connections = l.connections) (ring : m.ring = l.ring)
    (faults : m.counters.faults = l.counters.faults) :
    Flows sockets (h ++ [⟨none, l.peerOf, ps, []⟩]) posted m where
  streaming := hs
  genuine := hf.genuine.append fun c hc => by cases hc
  buffers := ring ▸ hf.buffers
  within := ring ▸ hf.within
  roomy := ring ▸ hf.roomy
  brings := ring ▸ hf.brings
  live := by
    intro c hc hr
    rw [armed_append]
    exact Nat.lt_of_lt_of_le (hf.live c hc hr) (Nat.le_add_right _ _)
  ends := ring ▸ hf.ends
  last := hf.last
  accepted := hf.accepted
  untracked := table ▸ hf.untracked
  closes := by
    intro d
    rw [closings_append, List.countP_append]
    exact Nat.le_trans (hf.closes d) (Nat.le_add_right _ _)
  slots := hf.slots
  writes := by
    intro i
    rw [completions_append, pushes_append]
    exact Nat.le_trans (hf.writes i) (Nat.le_add_right _ _)
  unshut := table ▸ hf.unshut
  faults := faults.trans hf.faults
  since := by
    intro d s hd
    rw [List.length_append]
    exact Nat.le_trans (hf.since d s hd) (Nat.le_add_right _ _)
  served := ring ▸ hf.served
  whole := by
    intro d s hd
    rw [handed_append (hf.since d s hd), ring]
    simpa [Occurrence.handed] using hf.whole d s hd
  closed := by
    intro d s a o b hd e since closed
    rcases append_singleton_eq e with ⟨rfl, rfl, rfl⟩ | ⟨b', -, rfl⟩
    · exact absurd closed (closes d)
    · exact hf.closed d s a o b' hd rfl since closed

/-- So is one that does deeds of which none is a call and all that steer are accepts. -/
theorem Flows.fulfilled {ds : List Deed} {flying : List UInt16} {x : Option Fault}
    (hf : Flows sockets h posted l) (recording : Recording l) (lends : l.pool.Lends flying)
    (traced : Traced (Fulfils ds) l x m) (accepted : m.backend.refusals = l.backend.refusals)
    (steers : ∀ op d, (op, d) ∈ ds.filterMap Deed.control? → op = .accept)
    (uncalled : ds.filterMap Deed.call? = []) (table : m.connections = l.connections)
    (ring : m.ring = l.ring) (faults : m.counters.faults = l.counters.faults) :
    Flows sockets (h ++ [seen none l m]) posted m := by
  obtain ⟨ps, added, controls, streaming⟩ := hf.streaming.fulfilled recording lends traced accepted
    steers table ring
  rw [uncalled] at added streaming
  rw [← controls] at steers
  rw [added]
  exact hf.push streaming (fun d hd => by cases steers _ d hd) table ring faults

end EventLoop

end RingServer
