import RingServer.Proofs.Loop.FixedWrites
import RingServer.Proofs.Loop.Teardown

/-!
Descriptors that are used again. A row of the table belongs to the latest accept of its descriptor:
it has the peer of that accept, and counts the messages since (`Tallied`). It goes with the next
completion of a close that names the descriptor, even one of a connection before, and with nothing
else.
-/

namespace RingServer.EventLoop

open Text (Bytes)

variable {β ρ σ : Type} [Backend β] [BufferSource ρ]

/-- The counters of a connection after more messages. -/
def counted (c : Connection) (payloads : List Bytes) : UInt64 × UInt64 :=
  (c.messages + .ofNat payloads.length, c.bytes + .ofNat payloads.flatten.length)

/-- Rows count exactly the calls made for them, and no descriptor gets a row. -/
def Counts (cs : List Call) (l m : Watched β ρ σ) : Prop :=
  ∀ d, (l.connections.get? d = none → m.connections.get? d = none) ∧
    ∀ c, l.connections.get? d = some c → ∃ c', m.connections.get? d = some c' ∧
      (c'.messages, c'.bytes) = counted c (messages d cs)

/-- With a sound pool, a step counts what it calls. -/
def Tallies (ps : List Submission) (cs : List Call) (l : Watched β ρ σ) (x : Option Fault)
    (m : Watched β ρ σ) : Prop :=
  Transfers ps cs l x m ∧ ∀ flying, l.pool.Lends flying → Counts cs l m

variable {l m : Watched β ρ σ} {ps : List Submission} {cs : List Call} {x : Option Fault}

section

omit [Backend β] [BufferSource ρ]

theorem counted_nil (c : Connection) : counted c [] = (c.messages, c.bytes) := by
  simp [counted]

theorem counted_append {c c' : Connection} {ps qs : List Bytes}
    (h : (c'.messages, c'.bytes) = counted c ps) : counted c' qs = counted c (ps ++ qs) := by
  obtain ⟨hm, hb⟩ := Prod.mk.inj h
  simp [counted, hm, hb, UInt64.add_assoc]

/-- A step that makes no call and leaves the counters alone. -/
theorem counts_of_silent (hc : ∀ d, (l.connections.get? d = none → m.connections.get? d = none) ∧
      ∀ c, l.connections.get? d = some c → ∃ c', m.connections.get? d = some c' ∧
        c'.messages = c.messages ∧ c'.bytes = c.bytes) : Counts [] l m := by
  intro d
  refine ⟨(hc d).1, fun c h => ?_⟩
  obtain ⟨c', h', hm, hb⟩ := (hc d).2 c h
  refine ⟨c', h', ?_⟩
  rw [messages_nil, counted_nil, hm, hb]

theorem counts_of_steady (hc : m.connections = l.connections) : Counts [] l m := by
  apply counts_of_silent
  intro d
  rw [hc]
  exact ⟨fun h => h, fun c h => ⟨c, h, rfl, rfl⟩⟩

theorem Counts.trans {n : Watched β ρ σ} {ds : List Call} (h : Counts cs l m)
    (h' : Counts ds m n) : Counts (cs ++ ds) l n := by
  intro d
  refine ⟨fun hn => (h' d).1 ((h d).1 hn), fun c hc => ?_⟩
  obtain ⟨c', hc', e⟩ := (h d).2 c hc
  obtain ⟨c'', hc'', e'⟩ := (h' d).2 c' hc'
  exact ⟨c'', hc'', by rw [e', counted_append e, messages_append]⟩

end

theorem chains_tallies : Chains (Tallies : TraceRelation β ρ σ) where
  idle hi := ⟨chains_transfers.idle hi, fun _ _ => counts_of_steady hi.connections⟩
  after ht hi := by
    refine ⟨chains_transfers.after ht.1 hi, fun flying hl d => ?_⟩
    rw [hi.connections]
    exact ht.2 flying hl d
  trans ht ht' := by
    refine ⟨chains_transfers.trans ht.1 ht'.1, fun flying hl => ?_⟩
    obtain ⟨-, hm, -⟩ := ht.1.2 flying hl
    exact (ht.2 flying hl).trans (ht'.2 _ hm)

/-- The calls of a step can be read off the loops, so it is enough to look at them. -/
theorem traced_tallies (ht : Traced (Transfers : TraceRelation β ρ σ) l x m)
    (count : Recording l → m.backend.refusals = l.backend.refusals → ∀ flying,
      l.pool.Lends flying → ∃ cs, m.handlerState.2 = l.handlerState.2 ++ cs ∧ Counts cs l m) :
    Traced (Tallies : TraceRelation β ρ σ) l x m := by
  intro hr
  obtain ⟨ps, cs, added, kept⟩ := ht hr
  refine ⟨ps, cs, added, fun accepted => ⟨kept accepted, fun flying hl => ?_⟩⟩
  obtain ⟨cs', e, counts⟩ := count hr accepted flying hl
  rw [added.calls] at e
  rw [List.append_cancel_left e]
  exact counts

theorem tallies_of_silent (ht : Traced (Transfers : TraceRelation β ρ σ) l x m)
    (hs : Silent l x m) (hc : Counts [] l m) : Traced (Tallies : TraceRelation β ρ σ) l x m :=
  traced_tallies ht fun _ _ _ _ => ⟨[], by rw [hs.2, List.append_nil], hc⟩

section

omit [Backend β] [BufferSource ρ]

/-- A connection that moves on keeps its counters. -/
theorem counts_of_moved {fd : Descriptor} {s : ConnectionState}
    (hc : m.connections = l.connections.modify fd fun c => { c with state := s }) :
    Counts [] l m := by
  apply counts_of_silent
  intro d
  rw [hc, ConnectionTable.get?_modify]
  constructor
  · intro h
    rw [h]
    split <;> rfl
  · intro c h
    rw [h]
    split
    · exact ⟨{ c with state := s }, rfl, rfl, rfl⟩
    · exact ⟨c, rfl, rfl, rfl⟩

theorem counts_of_called {fd : Descriptor} {payload : Bytes}
    (hc : m.connections = l.connections.modify fd (.count (.ofNat payload.length))) :
    Counts [(fd, payload)] l m := by
  intro d
  rw [hc, ConnectionTable.get?_modify]
  constructor
  · intro h
    rw [h]
    split <;> rfl
  · intro c h
    rw [h]
    split
    next e =>
      refine ⟨c.count (.ofNat payload.length), rfl, ?_⟩
      simp [messages, counted, Connection.count, e]
    next e =>
      refine ⟨c, rfl, ?_⟩
      simp [messages, counted, Ne.symm e]

end

omit [BufferSource ρ] in
/-- With a sound pool, a line of the access log fails only where a push is refused. -/
theorem writeAccess_ne_error {message : String} {e : Fault} {flying : List UInt16}
    (hl : l.pool.Lends flying) (accepted : m.backend.refusals = l.backend.refusals) :
    exec (writeAccess message) l ≠ (.error e, m) := by
  intro he
  unfold writeAccess at he
  rw [exec_bind_ok (exec_get l)] at he
  split at he
  · have sent := sends_writeLog .info message l
    rw [he] at sent
    obtain ⟨ok, -⟩ := sent.lends hl accepted
    cases ok
  · cases he

theorem allows_tallies : Allows (Traced (Tallies : TraceRelation β ρ σ)) where
  toComposable := chains_tallies.composable
  aside ht ha := chains_tallies.traced_after ht ha.idle
  log level message l := by
    have sent := sends_writeLog level message l
    exact tallies_of_silent sent.transfers sent.silent (counts_of_steady sent.steady)
  armAccept fd l := tallies_of_silent (allows_transfers.armAccept fd l)
    (permits_silent.armAccept fd l) (counts_of_steady (steady_submit _ _ l))
  armReceive fd l ho := by
    have steady : Steady l none (exec (armReceive fd) l).2 := by
      unfold armReceive
      rw [exec_bind_ok (exec_get l)]
      exact steady_submit _ _ l
    exact tallies_of_silent (allows_transfers.armReceive fd l ho)
      (permits_silent.armReceive fd l ho) (counts_of_steady steady)
  close fd l := by
    refine tallies_of_silent (allows_transfers.close fd l) (permits_silent.close fd l) ?_
    rcases exec_closeConnection fd l with ⟨_, _, _, e⟩ | ⟨_, e⟩
    · rw [e]
      exact counts_of_moved (steady_submit _ _ _)
    · rw [e]
      exact counts_of_steady rfl
  shutdown fd l := by
    refine tallies_of_silent (allows_transfers.shutdown fd l) (permits_silent.shutdown fd l) ?_
    rcases exec_shutdownConnection fd l with ⟨_, _, _, e⟩ | ⟨_, e⟩
    · rw [e]
      exact counts_of_moved (steady_submit _ _ _)
    · rw [e]
      exact counts_of_steady rfl
  handle fd connection id payload l hc ho := by
    refine traced_tallies (allows_transfers.handle fd connection id payload l hc ho)
      fun hr accepted flying hl => ?_
    rcases he : exec (handle fd connection.peer id payload) l with ⟨x, m⟩
    rw [he] at accepted
    rcases handle_cases hr he with ⟨-, message, n, e, ha, hw⟩ | ⟨called, table⟩
    · have pool : n.pool = l.pool := by rw [ha]
      have refusals : n.backend.refusals = l.backend.refusals := by rw [ha]
      exact absurd hw (writeAccess_ne_error (pool ▸ hl) (accepted.trans refusals.symm))
    · exact ⟨_, called, counts_of_called table⟩
  take id length l := tallies_of_silent (allows_transfers.take id length l)
    (permits_silent.take id length l) (counts_of_steady rfl)
  recycle buffer l m x ht := chains_tallies.traced_after ht ⟨rfl, rfl, rfl, rfl, rfl, rfl⟩

/-! ## Along a run -/

/-- Every row has counted the messages since its descriptor was accepted. -/
def Tallied (h : List Occurrence) (l : Watched β ρ σ) : Prop :=
  ∀ d c, l.connections.get? d = some c → ∃ t, tenure d h = some t ∧
    (c.messages, c.bytes) = counted (.fresh none) t.messages

theorem survives_tallied (n : Nat) : Survives (Tallies : TraceRelation β ρ σ)
    fun h l => Owned n h l ∧ Tallied h l where
  idle ho hi := by
    refine ⟨(survives_owned n).idle ho.1 hi, fun d c hc => ?_⟩
    rw [hi.connections] at hc
    exact ho.2 d c hc
  step := by
    intro h l m c ps cs x ho hw hl taken added ht
    refine ⟨(survives_owned n).step c ho.1 hw hl taken added ht.1, fun d k hk => ?_⟩
    have pool : (begun c l).pool = l.pool := by rw [begun_eq]
    have counts := ht.2 _ (pool ▸ ho.1.lends) d
    rw [get?_begun c l ps cs d] at counts
    rw [tenure_append]
    by_cases accepts : Occurrence.accepts d ⟨c, l.peerOf, ps, cs⟩ = true
    · rw [if_pos accepts] at counts ⊢
      obtain ⟨k', hk', e⟩ := counts.2 _ rfl
      rw [hk] at hk'
      cases hk'
      exact ⟨_, rfl, e⟩
    rw [if_neg accepts] at counts ⊢
    by_cases closes : Occurrence.closes d ⟨c, l.peerOf, ps, cs⟩ = true
    · rw [if_pos closes] at counts
      rw [counts.1 rfl] at hk
      cases hk
    rw [if_neg closes] at counts
    cases hb : l.connections.get? d with
    | none =>
      rw [counts.1 hb] at hk
      cases hk
    | some b =>
      obtain ⟨t, ht, old⟩ := ho.2 d b hb
      obtain ⟨k', hk', e⟩ := counts.2 b hb
      rw [hk] at hk'
      cases hk'
      refine ⟨_, by rw [ht]; rfl, ?_⟩
      rw [e, counted_append old]
      rfl
  released := by
    intro h l m c x ho hw he
    refine ⟨(survives_owned n).released c ho.1 hw he, fun d k hk => ?_⟩
    obtain ⟨pool, hi⟩ := idle_released hw he
    have same : m.connections = l.connections := hi.connections
    rw [same] at hk
    obtain ⟨t, ht, e⟩ := ho.2 d k hk
    have accepts : ¬ Occurrence.accepts d ⟨some c, l.peerOf, [], []⟩ = true := by
      rw [Occurrence.accepts_some, hw]
      simp
    rw [tenure_append, if_neg accepts, ht]
    refine ⟨_, rfl, ?_⟩
    show _ = counted _ (t.messages ++ [])
    rw [List.append_nil]
    exact e

/-- On a new pool, along every run in which all pushes are accepted: a descriptor that was accepted,
and for which no close has been pushed since, is tracked exactly as long as no completion of a close
has named it since, in whatever order completions come. It is not closing then, and its row has the
peer and the counters of its latest connection. -/
theorem tracked_until_close_completes {backend : β} {pool : SlotPool} {rings : List ρ}
    {handler : Handler σ} {state : σ} {settings : Settings} {granted entrySize entries : Nat}
    {start : Watched β ρ σ} {h : List Occurrence} {d : Descriptor} {t : Tenure}
    (hp : SlotPool.new granted entrySize entries = .ok pool)
    (hn : EventLoop.new (.of backend) pool rings handler.recording (state, []) settings = .ok start)
    (hr : Reached start h l) (accepted : l.backend.refusals = 0)
    (ht : tenure d h = some t) (hc : .close d ∉ t.pushed) :
    (l.connections.contains d = true ↔ t.closed = false) ∧
    ∀ c, l.connections.get? d = some c →
      (c.state = .opened ∨ c.state = .shuttingDown) ∧ c.peer = t.peer ∧
      c.messages = .ofNat t.messages.length ∧
      c.bytes = .ofNat t.messages.flatten.length := by
  obtain ⟨recording, unrefused⟩ := recording_of_new hn
  have begins : Owned entries [] start ∧ Tallied [] start := by
    refine ⟨owned_of_new hp hn, fun d c hd => ?_⟩
    rw [(new_eq_ok hn).2.2.2.2] at hd
    cases hd
  obtain ⟨-, -, kept⟩ := hr.invariant chains_tallies allows_tallies (survives_tallied entries)
    recording begins
  obtain ⟨-, tallied⟩ := kept (accepted.trans unrefused.symm)
  have agrees := (hr.managed hn accepted).agrees d
  constructor
  · rw [ConnectionTable.contains]
    cases hd : l.connections.get? d with
    | none =>
      rw [ht, hd] at agrees
      simp [agrees.1]
    | some c =>
      rw [ht, hd] at agrees
      simp [agrees.1]
  · intro c hd
    obtain ⟨t', ht', counts⟩ := tallied d c hd
    rw [ht] at ht'
    cases ht'
    rw [ht, hd] at agrees
    obtain ⟨-, -, closing⟩ := agrees.2.2.state_iff
    obtain ⟨hm, hb⟩ := Prod.mk.inj counts
    refine ⟨?_, agrees.2.1.symm, ?_, ?_⟩
    · cases hs : c.state with
      | opened => exact Or.inl rfl
      | shuttingDown => exact Or.inr rfl
      | closing => exact absurd (closing.mp hs) hc
    · rw [hm]
      simp [Connection.fresh]
    · rw [hb]
      simp [Connection.fresh]

/-- Descriptor 5 has been accepted again before the completion of its close arrives. -/
def afterReuse : Watched Recorder BufferQueue Unit :=
  (exec (dispatch (.accepted 3 5 true)) afterEnd).2

theorem reached_afterReuse : ∃ h, Reached echoing h afterReuse ∧
    tenure 5 h = some ⟨none, [.receive 5 0], [], false⟩ ∧ h.countP (·.closes 5) = 0 := by
  have hr : Reached echoing _ afterReuse :=
    ((Reached.start.step (.dispatch (.accepted 3 5 true))).step
      (.dispatch ⟨.onDescriptor 5 .receive, 0, 0⟩)).step (.dispatch (.accepted 3 5 true))
  refine ⟨_, hr, ?_, ?_⟩ <;> decide +kernel

theorem tracked_until_close_completes_after_reuse : afterReuse.connections.contains 5 = true := by
  obtain ⟨h, hr, ht, -⟩ := reached_afterReuse
  have tracked := tracked_until_close_completes new_twoSlots new_echoing hr (by decide +kernel) ht
    (by decide)
  exact tracked.1.mpr rfl

/-- The one close that was pushed for descriptor 5, before its second accept, is completed after
it: the new connection is forgotten, although nothing was pushed to end it. -/
theorem reused_descriptor_is_lost : ∃ h, ∃ l : Watched Recorder BufferQueue Unit,
    Reached echoing h l ∧ l.backend.refusals = 0 ∧
    l.backend.pushed.countP (·.operation = .close 5) = 1 ∧ h.countP (·.closes 5) = 1 ∧
    tenure 5 h = some ⟨none, [.receive 5 0], [], true⟩ ∧ l.connections.contains 5 = false := by
  obtain ⟨h, hr, ht, hc⟩ := reached_afterReuse
  refine ⟨_, _, hr.step (.dispatch ⟨.onDescriptor 5 .close, 0, 0⟩), ?_, ?_, ?_, ?_, ?_⟩
  · decide +kernel
  · decide +kernel
  · rw [List.countP_append, hc]
    decide +kernel
  · rw [tenure_append, ht]
    decide +kernel
  · decide +kernel

end RingServer.EventLoop
