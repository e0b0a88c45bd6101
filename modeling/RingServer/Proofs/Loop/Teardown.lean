import RingServer.Proofs.Loop.Calls

/-!
How a connection ends. What is pushed for a connection is first work and then at most one shutdown
and one close, in this order (`Orderly`), and its state says how far that has come. A step of the
loop carries this on for every connection (`Advances`), so it holds for the tenure of every
descriptor along a run, whatever completions arrive.
-/

namespace RingServer.EventLoop

open Text (Bytes)

/-- What may follow the work for a connection that has come to a state. -/
def endings (d : Descriptor) : ConnectionState → List (List Operation)
  | .opened => [[]]
  | .shuttingDown => [[.shutdown d]]
  | .closing => [[.close d], [.shutdown d, .close d]]

/-- The operation begins the end of the connection on `d`. -/
def Finishes (d : Descriptor) (op : Operation) : Prop := op = .shutdown d ∨ op = .close d

/-- Work, none of which ends the connection, and then what its state says. -/
def Orderly (d : Descriptor) (s : ConnectionState) (pushed : List Operation) : Prop :=
  ∃ work, ∃ ending ∈ endings d s, pushed = work ++ ending ∧ ∀ op ∈ work, ¬ Finishes d op

variable {β ρ σ : Type} {d : Descriptor} {s : ConnectionState} {pushed : List Operation}

theorem orderly_nil : Orderly d .opened [] := ⟨[], [], by simp [endings], rfl, by simp⟩

theorem orderly_opened_iff : Orderly d .opened pushed ↔ ∀ op ∈ pushed, ¬ Finishes d op := by
  constructor
  · rintro ⟨work, ending, he, rfl, hw⟩
    rw [endings, List.mem_singleton] at he
    rw [he, List.append_nil]
    exact hw
  · intro h
    exact ⟨pushed, [], by simp [endings], (List.append_nil _).symm, h⟩

theorem Orderly.work {op : Operation} (h : Orderly d .opened pushed) (hop : ¬ Finishes d op) :
    Orderly d .opened (pushed ++ [op]) := by
  rw [orderly_opened_iff] at h ⊢
  intro op' ho
  rcases List.mem_append.mp ho with ho | ho
  · exact h op' ho
  · rw [List.mem_singleton.mp ho]
    exact hop

theorem Orderly.shutdown (h : Orderly d .opened pushed) :
    Orderly d .shuttingDown (pushed ++ [.shutdown d]) :=
  ⟨pushed, [.shutdown d], by simp [endings], rfl, orderly_opened_iff.mp h⟩

theorem Orderly.close (h : Orderly d s pushed) (hs : s ≠ .closing) :
    Orderly d .closing (pushed ++ [.close d]) := by
  cases s with
  | opened => exact ⟨pushed, [.close d], by simp [endings], rfl, orderly_opened_iff.mp h⟩
  | shuttingDown =>
    obtain ⟨work, ending, he, rfl, hw⟩ := h
    rw [endings, List.mem_singleton] at he
    exact ⟨work, [.shutdown d, .close d], by simp [endings], by simp [he], hw⟩
  | closing => exact absurd rfl hs

/-- What was pushed says how far the connection has come. -/
theorem Orderly.state_iff (h : Orderly d s pushed) :
    (s = .opened ↔ .shutdown d ∉ pushed ∧ .close d ∉ pushed) ∧
    (s = .shuttingDown ↔ .shutdown d ∈ pushed ∧ .close d ∉ pushed) ∧
    (s = .closing ↔ .close d ∈ pushed) := by
  obtain ⟨work, ending, he, rfl, hw⟩ := h
  have hs : .shutdown d ∉ work := fun h => hw _ h (Or.inl rfl)
  have hc : .close d ∉ work := fun h => hw _ h (Or.inr rfl)
  cases s with
  | opened =>
    rw [endings, List.mem_singleton] at he
    simp [he, hs, hc]
  | shuttingDown =>
    rw [endings, List.mem_singleton] at he
    simp [he, hc]
  | closing =>
    have last : .close d ∈ work ++ ending := by
      simp only [endings, List.mem_cons, List.not_mem_nil, or_false] at he
      rcases he with rfl | rfl <;> simp
    simp [last]

/-! ## Steps -/

/-- Operations that carry what is known of `d` from `before` to `after`: there are none for a
descriptor that is not tracked, and those for a connection carry on what was pushed for it. -/
def Carries (d : Descriptor) (ops : List Operation) (before after : Option Connection) : Prop :=
  (before = none → after = none ∧ ops = []) ∧
    ∀ c, before = some c → ∃ c', after = some c' ∧ c'.peer = c.peer ∧
      ∀ pushed, Orderly d c.state pushed → Orderly d c'.state (pushed ++ ops)

/-- What a step pushes carries every descriptor on. -/
def Advances (ps : List Submission) (_ : List Call) (l : Watched β ρ σ) (_ : Option Fault)
    (m : Watched β ρ σ) : Prop :=
  ∀ d, Carries d (served d ps) (l.connections.get? d) (m.connections.get? d)

theorem carries_nil (d : Descriptor) (c : Option Connection) : Carries d [] c c := by
  refine ⟨fun h => ⟨h, rfl⟩, fun c h => ⟨c, h, rfl, fun pushed ho => ?_⟩⟩
  rwa [List.append_nil]

variable {l m : Watched β ρ σ} {ps : List Submission} {cs : List Call} {x : Option Fault}

/-- A step that serves nobody, with the table as it is. -/
theorem advances_of_unserved (hc : m.connections = l.connections) (hs : ∀ d, served d ps = []) :
    Advances ps cs l x m := by
  intro d
  rw [hc, hs d]
  exact carries_nil d _

/-- A push for the connection on `fd`, which it may carry to another state. -/
theorem advances_push {fd : Descriptor} {submission : Submission} {c c' : Connection}
    (hs : ∀ d, submission.operation.serves d = true → d = fd)
    (hc : l.connections.get? fd = some c) (hc' : m.connections.get? fd = some c')
    (ho : ∀ d, d ≠ fd → m.connections.get? d = l.connections.get? d) (hp : c'.peer = c.peer)
    (orderly : ∀ pushed, Orderly fd c.state pushed →
      Orderly fd c'.state (pushed ++ served fd [submission])) :
    Advances [submission] cs l x m := by
  intro d
  by_cases e : d = fd
  · rw [e]
    refine ⟨fun h => ?_, fun k hk => ?_⟩
    · rw [hc] at h
      cases h
    · rw [hc] at hk
      cases hk
      exact ⟨c', hc', hp, orderly⟩
  · have unserved : served d [submission] = [] := by
      rw [served_singleton, if_neg fun h => e (hs d h)]
    rw [ho d e, unserved]
    exact carries_nil d _

theorem chains_advances : Chains (Advances : TraceRelation β ρ σ) where
  idle hi := advances_of_unserved hi.connections fun _ => rfl
  after ha hi := by
    intro d
    rw [hi.connections]
    exact ha d
  trans := by
    intro ps cs qs ds l m x n first second d
    rw [served_append]
    constructor
    · intro h
      obtain ⟨hm, hp⟩ := (first d).1 h
      obtain ⟨hn, hq⟩ := (second d).1 hm
      exact ⟨hn, by rw [hp, hq]; rfl⟩
    · intro c hc
      obtain ⟨c', hc', peer, orderly⟩ := (first d).2 c hc
      obtain ⟨c'', hc'', peer', orderly'⟩ := (second d).2 c' hc'
      refine ⟨c'', hc'', peer'.trans peer, fun pushed h => ?_⟩
      rw [← List.append_assoc]
      exact orderly' _ (orderly pushed h)

theorem Sends.advances {fd : Descriptor} {y : Except Fault Unit} (h : Sends fd l y m)
    (ho : fd = standardError ∨ l.connections.isOpen fd = true) :
    Traced (Advances : TraceRelation β ρ σ) l (fault? y) m := by
  intro _
  obtain ⟨hc, ps, added, rfl | ⟨loan, rfl⟩⟩ := h.adds
  · exact ⟨[], [], added, fun _ => advances_of_unserved hc fun _ => rfl⟩
  refine ⟨_, [], added, fun _ => ?_⟩
  rcases ho with rfl | ho
  · refine advances_of_unserved hc fun d => ?_
    rw [served_singleton, if_neg (by simp [Operation.serves])]
  · obtain ⟨c, hc', hs⟩ := (ConnectionTable.isOpen_iff _).mp ho
    refine advances_push (fun d hd => ?_) hc' (hc ▸ hc') (fun d _ => by rw [hc]) rfl ?_
    · simp only [Operation.serves, decide_eq_true_eq] at hd
      exact hd.1.symm
    · intro pushed h
      rw [served_singleton]
      rw [hs] at h ⊢
      split
      · exact h.work (by simp [Finishes])
      · rwa [List.append_nil]

variable [Backend β]

theorem advances_log (level : Level) (message : String) :
    Keeps (Traced (Advances : TraceRelation β ρ σ)) (writeLog level message) :=
  fun l => (sends_writeLog level message l).advances (Or.inl rfl)

/-- A push of work for an open connection. -/
theorem advances_submit {fd : Descriptor} {tag : Tag} {op : Operation}
    (ho : l.connections.isOpen fd = true) (hs : ∀ d, op.serves d = true → d = fd)
    (hf : ¬ Finishes fd op) : Ends (Traced (Advances : TraceRelation β ρ σ)) (submit tag op) l := by
  obtain ⟨c, hc, ho⟩ := (ConnectionTable.isOpen_iff _).mp ho
  refine traced_submit (t := l.connections) fun inner => ?_
  refine advances_push hs hc hc (fun _ _ => rfl) rfl fun pushed h => ?_
  rw [served_singleton]
  rw [ho] at h ⊢
  split
  · exact h.work hf
  · rwa [List.append_nil]

theorem advances_queueReply {fd : Descriptor} (reply : Reply)
    (ho : l.connections.isOpen fd = true) :
    Ends (Traced (Advances : TraceRelation β ρ σ)) (queueReply fd reply) l := by
  have chains := chains_advances (β := β) (ρ := ρ) (σ := σ)
  cases reply with
  | nothing => exact chains.composable.refl l
  | fixed bytes =>
    refine Ends.bind chains.composable (advances_submit ho ?_ ?_) fun _ m _ => ?_
    · exact fun d hd => (of_decide_eq_true hd).symm
    · simp [Finishes, Operation.sending]
    · exact chains.traced_after (chains.composable.refl m) ⟨rfl, rfl, rfl, rfl, rfl, rfl⟩
  | copied bytes => exact (sends_queueReply fd bytes l).advances (Or.inr ho)

/-- A push that moves the connection on to another state. -/
theorem advances_move {fd : Descriptor} {tag : Tag} {op : Operation} {s : ConnectionState}
    {c : Connection} (hc : l.connections.get? fd = some c)
    (hs : ∀ d, op.serves d = true ↔ d = fd)
    (orderly : ∀ pushed, Orderly fd c.state pushed → Orderly fd s (pushed ++ [op])) :
    Traced (Advances : TraceRelation β ρ σ) l
      (fault? (exec (submit tag op)
        { l with connections := l.connections.modify fd fun c => { c with state := s } }).1)
      (exec (submit tag op)
        { l with connections := l.connections.modify fd fun c => { c with state := s } }).2 := by
  refine traced_submit fun inner => ?_
  have moved : ∀ d, (l.connections.modify fd fun c => { c with state := s }).get? d =
      if d = fd then (l.connections.get? d).map fun c => { c with state := s }
      else l.connections.get? d := fun d => ConnectionTable.get?_modify _ _
  have here : (l.connections.modify fd fun c => { c with state := s }).get? fd =
      some { c with state := s } := by
    rw [moved, if_pos rfl, hc]
    rfl
  refine advances_push (fun d hd => (hs d).mp hd) hc here ?_ rfl ?_
  · intro d hd
    rw [moved, if_neg hd]
  · intro pushed h
    rw [served_singleton, if_pos ((hs fd).mpr rfl)]
    exact orderly pushed h

omit [Backend β] in
/-- Counting a message touches neither the state nor the peer of a connection. -/
theorem advances_count {fd : Descriptor} {n : UInt64}
    (ht : m.connections = l.connections.modify fd (.count n)) : Advances [] cs l x m := by
  intro d
  rw [ht, ConnectionTable.get?_modify]
  constructor
  · intro h
    rw [h]
    split <;> exact ⟨rfl, rfl⟩
  · intro c hc
    rw [hc]
    split
    · refine ⟨c.count n, rfl, rfl, fun pushed h => ?_⟩
      rwa [served_nil, List.append_nil]
    · refine ⟨c, rfl, rfl, fun pushed h => ?_⟩
      rwa [served_nil, List.append_nil]

theorem allows_advances [BufferSource ρ] : Allows (Traced (Advances : TraceRelation β ρ σ)) where
  toComposable := chains_advances.composable
  aside ht ha := chains_advances.traced_after ht ha.idle
  log := advances_log
  armAccept fd l := by
    refine traced_submit (t := l.connections) fun inner => ?_
    exact advances_of_unserved rfl fun d => rfl
  armReceive fd l ho := by
    unfold armReceive
    rw [Ends, exec_bind_ok (exec_get l)]
    refine advances_submit ho (fun d hd => (of_decide_eq_true hd).symm) ?_
    simp [Finishes]
  close fd l := by
    rcases exec_closeConnection fd l with ⟨c, hc, hs, e⟩ | ⟨_, e⟩
    · rw [Ends, e]
      refine advances_move hc (fun d => ?_) fun pushed h => h.close hs
      simp [Operation.serves, eq_comm]
    · rw [Ends, e]
      exact chains_advances.composable.refl l
  shutdown fd l := by
    rcases exec_shutdownConnection fd l with ⟨c, hc, hs, e⟩ | ⟨_, e⟩
    · rw [Ends, e]
      refine advances_move hc (fun d => ?_) fun pushed h => ?_
      · simp [Operation.serves, eq_comm]
      · rw [hs] at h
        exact h.shutdown
    · rw [Ends, e]
      exact chains_advances.composable.refl l
  handle fd connection id payload l hc ho := by
    have opened : l.connections.isOpen fd = true := by
      rw [ConnectionTable.isOpen, hc]
      exact ho
    obtain ⟨message, m, ha, e⟩ := exec_handle fd connection.peer id payload l
    have table : m.connections = l.connections.modify fd (.count (.ofNat payload.length)) := by
      rw [ha]
    have counted : Traced (Advances : TraceRelation β ρ σ) l none m := fun _ =>
      ⟨[], [], (Adds.of_idle ha.idle).of_eq rfl rfl rfl, fun _ => advances_count table⟩
    rw [Ends, e]
    refine chains_advances.composable.trans counted ?_
    refine Ends.bind chains_advances.composable ?_ fun _ k hk => ?_
    · exact Keeps.writeAccess chains_advances.composable advances_log message m
    · have steady := (steady_writeAccess message m).to_exec hk
      have still : k.connections.isOpen fd = true := by
        rw [show k.connections = m.connections from steady, table]
        exact l.connections.isOpen_modify_count _ opened
      rw [Ends, exec_answer]
      refine chains_advances.composable.trans (traced_call ?_) (advances_queueReply _ ?_)
      · exact advances_of_unserved rfl fun _ => rfl
      · exact still
  take id length l _ :=
    ⟨[], [], Adds.of_idle ⟨rfl, rfl, rfl, rfl, rfl, rfl⟩,
      fun _ => advances_of_unserved rfl fun _ => rfl⟩
  recycle buffer l m x ht := chains_advances.traced_after ht ⟨rfl, rfl, rfl, rfl, rfl, rfl⟩

/-! ## Along a run -/

/-- The tenure of a descriptor and its row in the table agree. -/
def Agrees (d : Descriptor) : Option Tenure → Option Connection → Prop
  | none, c => c = none
  | some t, none => t.closed = true ∧ ∃ s, Orderly d s t.pushed
  | some t, some c => t.closed = false ∧ t.peer = c.peer ∧ Orderly d c.state t.pushed

theorem Agrees.step {t : Option Tenure} {c b a : Option Connection} {o : Occurrence}
    (h : Agrees d t c)
    (hb : b = if o.accepts d then some (.fresh (o.peerOf d)) else if o.closes d then none else c)
    (hc : Carries d (served d o.pushed) b a) :
    Agrees d ((if o.accepts d then some (.begin (o.peerOf d)) else t).map (.extend d o)) a := by
  by_cases accepts : o.accepts d = true
  · rw [if_pos accepts] at hb ⊢
    obtain ⟨c', rfl, peer, orderly⟩ := hc.2 _ hb
    refine ⟨?_, peer.symm, orderly [] orderly_nil⟩
    exact Occurrence.closes_eq_false accepts
  rw [if_neg accepts] at hb ⊢
  by_cases closes : o.closes d = true
  · rw [if_pos closes] at hb
    obtain ⟨rfl, unserved⟩ := hc.1 hb
    cases t with
    | none => rfl
    | some t =>
      have ordered : ∃ s, Orderly d s t.pushed := by
        cases c with
        | none => exact h.2
        | some c => exact ⟨c.state, h.2.2⟩
      refine ⟨?_, ?_⟩
      · show (t.closed || o.closes d) = true
        rw [closes, Bool.or_true]
      · show ∃ s, Orderly d s (t.pushed ++ served d o.pushed)
        rw [unserved, List.append_nil]
        exact ordered
  rw [if_neg closes] at hb
  have closed : ∀ t : Tenure, (t.extend d o).closed = t.closed := by
    intro t
    show (t.closed || o.closes d) = t.closed
    rw [Bool.not_eq_true] at closes
    rw [closes, Bool.or_false]
  cases c with
  | none =>
    obtain ⟨rfl, unserved⟩ := hc.1 hb
    cases t with
    | none => rfl
    | some t =>
      refine ⟨(closed t).trans h.1, ?_⟩
      show ∃ s, Orderly d s (t.pushed ++ served d o.pushed)
      rw [unserved, List.append_nil]
      exact h.2
  | some c =>
    obtain ⟨c', rfl, peer, orderly⟩ := hc.2 c hb
    cases t with
    | none => exact absurd h (by simp [Agrees])
    | some t => exact ⟨(closed t).trans h.1, h.2.1.trans peer.symm, orderly _ h.2.2⟩

/-- A step makes no call for a connection whose end has begun, and pushes nothing for a descriptor
that is not tracked, unless it is its accept. -/
structure Settled (d : Descriptor) (a : List Occurrence) (o : Occurrence) : Prop where
  unheard : ∀ t, tenure d (a ++ [o]) = some t → (∃ op ∈ t.pushed, Finishes d op) →
    messages d o.calls = []
  untracked : (∀ t, tenure d a = some t → t.closed = true) → o.accepts d = false →
    served d o.pushed = [] ∧ messages d o.calls = []

/-- Every connection ends in an orderly way so far. -/
structure Managed (h : List Occurrence) (l : Watched β ρ σ) : Prop where
  agrees : ∀ d, Agrees d (tenure d h) (l.connections.get? d)
  settled : ∀ d a o b, h = a ++ o :: b → Settled d a o

/-- A descriptor whose tenure is over has no row. -/
theorem Agrees.eq_none {t : Option Tenure} {c : Option Connection} (h : Agrees d t c)
    (ht : ∀ t', t = some t' → t'.closed = true) : c = none := by
  cases c with
  | none => rfl
  | some c =>
    cases t with
    | none => exact absurd h (by simp [Agrees])
    | some t =>
      have closed := ht t rfl
      rw [h.1] at closed
      cases closed

omit [Backend β] in
/-- What a step adds to an orderly history. -/
theorem Managed.step {h : List Occurrence} {o : Occurrence} (hm : Managed h l)
    (agrees : ∀ d, Agrees d (tenure d (h ++ [o])) (m.connections.get? d))
    (opened : ∀ d, messages d o.calls ≠ [] → m.connections.isOpen d = true)
    (unserved : ∀ d, l.connections.get? d = none → o.accepts d = false →
      m.connections.get? d = none ∧ served d o.pushed = []) : Managed (h ++ [o]) m := by
  refine ⟨agrees, fun d a o' b e => ?_⟩
  rcases append_singleton_eq e with ⟨rfl, rfl, rfl⟩ | ⟨b', -, rfl⟩
  · refine ⟨?_, ?_⟩
    · intro t ht ⟨op, hop, finishes⟩
      refine Decidable.byContradiction fun called => ?_
      obtain ⟨c, hc, hs⟩ := (ConnectionTable.isOpen_iff _).mp (opened d called)
      have ordered := agrees d
      rw [ht, hc] at ordered
      have orderly := ordered.2.2
      rw [hs, orderly_opened_iff] at orderly
      exact orderly op hop finishes
    · intro ended accepts
      obtain ⟨gone, nothing⟩ := unserved d ((hm.agrees d).eq_none ended) accepts
      refine ⟨nothing, ?_⟩
      refine Decidable.byContradiction fun called => ?_
      obtain ⟨c, hc, -⟩ := (ConnectionTable.isOpen_iff _).mp (opened d called)
      rw [gone] at hc
      cases hc
  · exact hm.settled d a o' b' rfl

theorem survives_managed [BufferSource ρ] : Survives (Advances : TraceRelation β ρ σ) Managed where
  idle hm hi := ⟨fun d => by rw [hi.connections]; exact hm.agrees d, hm.settled⟩
  step := by
    intro h l m c ps cs x hm hw hl taken added advances
    refine hm.step (fun d => ?_) (fun d => taken.open_of_call hl) fun d hd accepts => ?_
    · rw [tenure_append]
      exact (hm.agrees d).step (get?_begun c l ps cs d) (advances d)
    · apply (advances d).1
      rw [get?_begun c l ps cs, accepts, hd]
      simp
  released := by
    intro h l m c x hm hw he
    obtain ⟨pool, hi⟩ := idle_released hw he
    have accepts : ∀ d, Occurrence.accepts d ⟨some c, l.peerOf, [], []⟩ = false := by
      intro d
      rw [Bool.eq_false_iff, ne_eq, Occurrence.accepts_some, hw]
      simp
    have closes : ∀ d, Occurrence.closes d ⟨some c, l.peerOf, [], []⟩ = false := by
      intro d
      rw [Bool.eq_false_iff, ne_eq, Occurrence.closes_some, hw]
      simp
    have same : m.connections = l.connections := hi.connections
    refine hm.step (fun d => ?_) (fun d called => absurd rfl called) fun d hd _ => ?_
    · rw [tenure_append, same]
      refine (hm.agrees d).step ?_ (carries_nil d _)
      rw [accepts, closes]
      rfl
    · exact ⟨same ▸ hd, rfl⟩

omit [Backend β] in
theorem managed_start (h : l.connections = .empty) : Managed [] l := by
  refine ⟨fun d => ?_, fun d a o b e => ?_⟩
  · rw [h]
    exact rfl
  · cases a <;> cases e

section

variable [BufferSource ρ] {backend : β} {pool : SlotPool} {rings : List ρ} {handler : Handler σ}
  {state : σ} {settings : Settings} {start : Watched β ρ σ} {h : List Occurrence}

theorem Reached.managed
    (hn : EventLoop.new (.of backend) pool rings handler.recording (state, []) settings = .ok start)
    (hr : Reached start h l) (accepted : l.backend.refusals = 0) : Managed h l := by
  obtain ⟨recording, unrefused⟩ := recording_of_new hn
  have begins := managed_start (l := start) (new_eq_ok hn).2.2.2.2
  obtain ⟨-, -, managed⟩ := hr.invariant chains_advances allows_advances survives_managed
    recording begins
  exact managed (accepted.trans unrefused.symm)

/-- Along every run in which all pushes are accepted, what was pushed for a descriptor since it was
accepted last is work, then at most one shutdown and one close. The table says how far that has
come, and that the tenure is over once the completion of a close has arrived. A step makes no call
for a connection whose end has begun, and pushes nothing for a descriptor without a connection. -/
theorem connections_end_in_order
    (hn : EventLoop.new (.of backend) pool rings handler.recording (state, []) settings = .ok start)
    (hr : Reached start h l) (accepted : l.backend.refusals = 0) (d : Descriptor) :
    Agrees d (tenure d h) (l.connections.get? d) ∧
    (∀ t c, tenure d h = some t → l.connections.get? d = some c →
      (c.state = .opened ↔ .shutdown d ∉ t.pushed ∧ .close d ∉ t.pushed) ∧
      (c.state = .shuttingDown ↔ .shutdown d ∈ t.pushed ∧ .close d ∉ t.pushed) ∧
      (c.state = .closing ↔ .close d ∈ t.pushed)) ∧
    ∀ a o b, h = a ++ o :: b → Settled d a o := by
  have managed := hr.managed hn accepted
  refine ⟨managed.agrees d, fun t c ht hc => ?_, managed.settled d⟩
  have agrees := managed.agrees d
  rw [ht, hc] at agrees
  exact agrees.2.2.state_iff

end

/-- Descriptor 5 has been accepted, and its peer has closed. -/
def afterEnd : Watched Recorder BufferQueue Unit :=
  (exec (dispatch ⟨.onDescriptor 5 .receive, 0, 0⟩)
    (exec (dispatch (.accepted 3 5 true)) echoing).2).2

theorem connections_end_in_order_after_end : ∃ h, Reached echoing h afterEnd ∧
    Agrees 5 (tenure 5 h) (afterEnd.connections.get? 5) ∧
    (tenure 5 h).map (·.pushed) = some [.receive 5 0, .close 5] := by
  have hr : Reached echoing _ afterEnd :=
    (Reached.start.step (.dispatch (.accepted 3 5 true))).step
      (.dispatch ⟨.onDescriptor 5 .receive, 0, 0⟩)
  refine ⟨_, hr, (connections_end_in_order new_echoing hr (by decide +kernel) 5).1, ?_⟩
  decide +kernel

end RingServer.EventLoop
