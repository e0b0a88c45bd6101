import RingServer.Proofs.Loop.Letters
import RingServer.Proofs.Loop.Streams

/-!
What a refused push leaves behind. A slot is lent, a state advanced and a listener noted before the
push that tells the kernel, and nothing of this is undone when the push is refused. So these follow
the attempts of a run, accepted or not (`Accounted`, `attempts_account_for_ownership`): of every
step, all attempts but the last were accepted, and the last may have left a slot, a state or a
listener of which the kernel knows nothing (`refused_push_leaves_phantom`).
-/

namespace RingServer

open Text (Bytes)

namespace EventLoop

variable {β ρ σ : Type}

/-! ## States and deeds -/

section

variable {ds : List Deed} {d : Descriptor} {s : Option ConnectionState}

/-- A connection that is tracked was tracked by a deed or before. -/
theorem tracked_of_foldl {x : ConnectionState} (h : ds.foldl (Deed.onState d) s = some x) :
    .track d ∈ ds ∨ ∃ y, s = some y := by
  induction ds generalizing s with
  | nil => exact Or.inr ⟨x, h⟩
  | cons deed ds ih =>
    rcases ih h with tracked | ⟨y, hy⟩
    · exact Or.inl (List.mem_cons_of_mem _ tracked)
    · by_cases ht : deed = .track d
      · exact Or.inl (ht ▸ List.mem_cons_self)
      · right
        cases s with
        | some z => exact ⟨z, rfl⟩
        | none =>
          cases deed <;> simp [Deed.onState] at hy ht
          exact absurd hy.1 ht

/-- The deed that leads to a state. -/
def Deed.into (d : Descriptor) : ConnectionState → Deed
  | .opened => .track d
  | .shuttingDown => .shutDown d
  | .closing => .close d

theorem into_of_onState {deed : Deed} {x : ConnectionState} (h : deed.onState d s = some x) :
    deed = .into d x ∨ (s = some x ∧ deed ≠ .track d) := by
  cases deed with
  | track fd =>
    by_cases e : fd = d
    · rw [Deed.onState, if_pos e] at h
      cases h
      exact Or.inl (e ▸ rfl)
    · rw [Deed.onState, if_neg e] at h
      exact Or.inr ⟨h, by simpa using e⟩
  | forget fd =>
    by_cases e : fd = d
    · rw [Deed.onState, if_pos e] at h
      cases h
    · rw [Deed.onState, if_neg e] at h
      exact Or.inr ⟨h, by simp⟩
  | shutDown fd | close fd =>
    by_cases e : fd = d
    · rw [Deed.onState, if_pos e] at h
      obtain ⟨y, -, rfl⟩ := Option.map_eq_some_iff.mp h
      exact Or.inl (e ▸ rfl)
    · rw [Deed.onState, if_neg e] at h
      exact Or.inr ⟨h, by simp⟩
  | tally _ _ | armAccept _ | armReceive _ | log _ | answer _ _ | recycle _ | blame =>
    exact Or.inr ⟨h, by simp⟩

/-- A connection is in a state because of a deed, or was so before and is not tracked afresh. -/
theorem into_of_foldl {x : ConnectionState} (h : ds.foldl (Deed.onState d) s = some x) :
    .into d x ∈ ds ∨ (s = some x ∧ .track d ∉ ds) := by
  induction ds generalizing s with
  | nil => exact Or.inr ⟨h, List.not_mem_nil⟩
  | cons deed ds ih =>
    rcases ih h with member | ⟨before, untracked⟩
    · exact Or.inl (List.mem_cons_of_mem _ member)
    · rcases into_of_onState before with rfl | ⟨kept, ne⟩
      · exact Or.inl List.mem_cons_self
      · refine Or.inr ⟨kept, ?_⟩
        rw [List.mem_cons, not_or]
        exact ⟨Ne.symm ne, untracked⟩

end

/-! ## Plans -/

section

variable [BufferSource ρ] {c : Completion} {d : Descriptor} {l : EventLoop β ρ σ}

theorem track_not_mem_aftermath (fd : Descriptor) (t : ConnectionTable) (armed : Bool)
    (outcome : Received) : .track d ∉ aftermath fd t armed outcome := by
  unfold aftermath rearming closing
  repeat' split
  all_goals simp

theorem not_mem_of_inert {ds : List Deed} {deed : Deed} (h : ∀ deed ∈ ds, deed.inert = true)
    (hd : deed.inert = false) : deed ∉ ds := by
  intro member
  rw [h deed member] at hd
  cases hd

/-- Only the completion of an accept that reports a descriptor leads to tracking it. -/
theorem track_mem_planned (h : .track d ∈ planned c l) :
    c.tag.opcode? = some .accept ∧ ¬ c.result < 0 ∧ c.result = d := by
  unfold planned at h
  split at h
  next buffer _ =>
    by_cases hr : c.tag.opcode? = some .receive
    · rw [plan_receive hr, List.mem_append, List.mem_append] at h
      rcases h with h | h | h
      · exact absurd h (not_mem_of_inert (inert_heard _ _ _ _) rfl)
      · exact absurd h (not_mem_of_inert (inert_recycle _) rfl)
      · exact absurd h (track_not_mem_aftermath _ _ _ _)
    · unfold plan access at h
      split at h
      next ha =>
        refine ⟨ha, ?_⟩
        split at h
        · split at h <;> simp at h
        next hn =>
          refine ⟨hn, ?_⟩
          repeat' split at h
          all_goals simpa [eq_comm] using h
      next e => exact absurd e hr
      next =>
        rw [List.mem_cons] at h
        repeat' split at h
        all_goals simp at h
      next => cases h
  next => cases h

/-- Such a completion leads to it first. -/
theorem planned_accept (ha : c.tag.opcode? = some .accept) (hn : ¬ c.result < 0) :
    ∃ rest, planned c l = .track c.result :: rest := by
  have untaken : grasp c l.ring = (.ok none, l.ring) := if_neg (by simp [ha])
  rw [planned, untaken]
  show ∃ rest, plan c none l = _
  unfold plan
  rw [ha]
  simp only [hn, if_false]
  exact ⟨_, rfl⟩

end

/-! ## Along a run -/

/-- The operation that is pushed on the way to a state. -/
def announcement? (d : Descriptor) : ConnectionState → Option Operation
  | .opened => none
  | .shuttingDown => some (.shutdown d)
  | .closing => some (.close d)

/-- States and the listener follow what was tried. -/
structure Accounted (ps : List Posting) (l : Watched (Register β) ρ σ) : Prop where
  states : ∀ d x, l.connections.state? d = some x →
    ∃ t, tenure d (ps.map Posting.tried) = some t ∧
      ∀ op, announcement? d x = some op → op ∈ t.pushed
  listener : ∀ fd, l.listener = some fd →
    ∃ a ∈ ps.flatMap (·.attempts), a.submission.operation = .accept fd

variable {ps : List Posting} {start l m : Watched (Register β) ρ σ} {c : Option Completion}
  {ls : List Letter} {as : List Attempt}

/-- Attempts make the announcements of the deeds that they belong to. -/
theorem announced {d : Descriptor} {x : ConnectionState} {op : Operation} {done : List Deed}
    (controls : as.filterMap (·.control?) = done.filterMap Deed.control?)
    (hd : .into d x ∈ done) (hop : announcement? d x = some op) :
    op ∈ served d (as.map (·.submission)) := by
  -- The operation can be told from what it steers.
  have made : ∀ o, (Deed.into d x).control? = some o →
      ∃ a ∈ as, a.submission.operation.control? = some o := by
    intro o ho
    have member : o ∈ as.filterMap (·.control?) := by
      rw [controls]
      exact List.mem_filterMap.mpr ⟨_, hd, ho⟩
    exact List.mem_filterMap.mp member
  have named : ∀ s : Operation, s.control? = (Deed.into d x).control? → s = op := by
    intro s hs
    cases x <;> cases hop <;> cases s <;> simp_all [Deed.into, Deed.control?, Operation.control?]
  have serves : op.serves d = true := by
    cases x <;> cases hop <;> simp [Operation.serves]
  cases x with
  | opened => cases hop
  | shuttingDown | closing =>
    obtain ⟨a, ha, e⟩ := made _ rfl
    have same := named _ e
    rw [served, List.mem_filter]
    refine ⟨?_, serves⟩
    rw [← same, List.map_map]
    exact List.mem_map_of_mem ha

theorem Accounted.step (ha : Accounted ps l) (done : List Deed)
    (attempts : (posted c ls l m).attempts = as)
    (table : m.connections = done.foldl (Deed.onTable l.peerOf) l.connections)
    (controls : as.filterMap (·.control?) = done.filterMap Deed.control? ∨ done = [])
    (tracks : ∀ d, .track d ∈ done ↔ (posted c ls l m).tried.accepts d = true)
    (listener : ∀ fd, m.listener = some fd → l.listener = some fd ∨
      ∃ a ∈ as, a.submission.operation = .accept fd) :
    Accounted (ps ++ [posted c ls l m]) m := by
  constructor
  · intro d x hx
    rw [table, state?_foldl] at hx
    have more : tenure d ((ps ++ [posted c ls l m]).map Posting.tried) =
        (if (posted c ls l m).tried.accepts d then some (.begin (l.peerOf d))
          else tenure d (ps.map Posting.tried)).map
            (Tenure.extend d (posted c ls l m).tried) := by
      rw [List.map_append, List.map_singleton, tenure_append]
      rfl
    have adds : ∀ t op, op ∈ served d (as.map (·.submission)) →
        op ∈ (Tenure.extend d (posted c ls l m).tried t).pushed := by
      intro t op hop
      refine List.mem_append_right _ ?_
      rw [← attempts] at hop
      exact hop
    have announces : ∀ op, announcement? d x = some op → .into d x ∈ done →
        op ∈ served d (as.map (·.submission)) := by
      intro op hop hd
      rcases controls with controls | rfl
      · exact announced controls hd hop
      · cases hd
    by_cases accepts : (posted c ls l m).tried.accepts d = true
    · rw [more, if_pos accepts]
      refine ⟨_, rfl, fun op hop => adds _ op (announces op hop ?_)⟩
      rcases into_of_foldl hx with member | ⟨-, untracked⟩
      · exact member
      · exact absurd ((tracks d).mpr accepts) untracked
    · have untracked : .track d ∉ done := mt (tracks d).mp accepts
      rw [more, if_neg accepts]
      rcases tracked_of_foldl hx with member | ⟨y, hy⟩
      · exact absurd member untracked
      obtain ⟨t, ht, before⟩ := ha.states d y hy
      rw [ht]
      refine ⟨_, rfl, fun op hop => ?_⟩
      rcases into_of_foldl hx with member | ⟨same, -⟩
      · exact adds _ op (announces op hop member)
      · rw [hy] at same
        cases same
        exact List.mem_append_left _ (before op hop)
  · intro fd hfd
    rw [List.flatMap_append, List.flatMap_singleton, attempts]
    rcases listener fd hfd with before | ⟨a, member, e⟩
    · obtain ⟨a, member, e⟩ := ha.listener fd before
      exact ⟨a, List.mem_append_left _ member, e⟩
    · exact ⟨a, List.mem_append_right _ member, e⟩

theorem accounted_start (hc : l.connections = .empty) (hl : l.listener = none) :
    Accounted [] l := by
  refine ⟨fun d x hx => ?_, fun fd hfd => ?_⟩
  · rw [hc] at hx
    cases hx
  · rw [hl] at hfd
    cases hfd

/-- A step that changes neither connections nor the listener. -/
theorem Accounted.steady (ha : Accounted ps l) (as : List Attempt)
    (attempts : m.backend.inner.attempts = l.backend.inner.attempts ++ as)
    (table : m.connections = l.connections)
    (accepts : ∀ d, (posted c ls l m).tried.accepts d = false)
    (listener : ∀ fd, m.listener = some fd → l.listener = some fd ∨
      ∃ a ∈ as, a.submission.operation = .accept fd) :
    Accounted (ps ++ [posted c ls l m]) m := by
  refine ha.step [] (posted_attempts attempts) table (Or.inr rfl) (fun d => ?_) listener
  rw [accepts d]
  simp

theorem accept_of_control? {s : Submission} {fd : Descriptor}
    (h : s.control? = some (.accept, fd)) : s.operation = .accept fd := by
  obtain ⟨tag, operation⟩ := s
  cases operation <;> simp_all [Submission.control?, Operation.control?]

section

variable [Backend β] [BufferSource ρ] {size : Nat}

theorem Posted.accounted (h0 : Upheld size [] start) (ha : Accounted [] start)
    (hp : Posted start ps l) : Accounted ps l := by
  induction hp with
  | start => exact ha
  | listen fd hp ih =>
    obtain ⟨as, x, tried, table, listener, -⟩ := tries_listen fd (hp.upheld h0).lends
    refine ih.steady as tried.attempts table (fun d => rfl) fun fd' hfd => Or.inr ?_
    rw [listener] at hfd
    cases hfd
    have member : (Opcode.accept, fd) ∈ as.filterMap (·.control?) := by
      rw [tried.controls]
      exact List.mem_singleton_self _
    obtain ⟨a, member, e⟩ := List.mem_filterMap.mp member
    exact ⟨a, member, accept_of_control? e⟩
  | @log ps l level message hp ih =>
    obtain ⟨as, tried, -⟩ := tries_writeLog level message (hp.upheld h0).lends
    have spared := spares_writeLog level message l
    refine ih.steady as tried.attempts spared.connections (fun d => rfl) fun fd hfd => Or.inl ?_
    rw [← spared.listener]
    exact hfd
  | @dispatch ps l c hp ih =>
    by_cases hw : c.tag.opcode? = some .writeFixed
    · obtain ⟨pool, -, -, -, aside⟩ := dispatch_released hw (hp.upheld h0).lends
      refine ih.steady [] ?_ ?_ (fun d => ?_) fun fd hfd => Or.inl ?_
      · rw [aside, List.append_nil]
      · rw [aside]
      · rw [Bool.eq_false_iff, ne_eq]
        intro e
        have accepts := (Occurrence.accepts_some.mp e).1
        rw [hw] at accepts
        cases accepts
      · rw [aside] at hfd
        exact hfd
    · obtain ⟨done, as, x, tried⟩ := dispatch_tried hw (hp.upheld h0).lends
      refine ih.step done (posted_attempts tried.tries.attempts) tried.connections
        (Or.inl tried.tries.controls) (fun d => ?_) fun fd hfd => Or.inl ?_
      · constructor
        · intro member
          exact Occurrence.accepts_some.mpr (track_mem_planned (tried.begins.subset member))
        · intro e
          obtain ⟨accept, fine, rfl⟩ := Occurrence.accepts_some.mp e
          obtain ⟨rest, planned⟩ := planned_accept (l := l) accept fine
          obtain ⟨more, e⟩ := tried.begins
          have some_done := tried.some
          rw [planned] at e some_done
          cases done with
          | nil => cases some_done rfl
          | cons first done =>
            cases e
            exact List.mem_cons_self
      · rw [tried.listener] at hfd
        exact hfd
  | idle _ hi ha hl ih =>
    refine ⟨?_, ?_⟩
    · rw [hi.connections]
      exact ih.states
    · rw [hl]
      exact ih.listener

omit [Backend β] in
theorem listener_of_new {backend : β} {pool : SlotPool} {rings : List ρ} {handler : Handler σ}
    {state : σ} {settings : Settings} {l : EventLoop β ρ σ}
    (h : EventLoop.new backend pool rings handler state settings = .ok l) : l.listener = none := by
  rw [(eq_of_new h).2.2]

/-- On a new pool, along every run, whatever is refused: the kernel owns a slot exactly if a fixed
write from it was tried and none has been completed since, and nothing stays with the application;
a connection that is shutting down or closing has had that tried since it was accepted last; and
for the descriptor that is listened on an accept was tried. Of what a step tries, all but the last
is accepted, and what is accepted is pushed. -/
theorem attempts_account_for_ownership {backend : β} {pool : SlotPool} {rings : List ρ}
    {handler : Handler σ} {state : σ} {settings : Settings} {granted entrySize entries : Nat}
    (hp : SlotPool.new granted entrySize entries = .ok pool)
    (hn : EventLoop.new (.of (.of backend)) pool rings handler.recording (state, []) settings =
      .ok start)
    (hr : Posted start ps l) :
    (∀ i, l.pool.owner? i = some .kernel ↔ i ∈ inFlight (ps.map Posting.tried)) ∧
    (∀ i, l.pool.owner? i ≠ some .app) ∧
    (∀ d x, l.connections.get? d = some x → ∃ t, tenure d (ps.map Posting.tried) = some t ∧
      (x.state = .shuttingDown → .shutdown d ∈ t.pushed) ∧
      (x.state = .closing → .close d ∈ t.pushed)) ∧
    (∀ fd, l.listener = some fd → ∃ p ∈ ps, .accept fd ∈ p.tried.pushed.map (·.operation)) ∧
    ∀ p ∈ ps, (∀ a ∈ p.attempts.dropLast, a.accepted = true) ∧
      p.occurrence.pushed = (p.attempts.filter (·.accepted)).map (·.submission) := by
  obtain ⟨-, -, -, -, hc⟩ := new_eq_ok hn
  have begins := upheld_of_new hp hn
  have upheld := hr.upheld begins
  have accounted := hr.accounted begins (accounted_start hc (listener_of_new hn))
  refine ⟨upheld.lends.kernel_iff, upheld.lends.unheld, fun d x hx => ?_, fun fd hfd => ?_,
    fun p hp => ⟨(upheld.sound p hp).last, (upheld.sound p hp).pushed⟩⟩
  · obtain ⟨t, ht, announced⟩ := accounted.states d x.state
      (by rw [ConnectionTable.state?, hx, Option.map_some])
    exact ⟨t, ht, fun e => announced _ (by rw [e]; rfl), fun e => announced _ (by rw [e]; rfl)⟩
  · obtain ⟨a, ha, e⟩ := accounted.listener fd hfd
    obtain ⟨p, hp, ha⟩ := List.mem_flatMap.mp ha
    refine ⟨p, hp, ?_⟩
    rw [← e, Posting.tried, List.map_map]
    exact List.mem_map_of_mem ha

end

/-- A new loop over two slots, with a queue that takes one submission and no more. -/
def narrow : Watched (Register Recorder) BufferQueue Unit :=
  (EventLoop.new (.of (.of { Recorder.new with limit := some 1 })) twoSlots
    [BufferQueue.new 0 4 64] (ReplyMode.handler .echo).recording ((), [])
    { Settings.default with accessLog := false }).toOption.get rfl

theorem new_narrow : EventLoop.new (.of (.of { Recorder.new with limit := some 1 })) twoSlots
    [BufferQueue.new 0 4 64] (ReplyMode.handler .echo).recording ((), [])
    { Settings.default with accessLog := false } = .ok narrow := rfl

/-- Descriptor 5 has been accepted, and its receive stream is all that the queue takes. -/
def afterAccept : Watched (Register Recorder) BufferQueue Unit :=
  (exec (dispatch (.accepted 3 5 true)) narrow).2

/-- The log line of which the queue takes nothing. -/
def afterRefusal : Watched (Register Recorder) BufferQueue Unit :=
  (exec (writeLog .info "up") afterAccept).2

theorem posted_afterAccept : ∃ ps, Posted narrow ps afterAccept :=
  ⟨_, Posted.start.dispatch (.accepted 3 5 true)⟩

theorem attempts_account_for_ownership_after_refusal : ∃ ps, Posted narrow ps afterRefusal ∧
    (afterRefusal.pool.owner? 1 = some .kernel ↔ 1 ∈ inFlight (ps.map Posting.tried)) ∧
    1 ∉ inFlight (ps.map (·.occurrence)) := by
  have hr : Posted narrow _ afterRefusal :=
    (Posted.start.dispatch (.accepted 3 5 true)).log .info "up"
  refine ⟨_, hr, (attempts_account_for_ownership new_twoSlots new_narrow hr).1 1, ?_⟩
  decide +kernel

/-- Each of four operations ends because its push is refused: a log line, the end of a connection,
a malformed message, and listening. Each leaves what it changed before: a slot that the kernel is
to own, a connection that is closing or shutting down, and a descriptor that is listened on. The
receive stream is all that was ever accepted. -/
theorem refused_push_leaves_phantom : (∃ ps, Posted narrow ps afterAccept) ∧
    afterAccept.backend.pushed.map (·.operation) = [.receive 5 0] ∧
    (fault? (exec (writeLog .info "up") afterAccept).1 = some .queueFull ∧
      (exec (writeLog .info "up") afterAccept).2.backend.pushed = afterAccept.backend.pushed ∧
      (exec (writeLog .info "up") afterAccept).2.pool.owner? 1 = some .kernel) ∧
    (fault? (exec (dispatch ⟨.onDescriptor 5 .receive, 0, 0⟩) afterAccept).1 = some .queueFull ∧
      (exec (dispatch ⟨.onDescriptor 5 .receive, 0, 0⟩) afterAccept).2.backend.pushed =
        afterAccept.backend.pushed ∧
      (exec (dispatch ⟨.onDescriptor 5 .receive, 0, 0⟩) afterAccept).2.connections.state? 5 =
        some .closing) ∧
    (fault? (exec (dispatch ⟨.onDescriptor 5 .receive, 1, Completion.moreFlag⟩) afterAccept).1 =
        some .queueFull ∧
      (exec (dispatch ⟨.onDescriptor 5 .receive, 1, Completion.moreFlag⟩)
        afterAccept).2.backend.pushed = afterAccept.backend.pushed ∧
      (exec (dispatch ⟨.onDescriptor 5 .receive, 1, Completion.moreFlag⟩)
        afterAccept).2.connections.state? 5 = some .shuttingDown) ∧
    fault? (exec (listen 3) afterAccept).1 = some .queueFull ∧
      (exec (listen 3) afterAccept).2.backend.pushed = afterAccept.backend.pushed ∧
      (exec (listen 3) afterAccept).2.listener = some 3 := by
  refine ⟨posted_afterAccept, ?_⟩
  decide +kernel

end EventLoop

end RingServer
