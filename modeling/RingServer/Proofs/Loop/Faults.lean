import RingServer.Proofs.Loop.Buffers

/-!
Which completions are faults, and what a turn that meets one leaves behind. `objection?` says what
is wrong with a completion at the moment of its dispatch: a receive names a buffer that the group
does not have, or a fixed write a slot that the kernel does not own. A completion that is objected
to changes nothing (`exec_dispatch_of_objection`); on a sound loop the dispatch of any other is done
(`dispatch_ok`), whatever its operation, its result and its flags are. So the dispatch of a batch
stops right at the first objection (`halt?`).
-/

namespace RingServer.EventLoop

variable {β ρ σ : Type}

/-- What is wrong with a completion when it is dispatched, if anything is. -/
def objection? [BufferSource ρ] (c : Completion) (l : EventLoop β ρ σ) : Option Fault :=
  match c.tag.opcode? with
  | some .receive =>
    (c.bufferId?.filter fun id => BufferSource.entries l.ring ≤ id.toNat).map fun id =>
      .bufferNotInKernel (BufferSource.group l.ring) id
  | some .writeFixed =>
    if c.tag.descriptor.toNat > FreeList.maxSlots then some (.slotNotOutstanding 65535)
    else if l.pool.owner? c.tag.descriptor.toUInt16 = some .kernel then none
    else some (.slotNotOutstanding c.tag.descriptor.toUInt16)
  | _ => none

/-- The first objection to a batch, and the loop at that moment. -/
def halt? [Backend β] [BufferSource ρ] :
    List Completion → EventLoop β ρ σ → Option (Fault × EventLoop β ρ σ)
  | [], _ => none
  | c :: batch, l =>
    (objection? c l).elim (halt? batch (exec (dispatch c) l).2) fun e => some (e, l)

/-! ## One completion -/

section

variable [BufferSource ρ] {c : Completion}

theorem objection?_receive (hr : c.tag.opcode? = some .receive) (l : EventLoop β ρ σ) :
    objection? c l =
      (c.bufferId?.filter fun id => BufferSource.entries l.ring ≤ id.toNat).map fun id =>
        .bufferNotInKernel (BufferSource.group l.ring) id := by
  rw [objection?, hr]

theorem objection?_writeFixed (hw : c.tag.opcode? = some .writeFixed) (l : EventLoop β ρ σ) :
    objection? c l = if c.tag.descriptor.toNat > FreeList.maxSlots then
        some (.slotNotOutstanding 65535)
      else if l.pool.owner? c.tag.descriptor.toUInt16 = some .kernel then none
      else some (.slotNotOutstanding c.tag.descriptor.toUInt16) := by
  rw [objection?, hw]

/-- Only completions of receives and of fixed writes are ever objected to. -/
theorem objection?_of_ne (hr : c.tag.opcode? ≠ some .receive)
    (hw : c.tag.opcode? ≠ some .writeFixed) (l : EventLoop β ρ σ) : objection? c l = none := by
  unfold objection?
  split
  next h => exact absurd h hr
  next h => exact absurd h hw
  next => rfl

end

variable [Backend β] {c : Completion} {e : Fault}

/-- A completion that is objected to is a fault, and at most something is told. -/
theorem exec_dispatch_of_objection {l : EventLoop β BufferQueue σ} (h : objection? c l = some e) :
    ∃ events, exec (dispatch c) l = (.error e, { l with events }) := by
  by_cases hr : c.tag.opcode? = some .receive
  · rw [objection?_receive hr] at h
    obtain ⟨id, hid, rfl⟩ := Option.map_eq_some_iff.mp h
    obtain ⟨named, beyond⟩ := Option.filter_eq_some_iff.mp hid
    -- The group has no such buffer, so the kernel does not hold it either.
    have unheld : l.ring.ledger.holder? id ≠ some .kernel := by
      intro held
      have inside := Ledger.lt_size_of_holder? held
      have outside : l.ring.ledger.holder.size ≤ id.toNat := of_decide_eq_true beyond
      omega
    have refused : grasp c l.ring =
        (.error (.bufferNotInKernel l.ring.ledger.group id), l.ring) := by
      have taken : BufferSource.take id c.result.toInt.toNat l.ring = _ :=
        BufferQueue.take_eq_error c.result.toInt.toNat unheld
      rw [grasp, if_pos hr, named]
      simp only [taken]
      rfl
    have other : c.tag.opcode? ≠ some .writeFixed := by simp [hr]
    rcases dispatch_performs other l with ⟨f, hf, performed⟩ | ⟨buffer, hb, -⟩
    · rw [refused] at hf performed
      cases hf
      exact ⟨l.events, performed⟩
    · rw [refused] at hb
      cases hb
  · by_cases hw : c.tag.opcode? = some .writeFixed
    · rw [objection?_writeFixed hw] at h
      split at h
      next beyond =>
        cases h
        exact ⟨l.events, exec_dispatch_writeFixed_of_lt hw beyond⟩
      next within =>
        split at h
        · cases h
        next unowned =>
          cases h
          obtain ⟨events, released⟩ := exec_dispatch_release (l := l) hw (Nat.not_lt.mp within)
          have refused : l.pool.release c.tag.descriptor.toUInt16 =
              .error (.slotNotOutstanding c.tag.descriptor.toUInt16) := by
            unfold SlotPool.release
            split
            next owned => exact absurd owned unowned
            next => rfl
          rw [refused] at released
          exact ⟨events, released⟩
    · rw [objection?_of_ne hr hw] at h
      cases h

/-- On a sound loop the dispatch of a completion that is not objected to is done. -/
theorem dispatch_ok [BufferSource ρ] [KernelSide ρ] [LawfulBuffers ρ] {l : Watched β ρ σ}
    {flying : List UInt16} (h : objection? c l = none) (hl : Recording l)
    (rest : BufferSource.AtRest l.ring) (lends : l.pool.Lends flying)
    (accepted : (exec (dispatch c) l).2.backend.refusals = l.backend.refusals) :
    (exec (dispatch c) l).1 = .ok () := by
  by_cases hw : c.tag.opcode? = some .writeFixed
  · rw [objection?_writeFixed hw] at h
    split at h
    · cases h
    next within =>
      split at h
      next owned =>
        obtain ⟨pool, released, -⟩ := lends.release ((lends.kernel_iff _).mp owned)
        obtain ⟨events, done⟩ := exec_dispatch_release (l := l) hw (Nat.not_lt.mp within)
        rw [released] at done
        rw [done]
      · cases h
  · have inside : c.tag.opcode? = some .receive → ∀ id, c.bufferId? = some id →
        id.toNat < BufferSource.entries l.ring := by
      intro hr id hid
      rw [objection?_receive hr, hid] at h
      by_contra beyond
      simp [Option.filter, Nat.not_lt.mp beyond] at h
    obtain ⟨buffer, taken, -⟩ := grasp_atRest rest inside
    exact (dispatch_done hw hl lends accepted taken rfl).1

/-! ## Batches -/

/-- What a run on a new pool and a new group for connections begins with. -/
structure Begins (n : Nat) (start : Watched β BufferQueue σ) : Prop where
  recording : Recording start
  owned : Owned n [] start
  atRest : BufferSource.AtRest start.ring
  bound : ∀ id ∈ start.ring.waiting, id.toNat < start.ring.ledger.entries

omit [Backend β] in
theorem begins_of_new {backend : β} {pool : SlotPool} {rings : List BufferQueue}
    {handler : Handler σ} {state : σ} {settings : Settings} {granted entrySize entries : Nat}
    {start : Watched β BufferQueue σ} (hp : SlotPool.new granted entrySize entries = .ok pool)
    (hn : EventLoop.new (.of backend) pool rings handler.recording (state, []) settings = .ok start)
    (hr : ∀ q ∈ rings, ∃ group entries size, q = BufferQueue.new group entries size) :
    Begins entries start := by
  obtain ⟨group, count, size, first⟩ := hr start.ring (ring_mem_of_new hn)
  refine ⟨(recording_of_new hn).1, owned_of_new hp hn, ?_, ?_⟩
  · rw [first]
    exact BufferQueue.atRest_new _ _ _
  · rw [first]
    exact fun id => BufferQueue.lt_of_mem_waiting_new

variable {n : Nat} {start l k : Watched β BufferQueue σ} {es : List Handling}
  {batch : List Completion}

/-- No dispatch of a run fails but for an objection, as long as all pushes are accepted. -/
theorem Attended.dispatch_ok (ha : Attended start es l) (hb : Begins n start)
    (h : objection? c l = none)
    (accepted : (exec (dispatch c) l).2.backend.refusals = start.backend.refusals) :
    (exec (dispatch c) l).1 = .ok () := by
  obtain ⟨history, reached⟩ := ha.reached
  obtain ⟨recording, before, owned⟩ := reached.unrefused hb.recording hb.owned
    (Reached.start.step (.dispatch c)) accepted
  have rest := atRest_of_ledger hb.atRest (ha.conserved hb.atRest hb.bound).ledger
  exact EventLoop.dispatch_ok h recording rest owned.lends (accepted.trans before.symm)

/-- A batch is dispatched up to the first objection. -/
theorem Attended.batch_halts (ha : Attended start es l) (hb : Begins n start)
    (accepted : (exec (batch.forM dispatch) l).2.backend.refusals = start.backend.refusals) :
    (halt? batch l = none → (exec (batch.forM dispatch) l).1 = .ok ()) ∧
    ∀ e m, halt? batch l = some (e, m) → ∃ before c after events,
      batch = before ++ c :: after ∧ exec (before.forM dispatch) l = (.ok (), m) ∧
      objection? c m = some e ∧ exec (batch.forM dispatch) l = (.error e, { m with events }) := by
  induction batch generalizing es l with
  | nil => exact ⟨fun _ => rfl, fun _ _ => nofun⟩
  | cons c batch ih =>
    obtain ⟨history, reached⟩ := ha.reached
    have first := reached.first_unrefused hb.recording hb.owned accepted
    have next := ha.step (.dispatch c)
    change (exec (dispatch c >>= fun _ => batch.forM dispatch) l).2.backend.refusals = _ at accepted
    show (_ → (exec (dispatch c >>= fun _ => batch.forM dispatch) l).1 = .ok ()) ∧
      ∀ e m, _ → ∃ before d after events, _ ∧ _ ∧ _ ∧
        exec (dispatch c >>= fun _ => batch.forM dispatch) l = _
    rw [halt?]
    rcases ho : objection? c l with _ | f
    · have done := ha.dispatch_ok hb ho first
      rcases he : exec (dispatch c) l with ⟨x, m⟩
      rw [he] at done next
      cases done
      rw [exec_bind_ok he] at accepted ⊢
      obtain ⟨all, some_halt⟩ := ih next accepted
      refine ⟨all, fun e n h => ?_⟩
      obtain ⟨before, d, after, events, rfl, reached, objected, ended⟩ := some_halt e n h
      exact ⟨c :: before, d, after, events, rfl, (exec_bind_ok he).trans reached, objected, ended⟩
    · obtain ⟨events, ended⟩ := exec_dispatch_of_objection ho
      refine ⟨nofun, fun e m h => ?_⟩
      cases h
      exact ⟨[], c, batch, events, rfl, rfl, ho, exec_bind_error ended⟩

/-! ## Turns -/

section

variable {ρ : Type} {l k : Watched β ρ σ}

theorem Queues.collect {queue : β → List Completion} (hq : Queues queue)
    (hc : exec EventLoop.collect l = (.ok batch, k)) :
    queue l.backend.inner = batch ++ queue k.backend.inner := by
  have waited := hq.wait l.pool.memory 1 l.backend.inner
  unfold EventLoop.collect at hc
  rw [exec_bind_ok (exec_modifyGet _ l)] at hc
  change exec (liftExcept (Backend.wait l.pool.memory 1 l.backend.inner).1 >>= _) _ = _ at hc
  rcases hw : (Backend.wait l.pool.memory 1 l.backend.inner).1 with e | n
  · rw [hw, exec_bind_error (exec_liftExcept _ _)] at hc
    cases hc
  · rw [hw, exec_bind_ok (exec_liftExcept _ _)] at hc
    cases hc
    exact waited.symm.trans (hq.drain _).symm

/-- A batch counts neither turns nor completions. -/
theorem uncounted_batch [BufferSource ρ] (batch : List Completion) :
    Keeps (fun (l : EventLoop β ρ σ) _ m => m.counters.turns = l.counters.turns ∧
      m.counters.completions = l.counters.completions) (batch.forM dispatch) := by
  have composable : Composable fun (l : EventLoop β ρ σ) _ m =>
      m.counters.turns = l.counters.turns ∧ m.counters.completions = l.counters.completions :=
    ⟨fun _ => ⟨rfl, rfl⟩, fun h h' => ⟨h'.1.trans h.1, h'.2.trans h.2⟩⟩
  refine Keeps.forM composable (fun c l => ?_) batch
  have apart := dispatch_apart c l
  exact ⟨apart.turns, apart.completions⟩

/-- A batch leaves the backend as a whole, however the turn ends. -/
theorem Queues.turn [BufferSource ρ] {queue : β → List Completion} (hq : Queues queue)
    (hc : exec EventLoop.collect l = (.ok batch, k)) :
    queue l.backend.inner = batch ++ queue (exec turn l).2.backend.inner := by
  have concluded : Keeps (fun (l : Watched β ρ σ) _ m =>
      queue m.backend.inner = queue l.backend.inner) (conclude batch) := by
    have composable : Composable fun (l : Watched β ρ σ) _ m =>
        queue m.backend.inner = queue l.backend.inner := ⟨fun _ => rfl, fun h h' => h'.trans h⟩
    exact Keeps.conclude composable (fun _ _ => hq.flush _ _) (fun _ _ => rfl) batch
  have dispatched := loaded_batch batch k
  rw [turn_eq, exec_bind_ok hc, hq.collect hc]
  rcases hd : exec (batch.forM dispatch) k with ⟨e | a, n⟩
  · rw [exec_bind_error hd, hq.loaded (dispatched.to_exec hd)]
  · rw [exec_bind_ok hd, concluded n, hq.loaded (dispatched.to_exec hd)]

/-- A turn that submits its batch counts it. -/
theorem exec_conclude (submits : ∀ memory (b : β), ∃ n, (Backend.flush memory b).1 = .ok n)
    (batch : List Completion) (l : Watched β ρ σ) :
    (exec (conclude batch) l).1 = .ok batch.length ∧
      (exec (conclude batch) l).2.counters = { l.counters with
        turns := l.counters.turns + 1
        completions := l.counters.completions + .ofNat batch.length } := by
  obtain ⟨n, submitted⟩ := submits l.pool.memory l.backend.inner
  have flushed := exec_flush l
  change exec flush l = ((Backend.flush l.pool.memory l.backend.inner).1.map _, _) at flushed
  rw [submitted] at flushed
  unfold conclude
  rw [exec_bind_ok flushed]
  exact ⟨rfl, rfl⟩

end

/-- On a new pool and new groups, along every run in which all pushes are accepted, and for every
batch: a turn ends in a fault exactly if some completion of the batch is objected to when its time
comes, and the fault is the first objection. What comes before that completion is done; it and what
comes after it change nothing but the log, and the turn is not counted. However the turn ends, its
batch waits no more in the backend. -/
theorem turns_end_at_first_objection {backend : β} {pool : SlotPool} {rings : List BufferQueue}
    {handler : Handler σ} {state : σ} {settings : Settings} {granted entrySize entries : Nat}
    (hp : SlotPool.new granted entrySize entries = .ok pool)
    (hn : EventLoop.new (.of backend) pool rings handler.recording (state, []) settings = .ok start)
    (hr : ∀ q ∈ rings, ∃ group entries size, q = BufferQueue.new group entries size)
    (submits : ∀ memory (b : β), ∃ n, (Backend.flush memory b).1 = .ok n)
    (ha : Attended start es l) (hc : exec collect l = (.ok batch, k))
    (accepted : (exec turn l).2.backend.refusals = 0) :
    (exec turn l).1 = (halt? batch k).elim (.ok batch.length) (fun halt => .error halt.1) ∧
    (∀ e m, halt? batch k = some (e, m) →
      (∃ before c after, batch = before ++ c :: after ∧
        exec (before.forM dispatch) k = (.ok (), m) ∧ objection? c m = some e) ∧
      (∃ events, (exec turn l).2 = { m with events }) ∧
      m.counters.turns = l.counters.turns ∧ m.counters.completions = l.counters.completions) ∧
    (halt? batch k = none →
      (exec turn l).2.counters.turns = l.counters.turns + 1 ∧
      (exec turn l).2.counters.completions = l.counters.completions + .ofNat batch.length) ∧
    ∀ queue, Queues queue →
      queue l.backend.inner = batch ++ queue (exec turn l).2.backend.inner := by
  have begins := begins_of_new hp hn hr
  have collected := (apart_collect l).to_exec hc
  have idle := (idle_collect l).to_exec hc
  have unrefused : (exec (batch.forM dispatch) k).2.backend.refusals = start.backend.refusals :=
    (refusals_turn hc).trans (accepted.trans (recording_of_new hn).2.symm)
  obtain ⟨all, some_halt⟩ := (ha.rest idle collected.ring collected.spareRings).batch_halts begins
    unrefused
  have uncounted : ∀ {before : List Completion} {m}, exec (before.forM dispatch) k = (.ok (), m) →
      m.counters.turns = l.counters.turns ∧ m.counters.completions = l.counters.completions := by
    intro before m hm
    obtain ⟨turns, completions⟩ := (uncounted_batch before k).to_exec hm
    exact ⟨turns.trans collected.turns, completions.trans collected.completions⟩
  have turned : exec turn l = exec (batch.forM dispatch >>= fun _ => conclude batch) k := by
    rw [turn_eq, exec_bind_ok hc]
  refine ⟨?_, fun e m h => ?_, fun h => ?_, fun queue hq => hq.turn hc⟩
  · rw [turned]
    rcases hh : halt? batch k with _ | ⟨e, m⟩
    · rcases hd : exec (batch.forM dispatch) k with ⟨x, m⟩
      have done := all hh
      rw [hd] at done
      cases done
      rw [exec_bind_ok hd]
      exact (exec_conclude submits batch m).1
    · obtain ⟨-, -, -, events, -, -, -, ended⟩ := some_halt e m hh
      rw [exec_bind_error ended]
      rfl
  · obtain ⟨before, c, after, events, split, reached, objected, ended⟩ := some_halt e m h
    refine ⟨⟨before, c, after, split, reached, objected⟩, ⟨events, ?_⟩, uncounted reached⟩
    rw [turned, exec_bind_error ended]
  · have done := all h
    rcases hd : exec (batch.forM dispatch) k with ⟨x, m⟩
    rw [hd] at done
    cases done
    obtain ⟨turns, completions⟩ := uncounted hd
    have counted := (exec_conclude submits batch m).2
    rw [turned, exec_bind_ok hd, counted]
    exact ⟨by rw [← turns], by rw [← completions]⟩

/-- A line has been logged, and its fixed write is reported twice. -/
def afterEcho : Watched Recorder BufferQueue Unit :=
  ready [⟨.onSlot 1, 30, 0⟩, ⟨.onSlot 1, 30, 0⟩, emptyReport] (exec (writeLog .info "up") echoing).2

/-- The first report gives the slot back, so the second one is objected to. -/
theorem turns_end_at_first_objection_after_echo : ∃ es, Attended echoing es afterEcho ∧
    (exec turn afterEcho).1 = .error (.slotNotOutstanding 1) ∧
    (exec turn afterEcho).2.counters.turns = 0 ∧
    (exec turn afterEcho).2.backend.inner.ready = [] := by
  have logged : Attended echoing _ (exec (writeLog .info "up") echoing).2 :=
    Attended.start.step (.log .info "up")
  have attended : Attended echoing _ afterEcho := logged.rest (idle_ready _ _) rfl rfl
  have collected : exec collect afterEcho =
      (.ok [⟨.onSlot 1, 30, 0⟩, ⟨.onSlot 1, 30, 0⟩, emptyReport], _) := rfl
  obtain ⟨ended, -, -, waiting⟩ := turns_end_at_first_objection new_twoSlots new_echoing
    fresh_buffers (fun _ r => ⟨r.pending, rfl⟩) attended collected (by decide +kernel)
  refine ⟨_, attended, ?_, by decide +kernel, ?_⟩
  · rw [ended]
    decide +kernel
  · exact List.self_eq_append_right.mp (waiting Recorder.ready queues_recorder)

end RingServer.EventLoop
