import RingServer.Proofs.Loop.History
import RingServer.Proofs.Loop.Plan

/-!
What a dispatch does to the buffers, whether it ends in a fault or not. All parts of it but two keep
away from them (`Apart`): at its beginning a receive takes the buffer that its completion names, and
once it is known what the receive means, the buffer goes back, also after a fault. So what becomes
of the group is said by the completion alone (`settled`). The rest of a turn leaves the buffers
alone.
-/

namespace RingServer.EventLoop

open Text (Bytes)

variable {β ρ σ α : Type}

/-- The buffers are as they were, and so is what only a whole turn counts. -/
structure Apart (l : EventLoop β ρ σ) (_ : Option Fault) (m : EventLoop β ρ σ) : Prop where
  ring : m.ring = l.ring
  spareRings : m.spareRings = l.spareRings
  turns : m.counters.turns = l.counters.turns
  completions : m.counters.completions = l.counters.completions

theorem apart_composable : Composable (Apart : StepRelation β ρ σ) where
  refl _ := ⟨rfl, rfl, rfl, rfl⟩
  trans h h' := ⟨h'.ring.trans h.ring, h'.spareRings.trans h.spareRings,
    h'.turns.trans h.turns, h'.completions.trans h.completions⟩

/-! ## Small steps -/

theorem apart_pure (a : α) : Keeps (Apart : StepRelation β ρ σ) (pure a) :=
  Keeps.pure apart_composable a

theorem apart_emit (level : Level) (message : String) (fields : List (String × String)) :
    Keeps (Apart : StepRelation β ρ σ) (emit level message fields) :=
  fun _ => ⟨rfl, rfl, rfl, rfl⟩

theorem apart_count {f : Counters → Counters}
    (hf : ∀ n, (f n).turns = n.turns ∧ (f n).completions = n.completions) :
    Keeps (Apart : StepRelation β ρ σ) (count f) :=
  fun l => ⟨rfl, rfl, (hf l.counters).1, (hf l.counters).2⟩

theorem apart_liftExcept (x : Except Fault α) :
    Keeps (Apart : StepRelation β ρ σ) (liftExcept x) := by
  intro l
  rw [Ends, exec_liftExcept]
  exact ⟨rfl, rfl, rfl, rfl⟩

theorem apart_acquireSlot : Keeps (Apart : StepRelation β ρ σ) acquireSlot :=
  fun _ => ⟨rfl, rfl, rfl, rfl⟩

theorem apart_updateTable (f : ConnectionTable → Bool × ConnectionTable) :
    Keeps (Apart : StepRelation β ρ σ) (updateTable f) :=
  fun _ => ⟨rfl, rfl, rfl, rfl⟩

section

variable [Backend β]

theorem apart_submit (tag : Tag) (operation : Operation) :
    Keeps (Apart : StepRelation β ρ σ) (submit tag operation) := by
  intro l
  rw [Ends, exec_submit]
  exact ⟨rfl, rfl, rfl, rfl⟩

/-! ## What is sent -/

theorem apart_sendSlot (fd : Descriptor) (slot : Slot) (length : Nat) :
    Keeps (Apart : StepRelation β ρ σ) (sendSlot fd slot length) := by
  refine Keeps.bind apart_composable (Keeps.get_bind fun l => ?_) fun loan => apart_submit _ _
  exact Keeps.bind apart_composable (apart_liftExcept _) (fun _ _ => ⟨rfl, rfl, rfl, rfl⟩) l

theorem apart_writeLog (level : Level) (message : String) :
    Keeps (Apart : StepRelation β ρ σ) (writeLog level message) := by
  refine Keeps.bind apart_composable apart_acquireSlot fun slot => ?_
  cases slot with
  | none =>
    exact Keeps.bind apart_composable (apart_count fun _ => ⟨rfl, rfl⟩) fun _ => apart_emit _ _ _
  | some slot =>
    refine Keeps.bind apart_composable (fun _ => ⟨rfl, rfl, rfl, rfl⟩) fun now => ?_
    refine Keeps.bind apart_composable (fun _ => ⟨rfl, rfl, rfl, rfl⟩) fun length => ?_
    exact Keeps.bind apart_composable (apart_sendSlot _ _ _) fun _ =>
      apart_count fun _ => ⟨rfl, rfl⟩

theorem apart_writeAccess (message : String) :
    Keeps (Apart : StepRelation β ρ σ) (writeAccess message) :=
  Keeps.writeAccess apart_composable apart_writeLog message

theorem apart_queueReply (fd : Descriptor) (reply : Reply) :
    Keeps (Apart : StepRelation β ρ σ) (queueReply fd reply) := by
  have counted : Keeps (Apart : StepRelation β ρ σ) countReply := apart_count fun _ => ⟨rfl, rfl⟩
  cases reply with
  | nothing => exact apart_pure ()
  | fixed bytes => exact Keeps.bind apart_composable (apart_submit _ _) fun _ => counted
  | copied bytes =>
    have sending : ∀ slot length, Keeps (Apart : StepRelation β ρ σ)
        (sendSlot fd slot length >>= fun _ => countReply) := fun slot length =>
      Keeps.bind apart_composable (apart_sendSlot _ _ _) fun _ => counted
    refine Keeps.bind apart_composable apart_acquireSlot fun slot => ?_
    cases slot with
    | none =>
      exact Keeps.bind apart_composable (apart_count fun _ => ⟨rfl, rfl⟩) fun _ =>
        apart_emit _ _ _
    | some slot =>
      refine Keeps.get_bind fun l => Keeps.bind apart_composable ?_ (fun _ => ?_) l
      · exact fun _ => ⟨rfl, rfl, rfl, rfl⟩
      refine Keeps.ite ?_ (sending _ _)
      exact Keeps.bind apart_composable (apart_count fun _ => ⟨rfl, rfl⟩) fun _ =>
        Keeps.bind apart_composable (apart_emit _ _ _) fun _ => sending _ _

theorem apart_answer (fd : Descriptor) (payload : Bytes) :
    Keeps (Apart : StepRelation β ρ σ) (answer fd payload) :=
  Keeps.bind apart_composable (fun _ => ⟨rfl, rfl, rfl, rfl⟩) fun reply => apart_queueReply fd reply

theorem apart_closeConnection (fd : Descriptor) :
    Keeps (Apart : StepRelation β ρ σ) (closeConnection fd) :=
  Keeps.bind apart_composable (apart_updateTable _) fun _ =>
    Keeps.ite (apart_submit _ _) (apart_pure ())

theorem apart_shutdownConnection (fd : Descriptor) (armed : Bool) :
    Keeps (Apart : StepRelation β ρ σ) (shutdownConnection fd armed) := by
  refine Keeps.ite (apart_closeConnection fd) ?_
  exact Keeps.bind apart_composable (apart_updateTable _) fun _ =>
    Keeps.ite (apart_submit _ _) (apart_pure ())

theorem apart_handle (fd : Descriptor) (peer : Option SocketAddress) (id : UInt16)
    (payload : Bytes) : Keeps (Apart : StepRelation β ρ σ) (handle fd peer id payload) := by
  refine Keeps.bind apart_composable (fun _ => ⟨rfl, rfl, rfl, rfl⟩) fun _ => ?_
  refine Keeps.bind apart_composable (apart_count fun _ => ⟨rfl, rfl⟩) fun _ => ?_
  refine Keeps.bind apart_composable (apart_emit _ _ _) fun _ => ?_
  exact Keeps.bind apart_composable (apart_writeAccess _) fun _ => apart_answer fd payload

variable [BufferSource ρ]

theorem apart_armReceive (fd : Descriptor) :
    Keeps (Apart : StepRelation β ρ σ) (armReceive fd) :=
  Keeps.get_bind fun l => apart_submit _ _ l

theorem apart_rearmOrClose (fd : Descriptor) :
    Keeps (Apart : StepRelation β ρ σ) (rearmOrClose fd) := by
  refine Keeps.get_bind fun l => Keeps.ite ?_ (apart_closeConnection fd) l
  exact Keeps.bind apart_composable (apart_count fun _ => ⟨rfl, rfl⟩) fun _ =>
    Keeps.bind apart_composable (apart_emit _ _ _) fun _ => apart_armReceive fd

/-! ## Receives -/

theorem apart_deliver (fd : Descriptor) (buffer : ReceivedBuffer) :
    Keeps (Apart : StepRelation β ρ σ) (deliver fd buffer) := by
  refine Keeps.get_bind fun l => ?_
  split
  next => exact apart_pure _ l
  next envelope _ =>
    refine Keeps.ite (apart_pure _) (Keeps.ite (apart_pure _) ?_) l
    split
    · exact Keeps.bind apart_composable (apart_emit _ _ _) fun _ => apart_pure _
    · exact Keeps.bind apart_composable (apart_handle _ _ _ _) fun _ => apart_pure _

theorem apart_receiveOutcome (fd : Descriptor) (result : Int32)
    (buffer : Option ReceivedBuffer) :
    Keeps (Apart : StepRelation β ρ σ) (receiveOutcome fd result buffer) := by
  refine Keeps.ite (apart_pure _) (Keeps.ite (apart_pure _) (Keeps.ite (apart_pure _) ?_))
  refine Keeps.get_bind fun l => Keeps.ite (apart_pure _) ?_ l
  cases buffer with
  | none => exact apart_pure _
  | some buffer => exact apart_deliver fd buffer

theorem apart_concludeReceive (fd : Descriptor) (armed : Bool) (outcome : Received) :
    Keeps (Apart : StepRelation β ρ σ) (concludeReceive fd armed outcome) := by
  have unless_armed : ∀ {f : LoopM β ρ σ Unit}, Keeps Apart f →
      Keeps Apart (if armed then pure () else f) := fun hf => Keeps.ite (apart_pure ()) hf
  cases outcome with
  | delivered => exact unless_armed (apart_rearmOrClose fd)
  | noBuffers =>
    exact Keeps.bind apart_composable (apart_count fun _ => ⟨rfl, rfl⟩) fun _ =>
      Keeps.bind apart_composable (apart_emit _ _ _) fun _ =>
        unless_armed (apart_rearmOrClose fd)
  | ended =>
    exact Keeps.bind apart_composable (apart_emit _ _ _) fun _ => apart_closeConnection fd
  | failed errno =>
    exact Keeps.bind apart_composable (apart_emit _ _ _) fun _ =>
      unless_armed (apart_closeConnection fd)
  | malformed cause =>
    exact Keeps.bind apart_composable (apart_count fun _ => ⟨rfl, rfl⟩) fun _ =>
      Keeps.bind apart_composable (apart_emit _ _ _) fun _ => apart_shutdownConnection fd armed

/-- What becomes of a group when a completion is dispatched: the buffer that a receive brings is
taken and goes back. -/
def settled (c : Completion) (ring : ρ) : ρ :=
  match grasp c ring with
  | (.ok (some b), taken) => BufferSource.recycle b taken
  | (_, taken) => taken

theorem settled_of_ne {c : Completion} (h : c.tag.opcode? ≠ some .receive) (ring : ρ) :
    settled c ring = ring := by
  rw [settled, grasp, if_neg h]

/-- Whatever a receive means and however it ends, its buffer goes back. -/
theorem apart_onReceive {c : Completion} (h : c.tag.opcode? = some .receive) (fd : Descriptor)
    (l : EventLoop β ρ σ) : Apart { l with ring := settled c l.ring }
      (fault? (exec (onReceive fd c) l).1) (exec (onReceive fd c) l).2 := by
  rw [exec_onReceive, exec_takeBuffer c h]
  rcases hg : grasp c l.ring with ⟨e | buffer, taken⟩
  · rw [settled, hg]
    exact ⟨rfl, rfl, rfl, rfl⟩
  have goes : settled c l.ring = (returned buffer { l with ring := taken }).ring := by
    rw [settled, hg]
    cases buffer <;> rfl
  -- What keeps away from the buffers may come before one goes back, or after it.
  have back : ∀ {x n}, Apart { l with ring := taken } x n →
      ∀ {y}, Apart { l with ring := settled c l.ring } y (returned buffer n) := by
    intro x n hn y
    rw [goes]
    cases buffer with
    | none => exact ⟨hn.ring, hn.spareRings, hn.turns, hn.completions⟩
    | some b =>
      exact ⟨congrArg (BufferSource.recycle b) hn.ring, hn.spareRings, hn.turns, hn.completions⟩
  have judged := apart_receiveOutcome fd c.result buffer { l with ring := taken }
  simp only []
  rcases ho : exec (receiveOutcome fd c.result buffer) { l with ring := taken } with
    ⟨e | outcome, n⟩
  · exact back (judged.to_exec ho)
  · exact apart_composable.trans (back (judged.to_exec ho))
      (apart_concludeReceive fd c.hasMore outcome _)

/-! ## Other completions -/

omit [Backend β] [BufferSource ρ] in
theorem apart_track (fd : Descriptor) (peer : Option SocketAddress) :
    Keeps (Apart : StepRelation β ρ σ) (track fd peer) := by
  refine Keeps.bind apart_composable (apart_updateTable _) fun _ => Keeps.ite (apart_pure ()) ?_
  exact Keeps.bind apart_composable (apart_emit _ _ _) fun _ =>
    Keeps.bind apart_composable (apart_updateTable _) fun _ => apart_pure ()

theorem apart_onAccept (listener : Descriptor) (c : Completion) :
    Keeps (Apart : StepRelation β ρ σ) (onAccept listener c) := by
  have rearm : Keeps (Apart : StepRelation β ρ σ) (if (!c.hasMore) = true then do
      count fun n => { n with acceptRearms := n.acceptRearms + 1 }
      emit .debug "re-arming multishot accept" [("fd", toString listener)]
      armAccept listener
    else pure ()) := by
    refine Keeps.ite ?_ (apart_pure ())
    exact Keeps.bind apart_composable (apart_count fun _ => ⟨rfl, rfl⟩) fun _ =>
      Keeps.bind apart_composable (apart_emit _ _ _) fun _ => apart_submit _ _
  refine Keeps.ite ?_ (Keeps.get_bind fun l => ?_)
  · exact Keeps.bind apart_composable (apart_count fun _ => ⟨rfl, rfl⟩) fun _ =>
      Keeps.bind apart_composable (apart_emit _ _ _) fun _ => rearm
  · refine Keeps.bind apart_composable (apart_track _ _) (fun _ => ?_) l
    refine Keeps.bind apart_composable (apart_count fun _ => ⟨rfl, rfl⟩) fun _ => ?_
    refine Keeps.bind apart_composable (apart_emit _ _ _) fun _ => ?_
    refine Keeps.bind apart_composable (apart_armReceive _) fun _ => ?_
    exact Keeps.bind apart_composable (apart_writeAccess _) fun _ => rearm

omit [Backend β] [BufferSource ρ] in
theorem apart_onWriteFixed (descriptor : UInt32) (c : Completion) :
    Keeps (Apart : StepRelation β ρ σ) (onWriteFixed descriptor c) := by
  have release : Keeps (Apart : StepRelation β ρ σ) (do
      let pool ← liftExcept ((← get).pool.release descriptor.toUInt16)
      modify fun l => { l with pool }) := by
    refine Keeps.get_bind fun l => ?_
    exact Keeps.bind apart_composable (apart_liftExcept _) (fun _ _ => ⟨rfl, rfl, rfl, rfl⟩) l
  refine Keeps.ite (fun l => ?_) (Keeps.ite ?_ release)
  · rw [Ends, exec_bind_error (exec_throw _ l)]
    exact ⟨rfl, rfl, rfl, rfl⟩
  · exact Keeps.bind apart_composable (apart_emit _ _ _) fun _ => release

omit [BufferSource ρ] in
theorem apart_onClose (fd : Descriptor) (c : Completion) :
    Keeps (Apart : StepRelation β ρ σ) (onClose fd c) := by
  have farewells : ∀ x, Keeps (Apart : StepRelation β ρ σ) (farewell fd x) := by
    intro x
    cases x with
    | none => exact apart_emit _ _ _
    | some x =>
      exact Keeps.bind apart_composable (apart_count fun _ => ⟨rfl, rfl⟩) fun _ =>
        Keeps.bind apart_composable (apart_emit _ _ _) fun _ => apart_writeAccess _
  have forget : Keeps (Apart : StepRelation β ρ σ) (modifyGet (fun l =>
      (l.connections.get? fd, untracked fd l)) >>= farewell fd) :=
    Keeps.bind apart_composable (fun _ => ⟨rfl, rfl, rfl, rfl⟩) farewells
  refine Keeps.ite ?_ forget
  exact Keeps.bind apart_composable (apart_emit _ _ _) fun _ => forget

/-- What a dispatch does to the buffers is said by its completion, and no dispatch counts what only
a whole turn counts. -/
theorem dispatch_apart (c : Completion) (l : EventLoop β ρ σ) :
    Apart { l with ring := settled c l.ring } (fault? (exec (dispatch c) l).1)
      (exec (dispatch c) l).2 := by
  by_cases hr : c.tag.opcode? = some .receive
  · unfold dispatch
    rw [hr]
    exact apart_onReceive hr _ l
  rw [settled_of_ne hr]
  unfold dispatch
  rcases ho : c.tag.opcode? with _ | op
  · exact Keeps.bind apart_composable
      (apart_count (f := fun n => { n with unknown := n.unknown + 1 }) fun _ => ⟨rfl, rfl⟩)
      (fun _ => apart_emit .debug "ignoring completion with unknown opcode"
        [("user_data", toString c.tag.word), ("opcode", toString c.tag.opcodeByte)]) l
  have acknowledge : Keeps (Apart : StepRelation β ρ σ) (if c.result < 0 then
      emit .debug "operation failed" [("fd", toString c.tag.descriptor), ("op", op.name),
        ("errno", toString (-c.result))] else pure ()) :=
    Keeps.ite (apart_emit _ _ _) (apart_pure ())
  cases op with
  | accept => exact apart_onAccept _ c l
  | receive => exact absurd ho hr
  | writeFixed => exact apart_onWriteFixed _ c l
  | close => exact apart_onClose _ c l
  | listen | write | send | shutdown => exact acknowledge l

omit [BufferSource ρ] in
theorem apart_listen (fd : Descriptor) : Keeps (Apart : StepRelation β ρ σ) (listen fd) :=
  Keeps.listen apart_composable (fun _ => ⟨rfl, rfl, rfl, rfl⟩) (apart_submit _ _)
    (fun _ _ => ⟨rfl, rfl, rfl, rfl⟩) fun _ _ => ⟨rfl, rfl, rfl, rfl⟩

/-! ## The rest of a turn -/

omit [BufferSource ρ] in
theorem apart_collect : Keeps (Apart : StepRelation β ρ σ) collect :=
  Keeps.collect apart_composable (fun _ _ => ⟨rfl, rfl, rfl, rfl⟩)
    (fun _ => ⟨rfl, rfl, rfl, rfl⟩) fun _ => ⟨rfl, rfl, rfl, rfl⟩

omit [BufferSource ρ] in
theorem rings_conclude (batch : List Completion) (l : EventLoop β ρ σ) :
    (exec (conclude batch) l).2.ring = l.ring ∧
      (exec (conclude batch) l).2.spareRings = l.spareRings := by
  have composable : Composable fun (l : EventLoop β ρ σ) _ m =>
      m.ring = l.ring ∧ m.spareRings = l.spareRings :=
    ⟨fun _ => ⟨rfl, rfl⟩, fun h h' => ⟨h'.1.trans h.1, h'.2.trans h.2⟩⟩
  exact Keeps.conclude composable (fun _ _ => ⟨rfl, rfl⟩) (fun _ _ => ⟨rfl, rfl⟩) batch l

end

end RingServer.EventLoop
