import RingServer.Proofs.Loop.Dispatch

/-!
What a dispatch sees of its backend: the answers to its pushes, and nothing else. Nor does it see
how many turns there were. Two backends that answer every push alike and stay alike, in the sense of
a relation `T` (`Answers T`), can be put in each other's place (`swap`): the dispatch does the same,
and only the backends differ afterwards (`blind_dispatch`). Each of its steps is blind in this
sense, and steps that are blind compose (`Blind.bind`).
-/

namespace RingServer.EventLoop

open Text (Bytes)

variable {β ρ σ α γ : Type}

/-- The loop with another backend, and other counts of turns and of completions. -/
def swap (b : β) (turns completions : UInt64) (l : EventLoop β ρ σ) : EventLoop β ρ σ :=
  { l with backend := b, counters := { l.counters with turns, completions } }

/-- Backends that belong together answer a push alike, and belong together afterwards. -/
def Answers [Backend β] (T : β → β → Prop) : Prop := ∀ memory s b b', T b b' →
  (Backend.push memory s b).1 = (Backend.push memory s b').1 ∧
    T (Backend.push memory s b).2 (Backend.push memory s b').2

/-- From this loop, the step does the same on every backend that belongs with the one at hand. -/
def BlindAt (T : β → β → Prop) (f : LoopM β ρ σ α) (l : EventLoop β ρ σ) : Prop :=
  ∀ b turns completions, T l.backend b → ∃ b', T (exec f l).2.backend b' ∧
    exec f (swap b turns completions l) =
      ((exec f l).1, swap b' turns completions (exec f l).2)

def Blind (T : β → β → Prop) (f : LoopM β ρ σ α) : Prop := ∀ l, BlindAt T f l

variable {T : β → β → Prop}

/-! ## Composition -/

theorem BlindAt.bind {f : LoopM β ρ σ α} {g : α → LoopM β ρ σ γ} {l : EventLoop β ρ σ}
    (hf : BlindAt T f l) (hg : ∀ a, Blind T (g a)) : BlindAt T (f >>= g) l := by
  intro b turns completions hb
  obtain ⟨b', hb', e⟩ := hf b turns completions hb
  rcases h : exec f l with ⟨x | a, m⟩
  · rw [h] at e hb'
    rw [exec_bind_error h, exec_bind_error e]
    exact ⟨b', hb', rfl⟩
  · rw [h] at e hb'
    rw [exec_bind_ok h, exec_bind_ok e]
    exact hg a m b' turns completions hb'

theorem Blind.bind {f : LoopM β ρ σ α} {g : α → LoopM β ρ σ γ} (hf : Blind T f)
    (hg : ∀ a, Blind T (g a)) : Blind T (f >>= g) :=
  fun l => (hf l).bind hg

theorem blind_pure (a : α) : Blind T (pure a : LoopM β ρ σ α) :=
  fun _ b _ _ hb => ⟨b, hb, rfl⟩

theorem Blind.ite {p : Prop} [Decidable p] {f g : LoopM β ρ σ α} (hf : Blind T f)
    (hg : Blind T g) : Blind T (if p then f else g) := by
  split
  · exact hf
  · exact hg

theorem Blind.forM {f : α → LoopM β ρ σ Unit} (hf : ∀ a, Blind T (f a)) (as : List α) :
    Blind T (as.forM f) := by
  induction as with
  | nil => exact blind_pure ()
  | cons a as ih => exact (hf a).bind fun _ => ih

/-- A step that begins with looking at the loop, and looks at nothing that is swapped. -/
theorem Blind.get_bind {g : EventLoop β ρ σ → LoopM β ρ σ γ}
    (same : ∀ l b turns completions, g (swap b turns completions l) = g l)
    (h : ∀ l, BlindAt T (g l) l) : Blind T (get >>= g) := by
  intro l b turns completions hb
  rw [exec_bind_ok (exec_get l), exec_bind_ok (exec_get _), same]
  exact h l b turns completions hb

/-- A step whose fault is kept as an answer. -/
theorem Blind.lift {f : LoopM β ρ σ α} (hf : Blind T f) :
    Blind T (ExceptT.lift f.run : LoopM β ρ σ _) := by
  intro l b turns completions hb
  obtain ⟨b', hb', e⟩ := hf l b turns completions hb
  exact ⟨b', hb', by rw [exec_lift, exec_lift, e]⟩

/-! ## Small steps -/

theorem blind_modifyGet {f : EventLoop β ρ σ → α × EventLoop β ρ σ}
    (kept : ∀ l, (f l).2.backend = l.backend)
    (same : ∀ l b turns completions, f (swap b turns completions l) =
      ((f l).1, swap b turns completions (f l).2)) : Blind T (modifyGet f : LoopM β ρ σ α) := by
  intro l b turns completions hb
  rw [exec_modifyGet, exec_modifyGet, same]
  exact ⟨b, (kept l).symm ▸ hb, rfl⟩

theorem blind_modify {f : EventLoop β ρ σ → EventLoop β ρ σ}
    (kept : ∀ l, (f l).backend = l.backend)
    (same : ∀ l b turns completions, f (swap b turns completions l) =
      swap b turns completions (f l)) : Blind T (modify f : LoopM β ρ σ Unit) := by
  intro l b turns completions hb
  rw [exec_modify, exec_modify, same]
  exact ⟨b, (kept l).symm ▸ hb, rfl⟩

theorem blind_emit (level : Level) (message : String) (fields : List (String × String)) :
    Blind T (emit level message fields : LoopM β ρ σ Unit) :=
  blind_modify (fun _ => rfl) fun _ _ _ _ => rfl

/-- Counting is blind if turns and completions are neither counted nor looked at. -/
theorem blind_count {f : Counters → Counters}
    (hf : ∀ n turns completions, f { n with turns, completions } =
      { f n with turns, completions }) : Blind T (count f : LoopM β ρ σ Unit) := by
  refine blind_modify (fun _ => rfl) fun l b turns completions => ?_
  simp only [swap]
  rw [hf]

theorem blind_liftExcept (x : Except Fault α) : Blind T (liftExcept x : LoopM β ρ σ α) := by
  intro l b turns completions hb
  rw [exec_liftExcept, exec_liftExcept]
  exact ⟨b, hb, rfl⟩

theorem blind_readClock : Blind T (readClock : LoopM β ρ σ Instant) :=
  blind_modifyGet (fun _ => rfl) fun _ _ _ _ => rfl

theorem blind_acquireSlot : Blind T (acquireSlot : LoopM β ρ σ (Option Slot)) :=
  blind_modifyGet (fun _ => rfl) fun _ _ _ _ => rfl

theorem blind_updateTable (f : ConnectionTable → Bool × ConnectionTable) :
    Blind T (updateTable f : LoopM β ρ σ Bool) :=
  blind_modifyGet (fun _ => rfl) fun _ _ _ _ => rfl

theorem blind_lendSlot (slot : Slot) (length : Nat) :
    Blind T (lendSlot slot length : LoopM β ρ σ Loan) := by
  refine Blind.get_bind (fun _ _ _ _ => rfl) fun l => BlindAt.bind (blind_liftExcept _ l) ?_
  rintro ⟨loan, pool⟩
  exact Blind.bind (blind_modify (fun _ => rfl) fun _ _ _ _ => rfl) fun _ => blind_pure _

section

variable [Backend β] (answers : Answers T)

include answers

/-- A push is all that reaches the backend. -/
theorem blind_submit (tag : Tag) (operation : Operation) :
    Blind T (submit tag operation : LoopM β ρ σ Unit) := by
  intro l b turns completions hb
  obtain ⟨same, hb'⟩ := answers l.pool.memory ⟨tag, operation⟩ l.backend b hb
  rw [exec_submit, exec_submit]
  exact ⟨_, hb', Prod.ext same.symm rfl⟩

/-! ## What is sent -/

theorem blind_sendSlot (fd : Descriptor) (slot : Slot) (length : Nat) :
    Blind T (sendSlot fd slot length : LoopM β ρ σ Unit) :=
  (blind_lendSlot slot length).bind fun _ => blind_submit answers _ _

theorem blind_writeLog (level : Level) (message : String) :
    Blind T (writeLog level message : LoopM β ρ σ Unit) := by
  refine blind_acquireSlot.bind fun slot => ?_
  cases slot with
  | none => exact (blind_count fun _ _ _ => rfl).bind fun _ => blind_emit _ _ _
  | some slot =>
    refine blind_readClock.bind fun now => ?_
    refine (blind_modifyGet (fun _ => rfl) fun _ _ _ _ => rfl).bind fun length => ?_
    exact (blind_sendSlot answers _ _ _).bind fun _ => blind_count fun _ _ _ => rfl

theorem blind_writeAccess (message : String) :
    Blind T (writeAccess message : LoopM β ρ σ Unit) :=
  Blind.get_bind (fun _ _ _ _ => rfl) fun l =>
    Blind.ite (blind_writeLog answers _ _) (blind_pure ()) l

theorem blind_queueReply (fd : Descriptor) (reply : Reply) :
    Blind T (queueReply fd reply : LoopM β ρ σ Unit) := by
  have counted : Blind T (countReply : LoopM β ρ σ Unit) := blind_count fun _ _ _ => rfl
  cases reply with
  | nothing => exact blind_pure ()
  | fixed bytes => exact (blind_submit answers _ _).bind fun _ => counted
  | copied bytes =>
    have sending : ∀ slot length, Blind T (sendSlot fd slot length >>= fun _ =>
        (countReply : LoopM β ρ σ Unit)) := fun slot length =>
      (blind_sendSlot answers _ _ _).bind fun _ => counted
    refine blind_acquireSlot.bind fun slot => ?_
    cases slot with
    | none => exact (blind_count fun _ _ _ => rfl).bind fun _ => blind_emit _ _ _
    | some slot =>
      have fill : Blind T (modify fun l => { l with pool := l.pool.write slot 0 bytes } :
          LoopM β ρ σ Unit) := blind_modify (fun _ => rfl) fun _ _ _ _ => rfl
      refine Blind.get_bind (fun _ _ _ _ => rfl) fun l => BlindAt.bind (fill l) fun _ => ?_
      refine Blind.ite ?_ (sending _ _)
      exact (blind_count fun _ _ _ => rfl).bind fun _ =>
        (blind_emit _ _ _).bind fun _ => sending _ _

theorem blind_closeConnection (fd : Descriptor) :
    Blind T (closeConnection fd : LoopM β ρ σ Unit) :=
  (blind_updateTable _).bind fun _ => Blind.ite (blind_submit answers _ _) (blind_pure ())

theorem blind_shutdownConnection (fd : Descriptor) (armed : Bool) :
    Blind T (shutdownConnection fd armed : LoopM β ρ σ Unit) := by
  refine Blind.ite (blind_closeConnection answers fd) ?_
  exact (blind_updateTable _).bind fun _ => Blind.ite (blind_submit answers _ _) (blind_pure ())

/-! ## Receives -/

theorem blind_handle (fd : Descriptor) (peer : Option SocketAddress) (id : UInt16)
    (payload : Bytes) : Blind T (handle fd peer id payload : LoopM β ρ σ Unit) := by
  refine Blind.bind (blind_modify (fun _ => rfl) fun _ _ _ _ => rfl) fun _ => ?_
  refine (blind_count fun _ _ _ => rfl).bind fun _ => (blind_emit _ _ _).bind fun _ => ?_
  refine (blind_writeAccess answers _).bind fun _ => ?_
  exact (blind_modifyGet (fun _ => rfl) fun _ _ _ _ => rfl).bind fun _ =>
    blind_queueReply answers fd _

variable [BufferSource ρ]

theorem blind_armReceive (fd : Descriptor) : Blind T (armReceive fd : LoopM β ρ σ Unit) :=
  Blind.get_bind (fun _ _ _ _ => rfl) fun l => blind_submit answers _ _ l

theorem blind_rearmOrClose (fd : Descriptor) : Blind T (rearmOrClose fd : LoopM β ρ σ Unit) := by
  refine Blind.get_bind (fun _ _ _ _ => rfl) fun l =>
    Blind.ite ?_ (blind_closeConnection answers fd) l
  exact (blind_count fun _ _ _ => rfl).bind fun _ => (blind_emit _ _ _).bind fun _ =>
    blind_armReceive answers fd

theorem blind_deliver (fd : Descriptor) (buffer : ReceivedBuffer) :
    Blind T (deliver fd buffer : LoopM β ρ σ Received) := by
  refine Blind.get_bind (fun _ _ _ _ => rfl) fun l => ?_
  split
  next => exact blind_pure _ l
  next envelope _ =>
    refine Blind.ite (blind_pure _) (Blind.ite (blind_pure _) ?_) l
    split
    · exact (blind_emit _ _ _).bind fun _ => blind_pure _
    · exact (blind_handle answers _ _ _ _).bind fun _ => blind_pure _

theorem blind_receiveOutcome (fd : Descriptor) (result : Int32) (buffer : Option ReceivedBuffer) :
    Blind T (receiveOutcome fd result buffer : LoopM β ρ σ Received) := by
  refine Blind.ite (blind_pure _) (Blind.ite (blind_pure _) (Blind.ite (blind_pure _) ?_))
  refine Blind.get_bind (fun _ _ _ _ => rfl) fun l => Blind.ite (blind_pure _) ?_ l
  cases buffer with
  | none => exact blind_pure _
  | some buffer => exact blind_deliver answers fd buffer

theorem blind_concludeReceive (fd : Descriptor) (armed : Bool) (outcome : Received) :
    Blind T (concludeReceive fd armed outcome : LoopM β ρ σ Unit) := by
  have unlessArmed : ∀ {f : LoopM β ρ σ Unit}, Blind T f →
      Blind T (if armed then pure () else f) := fun hf => Blind.ite (blind_pure ()) hf
  cases outcome with
  | delivered => exact unlessArmed (blind_rearmOrClose answers fd)
  | noBuffers =>
    exact (blind_count fun _ _ _ => rfl).bind fun _ => (blind_emit _ _ _).bind fun _ =>
      unlessArmed (blind_rearmOrClose answers fd)
  | ended => exact (blind_emit _ _ _).bind fun _ => blind_closeConnection answers fd
  | failed errno =>
    exact (blind_emit _ _ _).bind fun _ => unlessArmed (blind_closeConnection answers fd)
  | malformed cause =>
    exact (blind_count fun _ _ _ => rfl).bind fun _ => (blind_emit _ _ _).bind fun _ =>
      blind_shutdownConnection answers fd armed

omit [Backend β] answers in
theorem blind_takeBuffer (c : Completion) :
    Blind T (takeBuffer c : LoopM β ρ σ (Option ReceivedBuffer)) := by
  unfold takeBuffer
  split
  · exact blind_pure _
  · exact (blind_modifyGet (fun _ => rfl) fun _ _ _ _ => rfl).bind fun _ =>
      (blind_liftExcept _).bind fun _ => blind_pure _

theorem blind_onReceive (fd : Descriptor) (c : Completion) :
    Blind T (onReceive fd c : LoopM β ρ σ Unit) := by
  refine (blind_takeBuffer c).bind fun buffer => ?_
  refine (blind_receiveOutcome answers fd c.result buffer).lift.bind fun outcome => ?_
  have conclude : Blind T (liftExcept outcome >>= fun outcome =>
      (concludeReceive fd c.hasMore outcome : LoopM β ρ σ Unit)) :=
    (blind_liftExcept _).bind fun _ => blind_concludeReceive answers fd _ _
  cases buffer with
  | none => exact conclude
  | some buffer =>
    exact Blind.bind (blind_modify (fun _ => rfl) fun _ _ _ _ => rfl) fun _ => conclude

/-! ## Other completions -/

omit [Backend β] [BufferSource ρ] answers in
theorem blind_track (fd : Descriptor) (peer : Option SocketAddress) :
    Blind T (track fd peer : LoopM β ρ σ Unit) := by
  refine (blind_updateTable _).bind fun _ => Blind.ite (blind_pure ()) ?_
  exact (blind_emit _ _ _).bind fun _ => (blind_updateTable _).bind fun _ => blind_pure ()

theorem blind_onAccept (listener : Descriptor) (c : Completion) :
    Blind T (onAccept listener c : LoopM β ρ σ Unit) := by
  have rearm : Blind T (if (!c.hasMore) = true then do
      count fun n => { n with acceptRearms := n.acceptRearms + 1 }
      emit .debug "re-arming multishot accept" [("fd", toString listener)]
      armAccept listener
    else (pure () : LoopM β ρ σ Unit)) := by
    refine Blind.ite ?_ (blind_pure ())
    exact (blind_count fun _ _ _ => rfl).bind fun _ => (blind_emit _ _ _).bind fun _ =>
      blind_submit answers _ _
  refine Blind.ite ?_ (Blind.get_bind (fun _ _ _ _ => rfl) fun l => ?_)
  · exact (blind_count fun _ _ _ => rfl).bind fun _ => (blind_emit _ _ _).bind fun _ => rearm
  · refine BlindAt.bind (blind_track _ _ l) fun _ => ?_
    refine (blind_count fun _ _ _ => rfl).bind fun _ => (blind_emit _ _ _).bind fun _ => ?_
    refine (blind_armReceive answers _).bind fun _ => ?_
    exact (blind_writeAccess answers _).bind fun _ => rearm

omit [Backend β] [BufferSource ρ] answers in
theorem blind_onWriteFixed (descriptor : UInt32) (c : Completion) :
    Blind T (onWriteFixed descriptor c : LoopM β ρ σ Unit) := by
  have release : Blind T (do
      let pool ← liftExcept ((← get).pool.release descriptor.toUInt16)
      modify fun l => { l with pool } : LoopM β ρ σ Unit) := by
    refine Blind.get_bind (fun _ _ _ _ => rfl) fun l => ?_
    exact BlindAt.bind (blind_liftExcept _ l) fun _ =>
      blind_modify (fun _ => rfl) fun _ _ _ _ => rfl
  refine Blind.ite (fun l b turns completions hb => ?_) (Blind.ite ?_ release)
  · rw [exec_bind_error (exec_throw _ l), exec_bind_error (exec_throw _ _)]
    exact ⟨b, hb, rfl⟩
  · exact (blind_emit _ _ _).bind fun _ => release

omit [BufferSource ρ] in
theorem blind_onClose (fd : Descriptor) (c : Completion) :
    Blind T (onClose fd c : LoopM β ρ σ Unit) := by
  have farewells : ∀ x, Blind T (farewell fd x : LoopM β ρ σ Unit) := by
    intro x
    cases x with
    | none => exact blind_emit _ _ _
    | some x =>
      exact (blind_count fun _ _ _ => rfl).bind fun _ => (blind_emit _ _ _).bind fun _ =>
        blind_writeAccess answers _
  have forget : Blind T (modifyGet (fun l : EventLoop β ρ σ =>
      (l.connections.get? fd, untracked fd l)) >>= farewell fd) :=
    Blind.bind (blind_modifyGet (fun _ => rfl) fun _ _ _ _ => rfl) farewells
  refine Blind.ite ?_ forget
  exact (blind_emit _ _ _).bind fun _ => forget

/-- A dispatch sees of its backend how its pushes are answered, and nothing else. -/
theorem blind_dispatch (c : Completion) : Blind T (dispatch c : LoopM β ρ σ Unit) := by
  unfold dispatch
  rcases c.tag.opcode? with _ | op
  · exact (blind_count fun _ _ _ => rfl).bind fun _ => blind_emit _ _ _
  have acknowledge : Blind T (if c.result < 0 then
      emit .debug "operation failed" [("fd", toString c.tag.descriptor), ("op", op.name),
        ("errno", toString (-c.result))] else (pure () : LoopM β ρ σ Unit)) :=
    Blind.ite (blind_emit _ _ _) (blind_pure ())
  cases op with
  | accept => exact blind_onAccept answers _ c
  | receive => exact blind_onReceive answers _ c
  | writeFixed => exact blind_onWriteFixed _ c
  | close => exact blind_onClose answers _ c
  | listen | write | send | shutdown => exact acknowledge

end

end RingServer.EventLoop
