import RingServer.Proofs.Connection
import RingServer.Proofs.Loop.Execution

/-!
What a dispatch does, once for all relations. `Allows R` lists the few things that a dispatch is
made of and that `R` has to allow; `dispatch_ends` then gives `R` for the dispatch of every
completion. A dispatch begins with the one change that only its kind of completion makes
(`prepared`): an accept tracks a descriptor, a close completion forgets one. The completion of a
fixed write does nothing else than release a slot (`exec_dispatch_release`).
-/

namespace RingServer.EventLoop

variable {β ρ σ α : Type}

/-- The loops differ at most in what is counted, told and read off the clock. -/
def Aside (l m : EventLoop β ρ σ) : Prop :=
  m = { l with counters := m.counters, events := m.events, readings := m.readings }

/-- The table once a descriptor is tracked afresh. -/
def tracked (fd : Descriptor) (l : EventLoop β ρ σ) : EventLoop β ρ σ :=
  { l with connections := ⟨(fd, .fresh (l.peerOf fd)) :: (l.connections.erase fd).rows⟩ }

/-- The table once a descriptor is forgotten. -/
def untracked (fd : Descriptor) (l : EventLoop β ρ σ) : EventLoop β ρ σ :=
  { l with connections := l.connections.erase fd }

/-- The change with which the dispatch of a completion begins. -/
def prepared (c : Completion) (l : EventLoop β ρ σ) : EventLoop β ρ σ :=
  match c.tag.opcode? with
  | some .accept => if c.result < 0 then l else tracked c.result l
  | some .close => untracked c.tag.descriptor.toInt32 l
  | _ => l

theorem prepared_eq (c : Completion) (l : EventLoop β ρ σ) :
    prepared c l = { l with connections := (prepared c l).connections } := by
  unfold prepared
  split
  · split <;> rfl
  · rfl
  · rfl

/-! ## Messages and the end of a connection -/

/-- What follows a call of the handler, and the call itself. -/
def answer [Backend β] (fd : Descriptor) (payload : Text.Bytes) : LoopM β ρ σ Unit := do
  let reply ← modifyGet fun l =>
    let (reply, handlerState) := l.handler.respond l.handlerState fd payload
    (reply, { l with handlerState })
  queueReply fd reply

theorem exec_answer [Backend β] (fd : Descriptor) (payload : Text.Bytes) (l : EventLoop β ρ σ) :
    exec (answer fd payload) l =
      exec (queueReply fd (l.handler.respond l.handlerState fd payload).1)
        { l with handlerState := (l.handler.respond l.handlerState fd payload).2 } :=
  exec_bind_ok (exec_modifyGet _ l)

/-- A message is counted and told before the handler is called. -/
theorem exec_handle [Backend β] (fd : Descriptor) (peer : Option SocketAddress) (id : UInt16)
    (payload : Text.Bytes) (l : EventLoop β ρ σ) : ∃ message m,
      Aside { l with connections := l.connections.modify fd (.count (.ofNat payload.length)) } m ∧
      exec (handle fd peer id payload) l =
        exec (writeAccess message >>= fun _ => answer fd payload) m := by
  unfold handle
  rw [exec_bind_ok (exec_modify _ l), exec_bind_ok (exec_count _ _),
    exec_bind_ok (exec_emit _ _ _ _)]
  refine ⟨_, _, ?_, rfl⟩
  rfl

/-- A connection that moves forward to `closing` is told to the kernel; otherwise nothing
happens. -/
theorem exec_closeConnection [Backend β] (fd : Descriptor) (l : EventLoop β ρ σ) :
    (∃ c, l.connections.get? fd = some c ∧ c.state ≠ .closing ∧
      exec (closeConnection fd) l = exec (submit (.onDescriptor fd .close) (.close fd))
        { l with connections := l.connections.modify fd fun c => { c with state := .closing } }) ∨
    ((∀ c, l.connections.get? fd = some c → c.state = .closing) ∧
      exec (closeConnection fd) l = (.ok (), l)) := by
  unfold closeConnection
  rw [exec_bind_ok (exec_updateTable _ l)]
  rcases l.connections.advance_cases fd .closing with ⟨c, hc, hr, e⟩ | ⟨hc, e⟩
  · refine Or.inl ⟨c, hc, ?_, by rw [e]; rfl⟩
    intro he
    rw [he] at hr
    exact Nat.lt_irrefl _ hr
  · refine Or.inr ⟨fun c h => ?_, by rw [e]; rfl⟩
    have hr := hc c h
    cases hs : c.state with
    | closing => rfl
    | opened | shuttingDown =>
      rw [hs] at hr
      exact absurd hr (by decide)

/-- With the receive stream armed, an open connection is shut down; otherwise nothing happens. -/
theorem exec_shutdownConnection [Backend β] (fd : Descriptor) (l : EventLoop β ρ σ) :
    (∃ c, l.connections.get? fd = some c ∧ c.state = .opened ∧
      exec (shutdownConnection fd true) l =
        exec (submit (.onDescriptor fd .shutdown) (.shutdown fd))
          { l with connections :=
            l.connections.modify fd fun c => { c with state := .shuttingDown } }) ∨
    ((∀ c, l.connections.get? fd = some c → c.state ≠ .opened) ∧
      exec (shutdownConnection fd true) l = (.ok (), l)) := by
  have armed : (shutdownConnection fd true : LoopM β ρ σ Unit) =
      updateTable (·.advance fd .shuttingDown) >>= fun moved =>
        if moved then submit (.onDescriptor fd .shutdown) (.shutdown fd) else pure () := rfl
  rw [armed, exec_bind_ok (exec_updateTable _ l)]
  rcases l.connections.advance_cases fd .shuttingDown with ⟨c, hc, hr, e⟩ | ⟨hc, e⟩
  · refine Or.inl ⟨c, hc, ?_, by rw [e]; rfl⟩
    cases hs : c.state with
    | opened => rfl
    | shuttingDown | closing =>
      rw [hs] at hr
      exact absurd hr (by decide)
  · refine Or.inr ⟨fun c h he => ?_, by rw [e]; rfl⟩
    have hr := hc c h
    rw [he] at hr
    exact absurd hr (by decide)

/-- An open connection goes on receiving. -/
theorem exec_rearmOrClose_of_isOpen [Backend β] [BufferSource ρ] {fd : Descriptor}
    {l : EventLoop β ρ σ} (ho : l.connections.isOpen fd = true) :
    ∃ m, Aside l m ∧ exec (rearmOrClose fd) l = exec (armReceive fd) m := by
  unfold rearmOrClose
  rw [exec_bind_ok (exec_get l), if_pos ho]
  refine ⟨_, ?_, rfl⟩
  rfl

/-! ## What a dispatch is made of -/

theorem Keeps.writeAccess [Backend β] {R : StepRelation β ρ σ} (hR : Composable R)
    (log : ∀ level message, Keeps R (writeLog level message)) (message : String) :
    Keeps R (writeAccess message) := by
  apply Keeps.get_bind
  intro l
  split
  · exact log .info message l
  · exact hR.refl l

variable [Backend β] [BufferSource ρ]

/-- What `R` has to allow, so that it holds of every dispatch in which no message is handled. -/
structure Permits (R : StepRelation β ρ σ) : Prop extends Composable R where
  aside : ∀ {l m n x}, R l x m → Aside m n → R l x n
  log : ∀ level message, Keeps R (writeLog level message)
  armAccept : ∀ fd, Keeps R (armAccept fd)
  armReceive : ∀ fd l, l.connections.isOpen fd = true → Ends R (armReceive fd) l
  close : ∀ fd, Keeps R (closeConnection fd)
  shutdown : ∀ fd l, Ends R (shutdownConnection fd true) l
  take : ∀ id length (l : EventLoop β ρ σ), R l (fault? (BufferSource.take id length l.ring).1)
    { l with ring := (BufferSource.take id length l.ring).2 }
  recycle : ∀ buffer (l m : EventLoop β ρ σ) x, R l x m →
    R l x { m with ring := BufferSource.recycle buffer m.ring }

/-- What it has to allow of the handling of a message besides. -/
structure Allows (R : StepRelation β ρ σ) : Prop extends Permits R where
  handle : ∀ fd connection id payload l, l.connections.get? fd = some connection →
    connection.isOpen = true → Ends R (handle fd connection.peer id payload) l

variable {R : StepRelation β ρ σ} (h : Permits R)

include h

theorem Permits.quiet {l m : EventLoop β ρ σ} (ha : Aside l m) : R l none m :=
  h.aside (h.refl l) ha

theorem keeps_emit (level : Level) (message : String) (fields : List (String × String)) :
    Keeps R (emit level message fields) :=
  fun _ => h.quiet rfl

theorem keeps_count (f : Counters → Counters) : Keeps R (count f) := fun _ => h.quiet rfl

theorem keeps_writeAccess (message : String) : Keeps R (writeAccess message) :=
  Keeps.writeAccess h.toComposable h.log message

theorem keeps_shutdownConnection (fd : Descriptor) (armed : Bool) :
    Keeps R (shutdownConnection fd armed) := by
  cases armed with
  | true => exact h.shutdown fd
  | false => exact h.close fd

theorem keeps_rearmOrClose (fd : Descriptor) : Keeps R (rearmOrClose fd) := by
  intro l
  by_cases ho : l.connections.isOpen fd = true
  · obtain ⟨m, ha, e⟩ := exec_rearmOrClose_of_isOpen ho
    have open_m : m.connections.isOpen fd = true := by
      rw [ha]
      exact ho
    rw [Ends, e]
    exact h.trans (h.quiet ha) (h.armReceive fd m open_m)
  · unfold rearmOrClose
    rw [Ends, exec_bind_ok (exec_get l), if_neg ho]
    exact h.close fd l

/-! ## Receive completions -/

theorem keeps_concludeReceive (fd : Descriptor) (armed : Bool) (outcome : Received) :
    Keeps R (concludeReceive fd armed outcome) := by
  have unlessArmed : ∀ {f : LoopM β ρ σ Unit}, Keeps R f → Keeps R (if armed then pure () else f) :=
    fun hf => Keeps.ite (Keeps.pure h.toComposable ()) hf
  cases outcome with
  | delivered => exact unlessArmed (keeps_rearmOrClose h fd)
  | noBuffers =>
    exact (keeps_count h _).bind h.toComposable fun _ =>
      (keeps_emit h _ _ _).bind h.toComposable fun _ => unlessArmed (keeps_rearmOrClose h fd)
  | ended => exact (keeps_emit h _ _ _).bind h.toComposable fun _ => h.close fd
  | failed errno =>
    exact (keeps_emit h _ _ _).bind h.toComposable fun _ => unlessArmed (h.close fd)
  | malformed cause =>
    exact (keeps_count h _).bind h.toComposable fun _ =>
      (keeps_emit h _ _ _).bind h.toComposable fun _ => keeps_shutdownConnection h fd armed

theorem keeps_takeBuffer (c : Completion) : Keeps R (takeBuffer c) := by
  intro l
  unfold takeBuffer
  split
  · exact h.refl l
  next id _ =>
    have ht := h.take id c.result.toInt.toNat l
    rcases he : BufferSource.take id c.result.toInt.toNat l.ring with ⟨e | b, ring⟩
    all_goals
      rw [he] at ht
      rw [Ends, exec_bind_ok (exec_modifyGet _ l)]
      simp only [he]
      exact ht

omit h in
theorem keeps_deliver (h : Allows R) (fd : Descriptor) (buffer : ReceivedBuffer) :
    Keeps R (deliver fd buffer) := by
  apply Keeps.get_bind
  intro l
  split
  next => exact h.refl l
  next envelope he =>
    split
    · exact h.refl l
    split
    · exact h.refl l
    split
    · exact Keeps.bind h.toComposable (keeps_emit h.toPermits _ _ _)
        (fun _ => Keeps.pure h.toComposable _) l
    next connection hc =>
      rw [Option.filter_eq_some_iff] at hc
      apply Ends.bind h.toComposable (h.handle fd connection buffer.id envelope.payload l hc.1 hc.2)
      exact fun _ m _ => h.refl m

omit h in
theorem keeps_receiveOutcome (h : Allows R) (fd : Descriptor) (result : Int32)
    (buffer : Option ReceivedBuffer) : Keeps R (receiveOutcome fd result buffer) := by
  intro l
  unfold receiveOutcome
  split
  · exact h.refl l
  split
  · exact h.refl l
  split
  · exact h.refl l
  apply Keeps.get_bind
  intro m
  split
  · exact h.refl m
  split
  · exact h.refl m
  · exact keeps_deliver h fd _ m

omit h [Backend β] in
/-- The loop once the buffer of a completion is back with the kernel. -/
def returned (buffer : Option ReceivedBuffer) (l : EventLoop β ρ σ) : EventLoop β ρ σ :=
  buffer.elim l fun b => { l with ring := BufferSource.recycle b l.ring }

omit h in
/-- The buffer goes back before the outcome is looked at. -/
theorem exec_onReceive (fd : Descriptor) (c : Completion) (l : EventLoop β ρ σ) :
    exec (onReceive fd c) l = match exec (takeBuffer c) l with
      | (.error e, m) => (.error e, m)
      | (.ok buffer, m) => match exec (receiveOutcome fd c.result buffer) m with
        | (.error e, n) => (.error e, returned buffer n)
        | (.ok outcome, n) => exec (concludeReceive fd c.hasMore outcome) (returned buffer n) := by
  unfold onReceive
  rw [exec_bind]
  rcases exec (takeBuffer c) l with ⟨e | buffer, m⟩
  · rfl
  simp only []
  rw [exec_bind_ok (exec_lift _ m)]
  rcases exec (receiveOutcome fd c.result buffer) m with ⟨e | outcome, n⟩ <;>
    cases buffer <;> rfl

omit h in
theorem keeps_onReceive (h : Allows R) (fd : Descriptor) (c : Completion) :
    Keeps R (onReceive fd c) := by
  intro l
  have ht := keeps_takeBuffer h.toPermits c l
  rw [Ends, exec_onReceive]
  rcases htake : exec (takeBuffer c) l with ⟨e | buffer, m⟩
  · exact ht.to_exec htake
  have ho := keeps_receiveOutcome h fd c.result buffer m
  have back : ∀ x n, R m x n → R m x (returned buffer n) := by
    intro x n hn
    cases buffer with
    | none => exact hn
    | some b => exact h.recycle b m n x hn
  rcases hout : exec (receiveOutcome fd c.result buffer) m with ⟨e | outcome, n⟩
  · simp only [hout]
    exact h.trans (ht.to_exec htake) (back _ n (ho.to_exec hout))
  · simp only [hout]
    exact h.trans (ht.to_exec htake) (h.trans (back _ n (ho.to_exec hout))
      (keeps_concludeReceive h.toPermits fd c.hasMore outcome _))

/-! ## Accept and close completions -/

omit [Backend β] [BufferSource ρ] h in
theorem exec_track (fd : Descriptor) (l : EventLoop β ρ σ) :
    ∃ m, exec (track fd (l.peerOf fd)) l = (.ok (), m) ∧ Aside (tracked fd l) m := by
  unfold track
  rw [exec_bind_ok (exec_updateTable _ l)]
  cases hc : l.connections.get? fd with
  | none =>
    rw [ConnectionTable.get?_insert_of_none _ _ hc]
    refine ⟨_, rfl, ?_⟩
    rw [Aside, tracked, ConnectionTable.erase_of_get?_eq_none _ hc]
  | some c =>
    have hi : l.connections.insert fd (l.peerOf fd) = (false, l.connections) := by
      simp [ConnectionTable.insert, ConnectionTable.contains, hc]
    have ht := ConnectionTable.insert_erase l.connections fd (l.peerOf fd)
    rw [hi]
    have again : ∀ n, Aside l n →
        ∃ m, exec (updateTable (fun t => (t.erase fd).insert fd (l.peerOf fd)) >>= fun _ =>
          (pure () : LoopM β ρ σ Unit)) n = (.ok (), m) ∧ Aside (tracked fd l) m := by
      intro n hn
      rw [exec_bind_ok (exec_updateTable _ n), hn]
      exact ⟨_, rfl, by rw [ht]; rfl⟩
    simp only [Bool.false_eq_true, if_false]
    rw [exec_bind_ok (exec_emit _ _ _ _)]
    exact again _ rfl

theorem onAccept_ends (listener : Descriptor) (c : Completion) (l : EventLoop β ρ σ) :
    R (if c.result < 0 then l else tracked c.result l)
      (fault? (exec (onAccept listener c) l).1) (exec (onAccept listener c) l).2 := by
  -- Whatever was accepted, the accept itself is armed again if it has ended.
  have rearm := Keeps.ite (p := (!c.hasMore) = true) ((keeps_count h fun n =>
      { n with acceptRearms := n.acceptRearms + 1 }).bind h.toComposable fun _ =>
      (keeps_emit h .debug "re-arming multishot accept" [("fd", toString listener)]).bind
        h.toComposable fun _ => h.armAccept listener) (Keeps.pure h.toComposable ())
  unfold onAccept
  split
  · exact (keeps_count h _).bind h.toComposable (fun _ =>
      (keeps_emit h _ _ _).bind h.toComposable fun _ => rearm) l
  · rw [exec_bind_ok (exec_get l)]
    obtain ⟨m, hm, ha⟩ := exec_track c.result l
    rw [exec_bind_ok hm]
    apply h.trans (h.quiet ha)
    have opened : m.connections.isOpen c.result = true := by
      rw [ha, ConnectionTable.isOpen_iff]
      exact ⟨_, by rw [tracked, ConnectionTable.get?_cons, if_pos rfl], rfl⟩
    have receive : ∀ n, Aside m n → Ends R (armReceive c.result) n := by
      intro n hn
      apply h.armReceive
      rw [hn]
      exact opened
    apply Ends.bind h.toComposable (keeps_count h _ m)
    intro _ n hn
    rw [exec_count] at hn
    cases hn
    apply Ends.bind h.toComposable (keeps_emit h _ _ _ _)
    intro _ n hn
    rw [exec_emit] at hn
    cases hn
    refine Ends.bind h.toComposable (receive _ ?_) ?_
    · rfl
    intro _ n _
    exact (keeps_writeAccess h _).bind h.toComposable (fun _ => rearm) n

/-- The last part of `onClose`. -/
def farewell (fd : Descriptor) : Option Connection → LoopM β ρ σ Unit
  | none => emit .debug "close for untracked descriptor" [("fd", toString fd)]
  | some x => do
    count fun n => { n with closes := n.closes + 1 }
    emit .info "closed" [("fd", toString fd), ("peer", peerText x.peer),
      ("messages", toString x.messages), ("bytes", toString x.bytes)]
    writeAccess s!"closed fd {fd} from {peerText x.peer} after {x.messages} messages"

theorem keeps_farewell (fd : Descriptor) (x : Option Connection) :
    Keeps R (farewell fd x : LoopM β ρ σ Unit) := by
  cases x with
  | none => exact keeps_emit h _ _ _
  | some x =>
    exact (keeps_count h _).bind h.toComposable fun _ =>
      (keeps_emit h _ _ _).bind h.toComposable fun _ => keeps_writeAccess h _

theorem onClose_ends (fd : Descriptor) (c : Completion) (l : EventLoop β ρ σ) :
    R (untracked fd l) (fault? (exec (onClose fd c) l).1) (exec (onClose fd c) l).2 := by
  have forget : ∀ m, Aside l m → ∀ f : Option Connection → LoopM β ρ σ Unit, (∀ x, Keeps R (f x)) →
      R (untracked fd l)
        (fault? (exec ((modifyGet fun l => (l.connections.get? fd, untracked fd l)) >>= f) m).1)
        (exec ((modifyGet fun l => (l.connections.get? fd, untracked fd l)) >>= f) m).2 := by
    intro m ha f hf
    rw [exec_bind_ok (exec_modifyGet _ m)]
    refine h.trans (h.quiet ?_) (hf _ _)
    rw [ha]
    rfl
  unfold onClose
  split
  · rw [exec_bind_ok (exec_emit _ _ _ l)]
    refine forget _ ?_ (farewell fd) (keeps_farewell h fd)
    rfl
  · exact forget l rfl (farewell fd) (keeps_farewell h fd)

/-! ## Completions of fixed writes -/

omit h in
/-- A tag that names no slot is a fault. -/
theorem exec_dispatch_writeFixed_of_lt {c : Completion} {l : EventLoop β ρ σ}
    (hw : c.tag.opcode? = some .writeFixed) (hd : FreeList.maxSlots < c.tag.descriptor.toNat) :
    exec (dispatch c) l = (.error (.slotNotOutstanding 65535), l) := by
  unfold dispatch
  rw [hw]
  show exec (onWriteFixed c.tag.descriptor c) l = _
  rw [onWriteFixed, if_pos hd]
  exact exec_bind_error (exec_throw _ l)

omit h in
/-- The slot that the tag names is released, and at most something is told. -/
theorem exec_dispatch_release {c : Completion} {l : EventLoop β ρ σ}
    (hw : c.tag.opcode? = some .writeFixed) (hd : c.tag.descriptor.toNat ≤ FreeList.maxSlots) :
    ∃ events, exec (dispatch c) l =
      match l.pool.release c.tag.descriptor.toUInt16 with
      | .ok pool => (.ok (), { l with pool, events })
      | .error e => (.error e, { l with events }) := by
  have release : ∀ events, exec (get >>= fun l : EventLoop β ρ σ =>
        liftExcept (l.pool.release c.tag.descriptor.toUInt16) >>= fun pool =>
          modify fun l => { l with pool }) { l with events } =
      match l.pool.release c.tag.descriptor.toUInt16 with
      | .ok pool => (.ok (), { l with pool, events })
      | .error e => (.error e, { l with events }) := by
    intro events
    rw [exec_bind_ok (exec_get _)]
    show exec (liftExcept (l.pool.release c.tag.descriptor.toUInt16) >>= _) _ = _
    rcases l.pool.release c.tag.descriptor.toUInt16 with e | pool
    · exact exec_bind_error (exec_liftExcept _ _)
    · exact exec_bind_ok (exec_liftExcept _ _)
  unfold dispatch
  rw [hw]
  show ∃ events, exec (onWriteFixed c.tag.descriptor c) l = _
  rw [onWriteFixed, if_neg (Nat.not_lt.mpr hd)]
  simp only []
  split
  · rw [exec_bind_ok (exec_emit _ _ _ l)]
    exact ⟨_, release _⟩
  · exact ⟨l.events, release l.events⟩

omit h in
/-- So nothing else happens. -/
theorem exec_dispatch_writeFixed {c : Completion} {l : EventLoop β ρ σ}
    (hw : c.tag.opcode? = some .writeFixed) (hd : c.tag.descriptor.toNat ≤ FreeList.maxSlots) :
    ∃ m, Aside l m ∧ exec (dispatch c) l =
      match l.pool.release c.tag.descriptor.toUInt16 with
      | .ok pool => (.ok (), { m with pool })
      | .error e => (.error e, m) := by
  obtain ⟨events, e⟩ := exec_dispatch_release (l := l) hw hd
  exact ⟨{ l with events }, rfl, e⟩

/-! ## All completions -/

theorem dispatch_permits (c : Completion) (l : EventLoop β ρ σ)
    (hw : c.tag.opcode? ≠ some .writeFixed) (hr : c.tag.opcode? ≠ some .receive) :
    R (prepared c l) (fault? (exec (dispatch c) l).1) (exec (dispatch c) l).2 := by
  unfold dispatch prepared
  rcases ho : c.tag.opcode? with _ | op
  · exact (keeps_count h _).bind h.toComposable (fun _ => keeps_emit h _ _ _) l
  have acknowledge := Keeps.ite (p := c.result < 0) (keeps_emit h .debug "operation failed"
      [("fd", toString c.tag.descriptor), ("op", op.name), ("errno", toString (-c.result))])
    (Keeps.pure h.toComposable ())
  cases op with
  | accept => exact onAccept_ends h _ c l
  | receive => exact absurd ho hr
  | close => exact onClose_ends h _ c l
  | writeFixed => exact absurd ho hw
  | listen | write | send | shutdown => exact acknowledge l

omit h in
theorem dispatch_ends (h : Allows R) (c : Completion) (l : EventLoop β ρ σ)
    (hw : c.tag.opcode? ≠ some .writeFixed) :
    R (prepared c l) (fault? (exec (dispatch c) l).1) (exec (dispatch c) l).2 := by
  by_cases hr : c.tag.opcode? = some .receive
  · unfold dispatch prepared
    rw [hr]
    exact keeps_onReceive h _ c l
  · exact dispatch_permits h.toPermits c l hw hr

end RingServer.EventLoop
