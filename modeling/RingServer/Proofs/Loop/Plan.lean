import RingServer.Proofs.Loop.Dispatch

/-!
What the dispatch of a completion amounts to. All that a dispatch decides, it decides by the loop
that it starts from, once the buffer of its completion has been taken: `plan` lists what is to be
done as `Deed`s, and `dispatch_performs` says that the dispatch does these, in this order, until one
of them is a fault. What a deed changes is said deed by deed (`Performs.connections`,
`Performs.ring`, `Performs.faults`), so that nothing about a dispatch needs its code again.
-/

namespace RingServer.EventLoop

open Text (Bytes)

/-- One thing that a dispatch does. -/
inductive Deed
  | track (fd : Descriptor)
  | forget (fd : Descriptor)
  /-- Counts a message for its connection. -/
  | tally (fd : Descriptor) (length : Nat)
  | armAccept (fd : Descriptor)
  | armReceive (fd : Descriptor)
  | shutDown (fd : Descriptor)
  | close (fd : Descriptor)
  | log (message : String)
  /-- Calls the handler and queues its reply. -/
  | answer (fd : Descriptor) (payload : Bytes)
  | recycle (buffer : ReceivedBuffer)
  /-- Counts a malformed completion. -/
  | blame
  deriving DecidableEq

variable {β ρ σ α γ : Type}

/-- What becomes of the table. -/
def Deed.onTable (peerOf : Descriptor → Option SocketAddress) (t : ConnectionTable) :
    Deed → ConnectionTable
  | track fd => ⟨(fd, .fresh (peerOf fd)) :: (t.erase fd).rows⟩
  | forget fd => t.erase fd
  | tally fd length => t.modify fd (.count (.ofNat length))
  | shutDown fd => t.modify fd fun c => { c with state := .shuttingDown }
  | close fd => t.modify fd fun c => { c with state := .closing }
  | armAccept _ | armReceive _ | log _ | answer _ _ | recycle _ | blame => t

/-- What becomes of the buffers. -/
def Deed.onRing [BufferSource ρ] (r : ρ) : Deed → ρ
  | recycle b => BufferSource.recycle b r
  | _ => r

def Deed.run [Backend β] [BufferSource ρ] : Deed → LoopM β ρ σ Unit
  | track fd => modify (tracked fd)
  | forget fd => modify (untracked fd)
  | tally fd length => modify fun l =>
    { l with connections := l.connections.modify fd (.count (.ofNat length)) }
  | armAccept fd => EventLoop.armAccept fd
  | armReceive fd => EventLoop.armReceive fd
  | shutDown fd => do
    modify fun l => { l with
      connections := l.connections.modify fd fun c => { c with state := .shuttingDown } }
    submit (.onDescriptor fd .shutdown) (.shutdown fd)
  | close fd => do
    modify fun l => { l with
      connections := l.connections.modify fd fun c => { c with state := .closing } }
    submit (.onDescriptor fd .close) (.close fd)
  | log message => writeLog .info message
  | answer fd payload => EventLoop.answer fd payload
  | recycle b => EventLoop.recycle b
  | blame => count fun n => { n with faults := n.faults + 1 }

/-! ## Plans -/

/-- The buffer that a completion brings, if it is one of a receive and names one. -/
def grasp [BufferSource ρ] (c : Completion) (ring : ρ) :
    Except Fault (Option ReceivedBuffer) × ρ :=
  if c.tag.opcode? = some .receive then
    match c.bufferId? with
    | none => (.ok none, ring)
    | some id =>
      let (outcome, ring) := BufferSource.take id c.result.toInt.toNat ring
      (outcome.map some, ring)
  else (.ok none, ring)

/-- What a receive with this result and buffer means, and the message that it brings. -/
def judge [BufferSource ρ] (ring : ρ) (result : Int32) (buffer : Option ReceivedBuffer) :
    Received × Bytes :=
  if result = -noBufferSpace then (.noBuffers, [])
  else if result = 0 then (.ended, [])
  else if result < 0 then (.failed (-result), [])
  else if result.toInt.toNat > BufferSource.entrySize ring then (.malformed .longerThanBuffer, [])
  else match buffer with
    | none => (.malformed .noBuffer, [])
    | some b =>
      match Envelope.parse? (BufferSource.data ring b) with
      | none => (.malformed .badEnvelope, [])
      | some envelope =>
        if envelope.truncated then (.malformed .truncated, [])
        else if envelope.payload.isEmpty then (.ended, [])
        else (.delivered, envelope.payload)

/-- A line of the access log, if that log is kept. -/
def access (l : EventLoop β ρ σ) (message : String) : List Deed :=
  if l.accessLog then [.log message] else []

/-- The line that the access log has for a message. -/
def messageLine (fd : Descriptor) (peer : Option SocketAddress) (id : UInt16) (payload : Bytes) :
    String :=
  s!"fd {fd} peer {peerText peer} bid {id} len {payload.length}: {Text.escaped payload}"

def acceptedLine (fd : Descriptor) (peer : Option SocketAddress) : String :=
  s!"accepted fd {fd} from {peerText peer}"

def closedLine (fd : Descriptor) (x : Connection) : String :=
  s!"closed fd {fd} from {peerText x.peer} after {x.messages} messages"

/-- The message in a buffer goes to the handler if its connection is open. -/
def hearing (fd : Descriptor) (l : EventLoop β ρ σ) (payload : Bytes) : Option ReceivedBuffer →
    List Deed
  | none => []
  | some b =>
    match (l.connections.get? fd).filter Connection.isOpen with
    | none => []
    | some connection =>
      .tally fd payload.length :: access l (messageLine fd connection.peer b.id payload) ++
        [.answer fd payload]

def closing (fd : Descriptor) (t : ConnectionTable) : List Deed :=
  if (t.get? fd).any (·.state ≠ .closing) then [.close fd] else []

/-- A receive stream that has ended is armed again for an open connection. -/
def rearming (fd : Descriptor) (t : ConnectionTable) : List Deed :=
  if t.isOpen fd then [.armReceive fd] else closing fd t

/-- What follows from a receive, with the stream still armed or not. -/
def aftermath (fd : Descriptor) (t : ConnectionTable) (armed : Bool) : Received → List Deed
  | .delivered | .noBuffers => if armed then [] else rearming fd t
  | .ended => closing fd t
  | .failed _ => if armed then [] else closing fd t
  | .malformed _ =>
    .blame :: if armed then (if t.isOpen fd then [.shutDown fd] else []) else closing fd t

/-- What is to be done about a completion whose buffer has been taken. The completion of a fixed
write has no plan: it releases a slot and nothing else. -/
def plan [BufferSource ρ] (c : Completion) (buffer : Option ReceivedBuffer)
    (l : EventLoop β ρ σ) : List Deed :=
  let fd := c.tag.descriptor.toInt32
  match c.tag.opcode? with
  | some .accept =>
    (if c.result < 0 then []
      else .track c.result :: .armReceive c.result ::
        access l (acceptedLine c.result (l.peerOf c.result))) ++
      if c.hasMore then [] else [.armAccept fd]
  | some .receive =>
    let (outcome, payload) := judge l.ring c.result buffer
    (if outcome = .delivered then hearing fd l payload buffer else []) ++
      (buffer.map Deed.recycle).toList ++ aftermath fd l.connections c.hasMore outcome
  | some .close =>
    .forget fd :: match l.connections.get? fd with
      | none => []
      | some x => access l (closedLine fd x)
  | _ => []

/-! ## Performing deeds -/

/-- The loops differ at most in what is told and counted, malformed completions apart. -/
def Quiet (l m : EventLoop β ρ σ) : Prop :=
  m = { l with counters := m.counters, events := m.events } ∧
    m.counters.faults = l.counters.faults

theorem Quiet.refl (l : EventLoop β ρ σ) : Quiet l l := ⟨rfl, rfl⟩

theorem Quiet.trans {l m n : EventLoop β ρ σ} (h : Quiet l m) (h' : Quiet m n) : Quiet l n := by
  refine ⟨?_, h'.2.trans h.2⟩
  rw [h'.1, h.1]

theorem Quiet.aside {l m : EventLoop β ρ σ} (h : Quiet l m) : Aside l m := by
  rw [h.1]
  rfl

/-- The deeds are done one after the other, up to the first that is a fault. After a fault at most
a buffer goes back. -/
inductive Performs [Backend β] [BufferSource ρ] :
    List Deed → EventLoop β ρ σ → Option Fault → EventLoop β ρ σ → Prop
  | nil {l m : EventLoop β ρ σ} : Quiet l m → Performs [] l none m
  | deed {d : Deed} {ds : List Deed} {l k n m : EventLoop β ρ σ} {x : Option Fault} :
    Quiet l k → exec d.run k = (.ok (), n) → Performs ds n x m → Performs (d :: ds) l x m
  | fault {d : Deed} {ds : List Deed} {l k n m : EventLoop β ρ σ} {e : Fault} :
    Quiet l k → exec d.run k = (.error e, n) → m = { n with ring := m.ring } →
    Performs (d :: ds) l (some e) m

namespace Performs

variable [Backend β] [BufferSource ρ] {ds es : List Deed} {l m n : EventLoop β ρ σ}
  {x : Option Fault} {e : Fault}

theorem quiet_left {k : EventLoop β ρ σ} (hq : Quiet l k) (h : Performs ds k x m) :
    Performs ds l x m := by
  cases h with
  | nil hk => exact .nil (hq.trans hk)
  | deed hk run rest => exact .deed (hq.trans hk) run rest
  | fault hk run tidy => exact .fault (hq.trans hk) run tidy

theorem append_done (h : Performs ds l none m) (h' : Performs es m x n) :
    Performs (ds ++ es) l x n := by
  generalize hx : (none : Option Fault) = y at h
  induction h with
  | nil hq => exact h'.quiet_left hq
  | deed hq run _ ih => exact .deed hq run (ih h' hx)
  | fault => cases hx

theorem tidied (h : Performs ds l (some e) m) (r : ρ) :
    Performs ds l (some e) { m with ring := r } := by
  generalize hx : some e = y at h
  induction h with
  | nil => cases hx
  | deed hq run _ ih => exact .deed hq run (ih hx)
  | fault hq run tidy =>
    refine .fault hq run ?_
    rw [tidy]

theorem append_fault (h : Performs ds l (some e) m) : Performs (ds ++ es) l (some e) m := by
  generalize hx : some e = y at h
  induction h with
  | nil => cases hx
  | deed hq run _ ih => exact .deed hq run (ih hx)
  | fault hq run tidy => exact .fault hq run tidy

/-- Either there is a fault among the first deeds, or they are done before the others. -/
theorem split (h : Performs (ds ++ es) l x m) :
    (∃ e, x = some e ∧ Performs ds l x m) ∨ ∃ n, Performs ds l none n ∧ Performs es n x m := by
  induction ds generalizing l with
  | nil => exact Or.inr ⟨l, .nil (.refl l), h⟩
  | cons d ds ih =>
    cases h with
    | deed hq run rest =>
      rcases ih rest with ⟨e, hx, faulted⟩ | ⟨n, first, later⟩
      · exact Or.inl ⟨e, hx, .deed hq run faulted⟩
      · exact Or.inr ⟨n, .deed hq run first, later⟩
    | fault hq run tidy => exact Or.inl ⟨_, rfl, .fault hq run tidy⟩

end Performs

section

variable [Backend β] [BufferSource ρ] {ds es : List Deed} {l : EventLoop β ρ σ}

theorem performs_bind {f : LoopM β ρ σ α} {g : α → LoopM β ρ σ γ} (hf : Ends (Performs ds) f l)
    (hg : ∀ a m, exec f l = (.ok a, m) → Ends (Performs es) (g a) m) :
    Ends (Performs (ds ++ es)) (f >>= g) l := by
  rcases h : exec f l with ⟨e | a, m⟩
  · exact Ends.of_exec (exec_bind_error h) (hf.to_exec h).append_fault
  · rw [Ends, exec_bind_ok h]
    exact (hf.to_exec h).append_done (hg a m h)

/-- What nobody notices may come before. -/
theorem performs_quietly {f : LoopM β ρ σ α} {g : α → LoopM β ρ σ γ}
    (hf : Ends (Performs []) f l)
    (hg : ∀ a m, exec f l = (.ok a, m) → Ends (Performs es) (g a) m) :
    Ends (Performs es) (f >>= g) l :=
  performs_bind hf hg

theorem performs_first {f : LoopM β ρ σ α} {g : α → LoopM β ρ σ γ} {d : Deed}
    (hf : Ends (Performs [d]) f l)
    (hg : ∀ a m, exec f l = (.ok a, m) → Ends (Performs es) (g a) m) :
    Ends (Performs (d :: es)) (f >>= g) l :=
  performs_bind hf hg

/-- What nobody notices may come after. -/
theorem performs_last {f : LoopM β ρ σ α} {g : α → LoopM β ρ σ γ} (hf : Ends (Performs ds) f l)
    (hg : ∀ a m, Ends (Performs []) (g a) m) : Ends (Performs ds) (f >>= g) l := by
  have both := performs_bind hf fun a m _ => hg a m
  rwa [List.append_nil] at both

/-- A step that nobody notices. -/
theorem performs_nil {f : LoopM β ρ σ α} {a : α} {m : EventLoop β ρ σ} (h : exec f l = (.ok a, m))
    (hq : Quiet l m) : Ends (Performs []) f l :=
  Ends.of_exec h (.nil hq)

theorem performs_emit (level : Level) (message : String) (fields : List (String × String)) :
    Ends (Performs []) (emit level message fields) l :=
  performs_nil (exec_emit level message fields l) ⟨rfl, rfl⟩

theorem performs_count {f : Counters → Counters} (hf : (f l.counters).faults = l.counters.faults) :
    Ends (Performs []) (count f) l :=
  performs_nil (exec_count f l) ⟨rfl, hf⟩

theorem performs_run (d : Deed) (l : EventLoop β ρ σ) : Ends (Performs [d]) d.run l := by
  rcases h : exec (d.run : LoopM β ρ σ Unit) l with ⟨e | a, m⟩
  · exact Ends.of_exec h (.fault (.refl l) h rfl)
  · exact Ends.of_exec h (.deed (.refl l) h (.nil (.refl m)))

theorem performs_exec {d : Deed} {f : LoopM β ρ σ Unit} (h : exec f l = exec d.run l) :
    Ends (Performs [d]) f l := by
  rw [Ends, h]
  exact performs_run d l

end

/-! ## What deeds change -/

section

variable [Backend β]

/-- Pushes lead from one state of a backend to another, and nothing else happens to it. -/
inductive Loaded (b : β) : β → Prop
  | rest : Loaded b b
  | push {c : β} (memory : Memory) (s : Submission) :
    Loaded b c → Loaded b (Backend.push memory s c).2

theorem Loaded.trans {a b c : β} (h : Loaded a b) (h' : Loaded b c) : Loaded a c := by
  induction h' with
  | rest => exact h
  | push memory s _ ih => exact .push memory s ih

/-- What is sent touches neither connections nor buffers. -/
structure Spares (l : EventLoop β ρ σ) (_ : Option Fault) (m : EventLoop β ρ σ) : Prop where
  connections : m.connections = l.connections
  ring : m.ring = l.ring
  faults : m.counters.faults = l.counters.faults
  peerOf : m.peerOf = l.peerOf
  accessLog : m.accessLog = l.accessLog
  handler : m.handler = l.handler
  listener : m.listener = l.listener
  backend : Loaded l.backend m.backend

theorem spares_composable : Composable (Spares : StepRelation β ρ σ) where
  refl _ := ⟨rfl, rfl, rfl, rfl, rfl, rfl, rfl, .rest⟩
  trans h h' := ⟨h'.connections.trans h.connections, h'.ring.trans h.ring,
    h'.faults.trans h.faults, h'.peerOf.trans h.peerOf, h'.accessLog.trans h.accessLog,
    h'.handler.trans h.handler, h'.listener.trans h.listener, h.backend.trans h'.backend⟩

theorem Quiet.spares {l m : EventLoop β ρ σ} (h : Quiet l m) (x : Option Fault) :
    Spares l x m := by
  obtain ⟨ha, hf⟩ := h
  rw [ha]
  exact ⟨rfl, rfl, hf, rfl, rfl, rfl, rfl, .rest⟩

theorem spares_liftExcept (x : Except Fault α) :
    Keeps (Spares : StepRelation β ρ σ) (liftExcept x) := by
  intro l
  rw [Ends, exec_liftExcept]
  exact ⟨rfl, rfl, rfl, rfl, rfl, rfl, rfl, .rest⟩

theorem spares_count {f : Counters → Counters} (hf : ∀ n, (f n).faults = n.faults) :
    Keeps (Spares : StepRelation β ρ σ) (count f) :=
  fun l => ⟨rfl, rfl, hf l.counters, rfl, rfl, rfl, rfl, .rest⟩

theorem spares_emit (level : Level) (message : String) (fields : List (String × String)) :
    Keeps (Spares : StepRelation β ρ σ) (emit level message fields) :=
  fun _ => ⟨rfl, rfl, rfl, rfl, rfl, rfl, rfl, .rest⟩

theorem spares_acquireSlot : Keeps (Spares : StepRelation β ρ σ) acquireSlot :=
  fun _ => ⟨rfl, rfl, rfl, rfl, rfl, rfl, rfl, .rest⟩

theorem spares_submit (tag : Tag) (operation : Operation) :
    Keeps (Spares : StepRelation β ρ σ) (submit tag operation) := by
  intro l
  rw [Ends, exec_submit]
  exact ⟨rfl, rfl, rfl, rfl, rfl, rfl, rfl, .push _ _ .rest⟩

theorem spares_sendSlot (fd : Descriptor) (slot : Slot) (length : Nat) :
    Keeps (Spares : StepRelation β ρ σ) (sendSlot fd slot length) := by
  refine Keeps.bind spares_composable (Keeps.get_bind fun l => ?_) fun loan => ?_
  · refine Keeps.bind spares_composable (spares_liftExcept _) (fun lent => ?_) l
    exact fun _ => ⟨rfl, rfl, rfl, rfl, rfl, rfl, rfl, .rest⟩
  · exact spares_submit _ _

theorem spares_writeLog (level : Level) (message : String) :
    Keeps (Spares : StepRelation β ρ σ) (writeLog level message) := by
  refine Keeps.bind spares_composable spares_acquireSlot fun slot => ?_
  cases slot with
  | none =>
    exact Keeps.bind spares_composable (spares_count fun _ => rfl) fun _ => spares_emit _ _ _
  | some slot =>
    refine Keeps.bind spares_composable ?_ fun now => ?_
    · exact fun _ => ⟨rfl, rfl, rfl, rfl, rfl, rfl, rfl, .rest⟩
    refine Keeps.bind spares_composable ?_ fun length => ?_
    · exact fun _ => ⟨rfl, rfl, rfl, rfl, rfl, rfl, rfl, .rest⟩
    exact Keeps.bind spares_composable (spares_sendSlot _ _ _) fun _ => spares_count fun _ => rfl

theorem spares_queueReply (fd : Descriptor) (reply : Reply) :
    Keeps (Spares : StepRelation β ρ σ) (queueReply fd reply) := by
  cases reply with
  | nothing => exact Keeps.pure spares_composable ()
  | fixed bytes =>
    exact Keeps.bind spares_composable (spares_submit _ _) fun _ => spares_count fun _ => rfl
  | copied bytes =>
    have sending : ∀ slot length, Keeps (Spares : StepRelation β ρ σ)
        (sendSlot fd slot length >>= fun _ => countReply) := fun slot length =>
      Keeps.bind spares_composable (spares_sendSlot _ _ _) fun _ => spares_count fun _ => rfl
    refine Keeps.bind spares_composable spares_acquireSlot fun slot => ?_
    cases slot with
    | none =>
      exact Keeps.bind spares_composable (spares_count fun _ => rfl) fun _ => spares_emit _ _ _
    | some slot =>
      refine Keeps.get_bind fun l => Keeps.bind spares_composable ?_ (fun _ => ?_) l
      · exact fun _ => ⟨rfl, rfl, rfl, rfl, rfl, rfl, rfl, .rest⟩
      refine Keeps.ite ?_ ?_
      · exact Keeps.bind spares_composable (spares_count fun _ => rfl) fun _ =>
          Keeps.bind spares_composable (spares_emit _ _ _) fun _ => sending _ _
      · exact sending _ _

theorem spares_answer (fd : Descriptor) (payload : Bytes) :
    Keeps (Spares : StepRelation β ρ σ) (answer fd payload) := by
  intro l
  rw [Ends, exec_answer]
  refine spares_composable.trans ?_ (spares_queueReply fd _ _)
  exact ⟨rfl, rfl, rfl, rfl, rfl, rfl, rfl, .rest⟩

variable [BufferSource ρ]

/-- What a deed leaves behind, whether it is a fault or not. -/
structure Deed.Leaves (d : Deed) (l m : EventLoop β ρ σ) : Prop where
  connections : m.connections = d.onTable l.peerOf l.connections
  ring : m.ring = d.onRing l.ring
  faults : d ≠ .blame → m.counters.faults = l.counters.faults
  peerOf : m.peerOf = l.peerOf
  accessLog : m.accessLog = l.accessLog
  handler : m.handler = l.handler
  listener : m.listener = l.listener
  backend : Loaded l.backend m.backend

theorem Spares.leaves {d : Deed} {l k m : EventLoop β ρ σ} {x : Option Fault}
    (h : Spares k x m) (ht : k = { l with connections := d.onTable l.peerOf l.connections })
    (hr : d.onRing l.ring = l.ring) : d.Leaves l m := by
  subst ht
  exact ⟨h.connections, h.ring.trans hr.symm, fun _ => h.faults, h.peerOf, h.accessLog,
    h.handler, h.listener, h.backend⟩

theorem Deed.leaves {d : Deed} {l m : EventLoop β ρ σ} {x : Except Fault Unit}
    (h : exec d.run l = (x, m)) : d.Leaves l m := by
  have only : ∀ {f : LoopM β ρ σ Unit} {k}, exec f k = (x, m) → Keeps Spares f →
      Spares k (fault? x) m := fun h hf => (hf _).to_exec h
  cases d with
  | track fd => cases h; exact ⟨rfl, rfl, fun _ => rfl, rfl, rfl, rfl, rfl, .rest⟩
  | forget fd => cases h; exact ⟨rfl, rfl, fun _ => rfl, rfl, rfl, rfl, rfl, .rest⟩
  | tally fd n => cases h; exact ⟨rfl, rfl, fun _ => rfl, rfl, rfl, rfl, rfl, .rest⟩
  | recycle b => cases h; exact ⟨rfl, rfl, fun _ => rfl, rfl, rfl, rfl, rfl, .rest⟩
  | blame => cases h; exact ⟨rfl, rfl, fun h => absurd rfl h, rfl, rfl, rfl, rfl, .rest⟩
  | armAccept fd => exact (only h (spares_submit _ _)).leaves rfl rfl
  | armReceive fd =>
    exact (only h (Keeps.get_bind fun l => spares_submit _ _ l)).leaves rfl rfl
  | shutDown fd =>
    rw [Deed.run, exec_bind_ok (exec_modify _ l)] at h
    exact (only h (spares_submit _ _)).leaves rfl rfl
  | close fd =>
    rw [Deed.run, exec_bind_ok (exec_modify _ l)] at h
    exact (only h (spares_submit _ _)).leaves rfl rfl
  | log message => exact (only h (spares_writeLog _ _)).leaves rfl rfl
  | answer fd payload => exact (only h (spares_answer _ _)).leaves rfl rfl

end

namespace Performs

variable [Backend β] [BufferSource ρ] {ds : List Deed} {l m : EventLoop β ρ σ}
  {x : Option Fault}

theorem connections (h : Performs ds l none m) :
    m.connections = ds.foldl (Deed.onTable l.peerOf) l.connections := by
  generalize hx : (none : Option Fault) = y at h
  induction h with
  | nil hq => exact (hq.spares none).connections
  | deed hq run _ ih =>
    have before := hq.spares none
    have after := Deed.leaves run
    rw [ih hx, after.peerOf, after.connections, before.peerOf, before.connections]
    rfl
  | fault => cases hx

theorem ring (h : Performs ds l none m) : m.ring = ds.foldl Deed.onRing l.ring := by
  generalize hx : (none : Option Fault) = y at h
  induction h with
  | nil hq => exact (hq.spares none).ring
  | deed hq run _ ih =>
    rw [ih hx, (Deed.leaves run).ring, (hq.spares none).ring]
    rfl
  | fault => cases hx

theorem accessLog (h : Performs ds l x m) : m.accessLog = l.accessLog := by
  induction h with
  | nil hq => exact (hq.spares none).accessLog
  | deed hq run _ ih => rw [ih, (Deed.leaves run).accessLog, (hq.spares none).accessLog]
  | fault hq run tidy =>
    rw [tidy]
    exact (Deed.leaves run).accessLog.trans (hq.spares none).accessLog

theorem peerOf (h : Performs ds l x m) : m.peerOf = l.peerOf := by
  induction h with
  | nil hq => exact (hq.spares none).peerOf
  | deed hq run _ ih => rw [ih, (Deed.leaves run).peerOf, (hq.spares none).peerOf]
  | fault hq run tidy =>
    rw [tidy]
    exact (Deed.leaves run).peerOf.trans (hq.spares none).peerOf

theorem backend (h : Performs ds l x m) : Loaded l.backend m.backend := by
  induction h with
  | nil hq => exact (hq.spares none).backend
  | deed hq run _ ih => exact ((hq.spares none).backend.trans (Deed.leaves run).backend).trans ih
  | fault hq run tidy =>
    rw [tidy]
    exact (hq.spares none).backend.trans (Deed.leaves run).backend

/-- Malformed completions are counted by the one deed that is there for it. -/
theorem faults (h : Performs ds l x m) (hb : .blame ∉ ds) :
    m.counters.faults = l.counters.faults := by
  induction h with
  | nil hq => exact hq.2
  | deed hq run _ ih =>
    rw [List.mem_cons, not_or] at hb
    rw [ih hb.2, (Deed.leaves run).faults (Ne.symm hb.1), hq.2]
  | fault hq run tidy =>
    rw [List.mem_cons, not_or] at hb
    rw [tidy]
    exact ((Deed.leaves run).faults (Ne.symm hb.1)).trans hq.2

end Performs

/-! ## Dispatches go by their plan -/

section

variable [Backend β] [BufferSource ρ] {l m : EventLoop β ρ σ}

theorem performs_writeAccess {k : EventLoop β ρ σ} (message : String)
    (hk : k.accessLog = l.accessLog) :
    Ends (Performs (access k message)) (writeAccess message) l := by
  unfold writeAccess access
  rw [Ends, exec_bind_ok (exec_get l), hk]
  split
  · exact performs_run (.log message) l
  · exact .nil (.refl l)

theorem performs_closeConnection (fd : Descriptor) {t : ConnectionTable}
    (ht : l.connections = t) : Ends (Performs (closing fd t)) (closeConnection fd) l := by
  subst ht
  unfold closing
  rcases exec_closeConnection fd l with ⟨c, hc, hs, e⟩ | ⟨hc, e⟩
  · rw [if_pos (by simp [hc, hs])]
    refine performs_exec (d := .close fd) ?_
    rw [e, Deed.run, exec_bind_ok (exec_modify _ l)]
  · rw [if_neg, Ends, e]
    · exact .nil (.refl l)
    · simpa [Option.any_eq_true] using hc

theorem performs_shutdownConnection (fd : Descriptor) (armed : Bool) {t : ConnectionTable}
    (ht : l.connections = t) :
    Ends (Performs (if armed then (if t.isOpen fd then [.shutDown fd] else [])
      else closing fd t)) (shutdownConnection fd armed) l := by
  subst ht
  cases armed with
  | false => exact performs_closeConnection fd rfl
  | true =>
    simp only [if_true]
    rcases exec_shutdownConnection fd l with ⟨c, hc, hs, e⟩ | ⟨hc, e⟩
    · rw [if_pos (l.connections.isOpen_iff.mpr ⟨c, hc, hs⟩)]
      refine performs_exec (d := .shutDown fd) ?_
      rw [e, Deed.run, exec_bind_ok (exec_modify _ l)]
    · rw [if_neg, Ends, e]
      · exact .nil (.refl l)
      · rw [ConnectionTable.isOpen_iff]
        rintro ⟨c, h, hs⟩
        exact hc c h hs

theorem performs_rearmOrClose (fd : Descriptor) {t : ConnectionTable} (ht : l.connections = t) :
    Ends (Performs (rearming fd t)) (rearmOrClose fd) l := by
  subst ht
  unfold rearmOrClose rearming
  rw [Ends, exec_bind_ok (exec_get l)]
  by_cases ho : l.connections.isOpen fd = true
  · rw [if_pos ho, if_pos ho]
    refine performs_quietly (performs_count rfl) fun _ m hm => ?_
    refine performs_quietly (performs_emit _ _ _) fun _ n hn => ?_
    exact performs_run (.armReceive fd) n
  · rw [if_neg ho, if_neg ho]
    exact performs_closeConnection fd rfl

theorem performs_concludeReceive (fd : Descriptor) (armed : Bool) (outcome : Received)
    {t : ConnectionTable} (ht : l.connections = t) :
    Ends (Performs (aftermath fd t armed outcome)) (concludeReceive fd armed outcome) l := by
  have unless_armed : ∀ {ds : List Deed} {f : LoopM β ρ σ Unit} {k : EventLoop β ρ σ},
      Ends (Performs ds) f k →
      Ends (Performs (if armed then [] else ds)) (if armed then pure () else f) k := by
    intro ds f k hf
    cases armed with
    | false => exact hf
    | true => exact .nil (.refl k)
  cases outcome with
  | delivered => exact unless_armed (performs_rearmOrClose fd ht)
  | noBuffers =>
    refine performs_bind (performs_count rfl) fun _ m hm => ?_
    cases hm
    refine performs_quietly (performs_emit _ _ _) fun _ m hm => ?_
    cases hm
    exact unless_armed (performs_rearmOrClose fd ht)
  | ended =>
    refine performs_bind (performs_emit _ _ _) fun _ m hm => ?_
    cases hm
    exact performs_closeConnection fd ht
  | failed errno =>
    refine performs_bind (performs_emit _ _ _) fun _ m hm => ?_
    cases hm
    exact unless_armed (performs_closeConnection fd ht)
  | malformed cause =>
    refine performs_first (performs_run .blame l) fun _ m hm => ?_
    cases hm
    refine performs_quietly (performs_emit _ _ _) fun _ m hm => ?_
    cases hm
    exact performs_shutdownConnection fd armed ht

theorem performs_handle (fd : Descriptor) (peer : Option SocketAddress) (id : UInt16)
    (payload : Bytes) (l : EventLoop β ρ σ) :
    Ends (Performs (.tally fd payload.length :: access l (messageLine fd peer id payload) ++
      [.answer fd payload])) (handle fd peer id payload) l := by
  refine performs_first (performs_run _ l) fun _ m hm => ?_
  cases hm
  refine performs_quietly (performs_count rfl) fun _ m hm => ?_
  cases hm
  refine performs_quietly (performs_emit _ _ _) fun _ m hm => ?_
  cases hm
  refine performs_bind (performs_writeAccess _ rfl) fun _ m _ => ?_
  exact performs_run (.answer fd payload) m

omit [Backend β] in
theorem exec_takeBuffer (c : Completion) (h : c.tag.opcode? = some .receive)
    (l : EventLoop β ρ σ) :
    exec (takeBuffer c) l = ((grasp c l.ring).1, { l with ring := (grasp c l.ring).2 }) := by
  unfold takeBuffer grasp
  rw [if_pos h]
  rcases c.bufferId? with _ | id
  · rfl
  · simp only []
    rw [exec_bind_ok (exec_modifyGet _ l)]
    rcases BufferSource.take id c.result.toInt.toNat l.ring with ⟨e | b, ring⟩ <;> rfl

/-- The message that a receive is found to bring. -/
def heard (fd : Descriptor) (l : EventLoop β ρ σ) (result : Int32)
    (buffer : Option ReceivedBuffer) : List Deed :=
  if (judge l.ring result buffer).1 = .delivered
  then hearing fd l (judge l.ring result buffer).2 buffer else []

omit [Backend β] in
/-- The message comes first, then the buffer goes back, and then come the consequences. -/
theorem plan_receive {c : Completion} {buffer : Option ReceivedBuffer} {k : EventLoop β ρ σ}
    (hr : c.tag.opcode? = some .receive) : plan c buffer k =
      heard c.tag.descriptor.toInt32 k c.result buffer ++ ((buffer.map Deed.recycle).toList ++
        aftermath c.tag.descriptor.toInt32 k.connections c.hasMore
          (judge k.ring c.result buffer).1) := by
  unfold plan heard
  rw [hr, ← List.append_assoc]

/-- What is left to do about a message once its envelope has been read. -/
def hand (fd : Descriptor) (id : UInt16) (payload : Bytes) (connection : Option Connection) :
    LoopM β ρ σ Received := do
  match connection with
  | none =>
    emit .debug "dropping data for closing connection"
      [("fd", toString fd), ("len", toString payload.length)]
  | some connection => handle fd connection.peer id payload
  return .delivered

/-- A receive either brings no message, and then nothing is done about it yet, or it brings one to
hand on. -/
theorem receiveOutcome_cases (fd : Descriptor) (result : Int32) (buffer : Option ReceivedBuffer)
    (l : EventLoop β ρ σ) :
    ((judge l.ring result buffer).1 ≠ .delivered ∧
      exec (receiveOutcome fd result buffer) l = (.ok (judge l.ring result buffer).1, l)) ∨
    ∃ b payload, buffer = some b ∧ judge l.ring result buffer = (.delivered, payload) ∧
      exec (receiveOutcome fd result buffer) l =
        exec (hand fd b.id payload ((l.connections.get? fd).filter Connection.isOpen)) l := by
  unfold judge receiveOutcome
  split
  · exact Or.inl ⟨by simp, rfl⟩
  split
  · exact Or.inl ⟨by simp, rfl⟩
  split
  · exact Or.inl ⟨by simp, rfl⟩
  rw [exec_bind_ok (exec_get l)]
  split
  · exact Or.inl ⟨by simp, rfl⟩
  cases buffer with
  | none => exact Or.inl ⟨by simp, rfl⟩
  | some b =>
    simp only []
    unfold deliver
    rw [exec_bind_ok (exec_get l)]
    cases Envelope.parse? (BufferSource.data l.ring b) with
    | none => exact Or.inl ⟨by simp, rfl⟩
    | some envelope =>
      simp only []
      split
      · exact Or.inl ⟨by simp, rfl⟩
      split
      · exact Or.inl ⟨by simp, rfl⟩
      · refine Or.inr ⟨b, _, rfl, rfl, ?_⟩
        unfold hand
        cases (l.connections.get? fd).filter Connection.isOpen <;> rfl

theorem performs_hand (fd : Descriptor) (b : ReceivedBuffer) (payload : Bytes)
    (l : EventLoop β ρ σ) :
    Ends (Performs (hearing fd l payload (some b)))
      (hand fd b.id payload ((l.connections.get? fd).filter Connection.isOpen)) l ∧
    ∀ outcome m, exec (hand fd b.id payload ((l.connections.get? fd).filter Connection.isOpen)) l =
      (.ok outcome, m) → outcome = .delivered := by
  unfold hand hearing
  cases (l.connections.get? fd).filter Connection.isOpen with
  | none =>
    refine ⟨performs_last (performs_emit _ _ _) fun _ m => .nil (.refl m), ?_⟩
    rintro outcome m ⟨⟩
    rfl
  | some connection =>
    refine ⟨performs_last (performs_handle fd connection.peer b.id payload l)
      fun _ m => .nil (.refl m), ?_⟩
    intro outcome m he
    simp only [exec_bind] at he
    split at he
    · cases he
      rfl
    · cases he

theorem performs_receiveOutcome (fd : Descriptor) (result : Int32) (buffer : Option ReceivedBuffer)
    (l : EventLoop β ρ σ) :
    Ends (Performs (heard fd l result buffer)) (receiveOutcome fd result buffer) l ∧
      ∀ outcome m, exec (receiveOutcome fd result buffer) l = (.ok outcome, m) →
        outcome = (judge l.ring result buffer).1 := by
  unfold heard
  rcases receiveOutcome_cases fd result buffer l with ⟨hj, he⟩ | ⟨b, payload, rfl, hj, he⟩
  · rw [if_neg hj, Ends, he]
    refine ⟨.nil (.refl l), ?_⟩
    rintro outcome m ⟨⟩
    rfl
  · rw [hj, if_pos rfl, Ends, he]
    exact performs_hand fd b payload l

/-- The messages of other connections aside, a message changes no state in the table. -/
theorem connections_heard {fd : Descriptor} {result : Int32} {buffer : Option ReceivedBuffer}
    (h : Performs (heard fd l result buffer) l none m) :
    m.connections = l.connections ∨
      ∃ n, m.connections = l.connections.modify fd (.count n) := by
  have table := h.connections
  unfold heard hearing access at table
  split at table
  · split at table
    · exact Or.inl table
    · split at table
      · exact Or.inl table
      · split at table
        · exact Or.inr ⟨_, table⟩
        · exact Or.inr ⟨_, table⟩
  · exact Or.inl table

omit [Backend β] [BufferSource ρ] in
theorem aftermath_modify_count (fd : Descriptor) (t : ConnectionTable) (n : UInt64) (armed : Bool)
    (outcome : Received) :
    aftermath fd (t.modify fd (.count n)) armed outcome = aftermath fd t armed outcome := by
  have same : closing fd (t.modify fd (.count n)) = closing fd t := by
    rw [closing, closing, ConnectionTable.get?_modify, if_pos rfl, Option.any_map]
    rfl
  have open_iff : (t.modify fd (.count n)).isOpen fd = t.isOpen fd := by
    rw [ConnectionTable.isOpen, ConnectionTable.get?_modify, if_pos rfl, Option.any_map]
    rfl
  unfold aftermath rearming
  rw [same, open_iff]

theorem performs_onReceive {c : Completion} {buffer : Option ReceivedBuffer}
    (hr : c.tag.opcode? = some .receive) (hg : (grasp c l.ring).1 = .ok buffer) :
    Performs (plan c buffer { l with ring := (grasp c l.ring).2 })
      { l with ring := (grasp c l.ring).2 }
      (fault? (exec (onReceive c.tag.descriptor.toInt32 c) l).1)
      (exec (onReceive c.tag.descriptor.toInt32 c) l).2 := by
  rw [plan_receive hr, exec_onReceive, exec_takeBuffer c hr, hg]
  generalize ({ l with ring := (grasp c l.ring).2 } : EventLoop β ρ σ) = k
  obtain ⟨performed, judged⟩ :=
    performs_receiveOutcome c.tag.descriptor.toInt32 c.result buffer k
  simp only []
  rcases he : exec (receiveOutcome c.tag.descriptor.toInt32 c.result buffer) k with
    ⟨e | outcome, n⟩
  · have before := performed.to_exec he
    simp only []
    cases buffer with
    | none => exact before.append_fault
    | some b => exact (before.tidied _).append_fault
  · have before := performed.to_exec he
    have same := judged outcome n he
    rw [← same]
    refine before.append_done ?_
    have after : ∀ p : EventLoop β ρ σ, p.connections = n.connections →
        Ends (Performs (aftermath c.tag.descriptor.toInt32 k.connections c.hasMore outcome))
          (concludeReceive c.tag.descriptor.toInt32 c.hasMore outcome) p := by
      intro p hp
      rcases connections_heard before with e | ⟨count, e⟩
      · exact performs_concludeReceive _ _ _ (hp.trans e)
      · rw [← aftermath_modify_count _ _ count]
        exact performs_concludeReceive _ _ _ (hp.trans e)
    cases buffer with
    | none => exact after n rfl
    | some b => exact (performs_run (.recycle b) n).append_done (after (returned (some b) n) rfl)

/-! ## Accept and close completions -/

theorem performs_track (fd : Descriptor) (l : EventLoop β ρ σ) :
    Ends (Performs [.track fd]) (track fd (l.peerOf fd)) l := by
  obtain ⟨m, hm, aside⟩ := exec_track fd l
  have still : Keeps (fun (l : EventLoop β ρ σ) _ m =>
      m.counters.faults = l.counters.faults ∧ m.readings = l.readings)
      (track fd (l.peerOf fd)) := by
    have composable : Composable fun (l : EventLoop β ρ σ) _ m =>
        m.counters.faults = l.counters.faults ∧ m.readings = l.readings :=
      ⟨fun _ => ⟨rfl, rfl⟩, fun h h' => ⟨h'.1.trans h.1, h'.2.trans h.2⟩⟩
    refine Keeps.bind composable (fun _ => ⟨rfl, rfl⟩) fun done =>
      Keeps.ite (Keeps.pure composable ()) ?_
    refine Keeps.bind composable (fun _ => ⟨rfl, rfl⟩) fun _ => ?_
    exact Keeps.bind composable (fun _ => ⟨rfl, rfl⟩) fun _ => Keeps.pure composable ()
  obtain ⟨faults, readings⟩ := (still l).to_exec hm
  have quiet : Quiet (tracked fd l) m := by
    refine ⟨?_, faults⟩
    rw [aside, readings]
    rfl
  exact Ends.of_exec hm (.deed (.refl l) rfl (.nil quiet))

theorem performs_onAccept (c : Completion) (ha : c.tag.opcode? = some .accept)
    (l : EventLoop β ρ σ) :
    Ends (Performs (plan c none l)) (onAccept c.tag.descriptor.toInt32 c) l := by
  have rearm : ∀ k : EventLoop β ρ σ,
      Ends (Performs (if c.hasMore then [] else [.armAccept c.tag.descriptor.toInt32]))
        (if (!c.hasMore) = true then do
          count fun n => { n with acceptRearms := n.acceptRearms + 1 }
          emit .debug "re-arming multishot accept" [("fd", toString c.tag.descriptor.toInt32)]
          armAccept c.tag.descriptor.toInt32
        else pure () : LoopM β ρ σ Unit) k := by
    intro k
    cases c.hasMore with
    | true => exact .nil (.refl k)
    | false =>
      refine performs_quietly (performs_count rfl) fun _ m _ => ?_
      refine performs_quietly (performs_emit _ _ _) fun _ n _ => ?_
      exact performs_run (.armAccept _) n
  unfold onAccept plan
  rw [ha]
  simp only []
  split
  · refine performs_quietly (performs_count rfl) fun _ m _ => ?_
    refine performs_quietly (performs_emit _ _ _) fun _ n _ => ?_
    exact rearm n
  · rw [Ends, exec_bind_ok (exec_get l)]
    refine performs_first (performs_track c.result l) fun _ m hm => ?_
    have kept : m.accessLog = l.accessLog := ((performs_track c.result l).to_exec hm).accessLog
    refine performs_quietly (performs_count rfl) fun _ m hm => ?_
    cases hm
    refine performs_quietly (performs_emit _ _ _) fun _ m hm => ?_
    cases hm
    refine performs_first (performs_run _ _) fun _ m hm => ?_
    have kept' := (Deed.leaves (d := .armReceive c.result) hm).accessLog
    refine performs_bind (performs_writeAccess _ ?_) fun _ m hm => rearm m
    exact (kept'.trans kept).symm

theorem performs_farewell (fd : Descriptor) (x : Option Connection) {k : EventLoop β ρ σ}
    (hk : k.accessLog = l.accessLog) :
    Ends (Performs (match x with | none => [] | some x => access l (closedLine fd x)))
      (farewell fd x) k := by
  cases x with
  | none => exact performs_emit _ _ _
  | some x =>
    refine performs_quietly (performs_count rfl) fun _ m hm => ?_
    cases hm
    refine performs_quietly (performs_emit _ _ _) fun _ m hm => ?_
    cases hm
    exact performs_writeAccess _ hk.symm

theorem performs_onClose (c : Completion) (hc : c.tag.opcode? = some .close)
    (l : EventLoop β ρ σ) :
    Ends (Performs (plan c none l)) (onClose c.tag.descriptor.toInt32 c) l := by
  have forget : ∀ k, Quiet l k → Ends (Performs (plan c none l))
      ((modifyGet fun l : EventLoop β ρ σ => (l.connections.get? c.tag.descriptor.toInt32,
        untracked c.tag.descriptor.toInt32 l)) >>= farewell c.tag.descriptor.toInt32) k := by
    intro k hk
    have same : k.connections = l.connections := (hk.spares none).connections
    rw [Ends, exec_bind_ok (exec_modifyGet _ k), same]
    unfold plan
    rw [hc]
    refine .deed (.refl k) rfl (performs_farewell _ _ ?_)
    exact (hk.spares none).accessLog
  unfold onClose
  split
  · exact performs_quietly (performs_emit _ _ _) fun _ m hm => by
      cases hm
      exact forget _ ⟨rfl, rfl⟩
  · exact forget l (.refl l)

/-- A dispatch takes the buffer of its completion and then goes by its plan. If the buffer cannot be
taken it does nothing else. -/
theorem dispatch_performs {c : Completion} (hw : c.tag.opcode? ≠ some .writeFixed)
    (l : EventLoop β ρ σ) :
    (∃ e, (grasp c l.ring).1 = .error e ∧
      exec (dispatch c) l = (.error e, { l with ring := (grasp c l.ring).2 })) ∨
    ∃ buffer, (grasp c l.ring).1 = .ok buffer ∧
      Performs (plan c buffer { l with ring := (grasp c l.ring).2 })
        { l with ring := (grasp c l.ring).2 } (fault? (exec (dispatch c) l).1)
        (exec (dispatch c) l).2 := by
  by_cases hr : c.tag.opcode? = some .receive
  · have e : exec (dispatch c) l = exec (onReceive c.tag.descriptor.toInt32 c) l := by
      unfold dispatch
      rw [hr]
    rw [e]
    rcases hg : (grasp c l.ring).1 with fault | buffer
    · refine Or.inl ⟨fault, rfl, ?_⟩
      rw [exec_onReceive, exec_takeBuffer c hr, hg]
    · exact Or.inr ⟨buffer, rfl, performs_onReceive hr hg⟩
  · have kept : grasp c l.ring = (.ok none, l.ring) := if_neg hr
    rw [kept]
    refine Or.inr ⟨none, rfl, ?_⟩
    have acknowledge : ∀ (p : Prop) [Decidable p] (level : Level) (message : String)
        (fields : List (String × String)), Ends (Performs [])
          (if p then emit level message fields else pure () : LoopM β ρ σ Unit) l := by
      intro p _ level message fields
      split
      · exact performs_emit _ _ _
      · exact .nil (.refl l)
    show Performs (plan c none l) l _ _
    rcases ho : c.tag.opcode? with _ | op
    · have unknown := performs_quietly (l := l) (performs_count (f := fun n =>
        { n with unknown := n.unknown + 1 }) rfl) fun _ m _ =>
          performs_emit .debug "ignoring completion with unknown opcode"
            [("user_data", toString c.tag.word), ("opcode", toString c.tag.opcodeByte)]
      unfold dispatch plan
      rw [ho]
      exact unknown
    cases op with
    | accept =>
      have accepted := performs_onAccept c ho l
      unfold dispatch
      rw [ho]
      exact accepted
    | receive => exact absurd ho hr
    | close =>
      have closed := performs_onClose c ho l
      unfold dispatch
      rw [ho]
      exact closed
    | writeFixed => exact absurd ho hw
    | listen | write | send | shutdown =>
      unfold dispatch plan
      rw [ho]
      exact acknowledge _ _ _ _

/-- A dispatch only pushes to the backend, whether it is a fault or not. -/
theorem dispatch_loaded (c : Completion) (l : EventLoop β ρ σ) :
    Loaded l.backend (exec (dispatch c) l).2.backend := by
  by_cases hw : c.tag.opcode? = some .writeFixed
  · by_cases hd : c.tag.descriptor.toNat ≤ FreeList.maxSlots
    · obtain ⟨m, aside, e⟩ := exec_dispatch_writeFixed (l := l) hw hd
      rw [e, aside]
      rcases l.pool.release c.tag.descriptor.toUInt16 with f | pool <;> exact .rest
    · rw [exec_dispatch_writeFixed_of_lt hw (Nat.lt_of_not_le hd)]
      exact .rest
  · rcases dispatch_performs hw l with ⟨f, -, e⟩ | ⟨buffer, -, performs⟩
    · rw [e]
      exact .rest
    · exact performs.backend

theorem loaded_batch (batch : List Completion) :
    Keeps (fun (l : EventLoop β ρ σ) _ m => Loaded l.backend m.backend) (batch.forM dispatch) :=
  Keeps.forM ⟨fun _ => .rest, Loaded.trans⟩ dispatch_loaded batch

end

end RingServer.EventLoop
