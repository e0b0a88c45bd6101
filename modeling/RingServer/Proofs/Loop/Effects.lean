import RingServer.Proofs.Loop.FixedWrites
import RingServer.Proofs.Loop.Plan

/-!
What deeds push and call. As long as no push is refused, deeds that are performed on a sound pool
are all done (`Performs.fulfils`): what is pushed to steer descriptors (`Operation.control?`) and
the calls of the handler are those of the deeds, in their order, and no more than slots of fixed
writes is lent. So what a dispatch pushes and calls can be read off its plan.
-/

namespace RingServer

/-- What an operation steers: a stream is armed, or a descriptor is shut down or closed. -/
def Operation.control? : Operation → Option (Opcode × Descriptor)
  | accept fd => some (.accept, fd)
  | receive fd _ => some (.receive, fd)
  | shutdown fd => some (.shutdown, fd)
  | close fd => some (.close, fd)
  | send _ _ | write _ _ | writeFixed _ _ => none

def Submission.control? (s : Submission) : Option (Opcode × Descriptor) := s.operation.control?

namespace EventLoop

def Deed.control? : Deed → Option (Opcode × Descriptor)
  | armAccept fd => some (.accept, fd)
  | armReceive fd => some (.receive, fd)
  | shutDown fd => some (.shutdown, fd)
  | close fd => some (.close, fd)
  | track _ | forget _ | tally _ _ | log _ | answer _ _ | recycle _ | blame => none

def Deed.call? : Deed → Option Call
  | answer fd payload => some (fd, payload)
  | _ => none

variable {β ρ σ : Type} {ds es : List Deed} {l m n : Watched β ρ σ} {x : Option Fault}

/-- With a sound pool, the deeds are all done: their controls, tagged with what they steer, and
their calls are made, and what is sent besides comes from slots that are lent. -/
def Fulfils (ds : List Deed) (ps : List Submission) (cs : List Call) (l : Watched β ρ σ)
    (x : Option Fault) (m : Watched β ρ σ) : Prop :=
  (∀ s ∈ ps, ∀ op fd, s.control? = some (op, fd) → s.tag = .onDescriptor fd op) ∧
  ∀ flying, l.pool.Lends flying → x = none ∧
    m.pool.Lends (flying ++ ps.filterMap (·.slot?)) ∧
    ps.filterMap (·.control?) = ds.filterMap Deed.control? ∧ cs = ds.filterMap Deed.call?

theorem fulfils_idle (hi : Idle l m) : Fulfils [] [] [] l none m := by
  refine ⟨by simp, fun flying hl => ⟨rfl, ?_, rfl, rfl⟩⟩
  rw [hi.pool]
  simpa using hl

theorem traced_fulfils_nil (hi : Idle l m) : Traced (Fulfils []) l none m :=
  fun _ => ⟨[], [], .of_idle hi, fun _ => fulfils_idle hi⟩

theorem fulfils_append (h : Traced (Fulfils ds) l none m) (h' : Traced (Fulfils es) m x n) :
    Traced (Fulfils (ds ++ es)) l x n := by
  intro hl
  obtain ⟨ps, cs, added, done⟩ := h hl
  obtain ⟨qs, bs, added', done'⟩ := h' (added.recording hl)
  refine ⟨ps ++ qs, cs ++ bs, added.trans added', fun accepted => ?_⟩
  have hm := added.refusals
  have hn := added'.refusals
  obtain ⟨tags, first⟩ := done (by omega)
  obtain ⟨tags', second⟩ := done' (by omega)
  refine ⟨fun s hs => ?_, fun flying lends => ?_⟩
  · rcases List.mem_append.mp hs with hs | hs
    · exact tags s hs
    · exact tags' s hs
  · obtain ⟨-, lends, controls, calls⟩ := first flying lends
    obtain ⟨none_failed, lends, controls', calls'⟩ := second _ lends
    refine ⟨none_failed, ?_, ?_, ?_⟩
    · rwa [List.filterMap_append, ← List.append_assoc]
    · rw [List.filterMap_append, List.filterMap_append, controls, controls']
    · rw [List.filterMap_append, calls, calls']

/-- What a deed does to the table and the buffers does not matter. -/
theorem fulfils_of_eq {k : Watched β ρ σ} (h : Traced (Fulfils ds) k x m)
    (hh : k.handler = l.handler) (hb : k.backend = l.backend)
    (hs : k.handlerState = l.handlerState) (hp : k.pool = l.pool) :
    Traced (Fulfils ds) l x m := by
  rintro ⟨handler, e⟩
  obtain ⟨ps, cs, added, done⟩ := h ⟨handler, hh.trans e⟩
  refine ⟨ps, cs, added.of_eq hh hb hs, fun accepted => ?_⟩
  obtain ⟨tags, kept⟩ := done (by rw [hb]; exact accepted)
  exact ⟨tags, fun flying lends => kept flying (hp ▸ lends)⟩

theorem Sends.fulfils {fd : Descriptor} {y : Except Fault Unit} (hs : Sends fd l y m) :
    Traced (Fulfils []) l (fault? y) m := by
  intro _
  obtain ⟨-, ps, added, hps⟩ := hs.adds
  have uncontrolled : ∀ s ∈ ps, s.control? = none := by
    rcases hps with rfl | ⟨loan, rfl⟩ <;> simp [Submission.control?, Operation.control?]
  refine ⟨ps, [], added, fun accepted => ⟨fun s hs op d e => ?_, fun flying lends => ?_⟩⟩
  · rw [uncontrolled s hs] at e
    cases e
  · obtain ⟨rfl, -, lent⟩ := hs.lends lends accepted
    refine ⟨rfl, ?_, List.filterMap_eq_nil_iff.mpr uncontrolled, rfl⟩
    rcases lent with ⟨same, hm⟩ | ⟨loan, new, hm⟩
    · have none_pushed : ps = [] := by simpa [added.journal] using same
      simpa [none_pushed] using hm
    · have one_pushed : ps = [⟨.onSlot loan.index, .writeFixed fd loan⟩] := by
        simpa [added.journal] using new
      simpa [one_pushed, Submission.slot?] using hm

section

variable [Backend β]

/-- A push, right after a change of the table, of what is no fixed write. -/
theorem fulfils_submit {tag : Tag} {operation : Operation} {t : ConnectionTable}
    (ht : ∀ op fd, operation.control? = some (op, fd) → tag = .onDescriptor fd op)
    (hs : Submission.slot? ⟨tag, operation⟩ = none)
    (hc : operation.control?.toList = ds.filterMap Deed.control?)
    (hn : ds.filterMap Deed.call? = []) :
    Traced (Fulfils ds) l (fault? (exec (submit tag operation) { l with connections := t }).1)
      (exec (submit tag operation) { l with connections := t }).2 := by
  refine traced_submit fun inner => ⟨?_, fun flying lends => ⟨rfl, ?_, ?_, hn.symm⟩⟩
  · intro s hs op fd e
    rw [List.mem_singleton.mp hs] at e ⊢
    exact ht op fd e
  · simpa [hs] using lends
  · show [(⟨tag, operation⟩ : Submission)].filterMap (·.operation.control?) = _
    rw [← hc]
    cases h : operation.control? <;> simp [h]

theorem fulfils_queueReply (fd : Descriptor) (reply : Reply) :
    Keeps (Traced (Fulfils []) : StepRelation (Journal β) ρ (σ × List Call))
      (queueReply fd reply) := by
  intro l
  cases reply with
  | nothing => exact traced_fulfils_nil (Idle.refl l)
  | fixed bytes =>
    have sent : Traced (Fulfils []) l _ _ := fulfils_submit (t := l.connections)
      (by simp [Operation.sending, Operation.control?])
      (rfl : Submission.slot? ⟨.onDescriptor fd .send, .sending fd bytes⟩ = none) rfl rfl
    show Traced _ l (fault? (exec (submit _ _ >>= fun _ => countReply) l).1)
      (exec (submit _ _ >>= fun _ => countReply) l).2
    rcases he : exec (submit (.onDescriptor fd .send) (.sending fd bytes)) l with ⟨e | a, m⟩
    · rw [he] at sent
      rw [exec_bind_error he]
      exact sent
    · rw [he] at sent
      rw [exec_bind_ok he]
      exact fulfils_append sent (traced_fulfils_nil ⟨rfl, rfl, rfl, rfl, rfl, rfl⟩)
  | copied bytes => exact (sends_queueReply fd bytes l).fulfils

theorem Deed.fulfils [BufferSource ρ] (d : Deed) :
    Keeps (Traced (Fulfils [d]) : StepRelation (Journal β) ρ (σ × List Call)) d.run := by
  intro l
  cases d with
  | track fd => exact fulfils_of_eq (traced_fulfils_nil (Idle.refl _)) rfl rfl rfl rfl
  | forget fd => exact fulfils_of_eq (traced_fulfils_nil (Idle.refl _)) rfl rfl rfl rfl
  | tally fd n => exact fulfils_of_eq (traced_fulfils_nil (Idle.refl _)) rfl rfl rfl rfl
  | recycle b => exact fulfils_of_eq (traced_fulfils_nil (Idle.refl _)) rfl rfl rfl rfl
  | blame => exact fulfils_of_eq (traced_fulfils_nil (Idle.refl _)) rfl rfl rfl rfl
  | armAccept fd =>
    exact fulfils_submit (t := l.connections) (by simp [Operation.control?]) rfl rfl rfl
  | armReceive fd =>
    show Traced _ l (fault? (exec (EventLoop.armReceive fd) l).1)
      (exec (EventLoop.armReceive fd) l).2
    unfold EventLoop.armReceive
    rw [exec_bind_ok (exec_get l)]
    exact fulfils_submit (t := l.connections) (by simp [Operation.control?]) rfl rfl rfl
  | shutDown fd =>
    rw [Ends, Deed.run, exec_bind_ok (exec_modify _ l)]
    exact fulfils_submit (by simp [Operation.control?]) rfl rfl rfl
  | close fd =>
    rw [Ends, Deed.run, exec_bind_ok (exec_modify _ l)]
    exact fulfils_submit (by simp [Operation.control?]) rfl rfl rfl
  | log message => exact (sends_writeLog .info message l).fulfils
  | answer fd payload =>
    show Traced _ l (fault? (exec (EventLoop.answer fd payload) l).1)
      (exec (EventLoop.answer fd payload) l).2
    rw [exec_answer]
    have called : Traced (Fulfils [.answer fd payload]) l none
        { l with handlerState := (l.handler.respond l.handlerState fd payload).2 } := by
      refine traced_call ⟨by simp, fun flying lends => ⟨rfl, by simpa using lends, rfl, rfl⟩⟩
    exact fulfils_append called (fulfils_queueReply fd _ _)

/-- As long as no push is refused, all deeds are done. -/
theorem Performs.fulfils [BufferSource ρ] (h : Performs ds l x m) :
    Traced (Fulfils ds) l x m := by
  induction h with
  | nil hq => exact traced_fulfils_nil hq.aside.idle
  | @deed d _ _ _ _ _ _ hq run _ ih =>
    have one := (d.fulfils _).to_exec run
    exact fulfils_append (fulfils_append (traced_fulfils_nil hq.aside.idle) one) ih
  | @fault d ds l k n m e hq run tidy =>
    have one := fulfils_append (traced_fulfils_nil hq.aside.idle) ((d.fulfils _).to_exec run)
    intro hl
    obtain ⟨ps, cs, added, done⟩ := one hl
    have same : Idle n m := by
      rw [tidy]
      exact ⟨rfl, rfl, rfl, rfl, rfl, rfl⟩
    have added' := added.trans (.of_idle same)
    rw [List.append_nil, List.append_nil] at added'
    refine ⟨ps, cs, added', fun accepted => ?_⟩
    -- With a sound pool the deed is no fault.
    obtain ⟨tags, sound⟩ := done (same.refusals.symm.trans accepted)
    refine ⟨tags, fun flying lends => ?_⟩
    obtain ⟨failed, -⟩ := sound flying lends
    cases failed

/-! ## Steps -/

/-- The deeds were all done, and this is what was pushed and called for them. -/
structure Done [BufferSource ρ] (ds : List Deed) (ps : List Submission) (cs : List Call)
    (l m : Watched β ρ σ) : Prop where
  performs : Performs ds l none m
  added : Adds ps cs l m
  tags : ∀ s ∈ ps, ∀ op fd, s.control? = some (op, fd) → s.tag = .onDescriptor fd op
  controls : ps.filterMap (·.control?) = ds.filterMap Deed.control?
  calls : cs = ds.filterMap Deed.call?

theorem Performs.done [BufferSource ρ] {flying : List UInt16} (h : Performs ds l x m)
    (hl : Recording l) (lends : l.pool.Lends flying)
    (accepted : m.backend.refusals = l.backend.refusals) :
    x = none ∧ ∃ ps cs, Done ds ps cs l m := by
  obtain ⟨ps, cs, added, done⟩ := h.fulfils hl
  obtain ⟨tags, kept⟩ := done accepted
  obtain ⟨rfl, -, controls, calls⟩ := kept flying lends
  exact ⟨rfl, ps, cs, h, added, tags, controls, calls⟩

/-- A dispatch that can take its buffer does all that its plan says. -/
theorem dispatch_done [BufferSource ρ] {c : Completion} {buffer : Option ReceivedBuffer}
    {flying : List UInt16} {y : Except Fault Unit} (hw : c.tag.opcode? ≠ some .writeFixed)
    (hl : Recording l) (lends : l.pool.Lends flying)
    (accepted : m.backend.refusals = l.backend.refusals)
    (hg : (grasp c l.ring).1 = .ok buffer) (he : exec (dispatch c) l = (y, m)) :
    y = .ok () ∧ ∃ ps cs, Done (plan c buffer { l with ring := (grasp c l.ring).2 }) ps cs
      { l with ring := (grasp c l.ring).2 } m := by
  rcases dispatch_performs hw l with ⟨e, hf, -⟩ | ⟨taken, ht, performs⟩
  · rw [hg] at hf
    cases hf
  rw [hg] at ht
  cases ht
  rw [he] at performs
  obtain ⟨ok, done⟩ := performs.done hl lends accepted
  refine ⟨?_, done⟩
  cases y with
  | ok u => rfl
  | error e => cases ok

/-- Listening arms one accept. -/
theorem fulfils_listen [BufferSource ρ] (fd : Descriptor) (l : Watched β ρ σ) :
    (∃ x, Traced (Fulfils [.armAccept fd]) l x (exec (listen fd) l).2) ∧
      (exec (listen fd) l).2.connections = l.connections ∧
      (exec (listen fd) l).2.ring = l.ring := by
  have rest : Keeps (fun (l : Watched β ρ σ) _ m => Idle l m ∧ m.ring = l.ring)
      (flush >>= fun _ => emit .info "accepting connections" [("fd", toString fd)]) := by
    have composable : Composable fun (l : Watched β ρ σ) _ m => Idle l m ∧ m.ring = l.ring :=
      ⟨fun l => ⟨Idle.refl l, rfl⟩, fun h h' => ⟨h.1.trans h'.1, h'.2.trans h.2⟩⟩
    refine Keeps.bind composable (fun l => ?_) fun _ _ => ⟨⟨rfl, rfl, rfl, rfl, rfl, rfl⟩, rfl⟩
    rw [Ends, exec_flush]
    exact ⟨⟨rfl, rfl, rfl, rfl, rfl, rfl⟩, rfl⟩
  have noted : Idle l { l with listener := some fd } := ⟨rfl, rfl, rfl, rfl, rfl, rfl⟩
  have armed := (Deed.armAccept fd).fulfils { l with listener := some fd }
  have spared := spares_submit (.onDescriptor fd .accept) (.accept fd)
    { l with listener := some fd }
  unfold listen
  rw [exec_bind_ok (exec_modify _ l)]
  rcases ha : exec (armAccept fd) { l with listener := some fd } with ⟨e | a, n⟩
  · rw [exec_bind_error ha]
    have kept := spared.to_exec ha
    exact ⟨⟨_, fulfils_append (traced_fulfils_nil noted) (armed.to_exec ha)⟩,
      kept.connections, kept.ring⟩
  · rw [exec_bind_ok ha]
    have kept := spared.to_exec ha
    obtain ⟨idle, ring⟩ := rest n
    have first := fulfils_append (traced_fulfils_nil noted) (armed.to_exec ha)
    exact ⟨⟨_, fulfils_append first (traced_fulfils_nil idle)⟩,
      idle.connections.trans kept.connections, ring.trans kept.ring⟩

/-! ## What waits in a backend -/

/-- The completions that wait in a backend: what is drained is taken from the front, and nothing
else changes them. -/
structure Queues (queue : β → List Completion) : Prop where
  push : ∀ memory s b, queue (Backend.push memory s b).2 = queue b
  flush : ∀ memory b, queue (Backend.flush memory b).2 = queue b
  wait : ∀ memory n b, queue (Backend.wait memory n b).2 = queue b
  drain : ∀ b, (Backend.drain b).1 ++ queue (Backend.drain b).2 = queue b

theorem Queues.loaded {queue : β → List Completion} (hq : Queues queue) {b c : Journal β}
    (h : Loaded b c) : queue c.inner = queue b.inner := by
  induction h with
  | rest => rfl
  | @push c memory s _ ih =>
    rw [← ih, ← hq.push memory s c.inner]
    show queue (Journal.push memory s c).2.inner = _
    unfold Journal.push
    rcases Backend.push memory s c.inner with ⟨e | a, inner⟩ <;> rfl

end

theorem queues_recorder : Queues Recorder.ready where
  push _ s r := by
    show (Recorder.push s r).2.ready = r.ready
    unfold Recorder.push
    split <;> rfl
  flush _ _ := rfl
  wait _ _ _ := rfl
  drain r := List.append_nil r.ready

end EventLoop

end RingServer
