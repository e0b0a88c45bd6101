import RingServer.Proofs.BufferSource
import RingServer.Proofs.Loop.Bookkeeping

/-!
What is submitted without a slot. Log lines and copied replies are sent from pool slots, as fixed
writes, and depend on the slots that are free. Everything else that deeds submit is said by the
deeds and the handler alone (`submissionsOf`), so a dispatch that succeeds has submitted just that
besides its fixed writes (`Performs.submits`).
-/

namespace RingServer

open Text (Bytes)

/-- What a reply submits without a slot. -/
def Reply.submissions (fd : Descriptor) : Reply → List Submission
  | .fixed bytes => [⟨.onDescriptor fd .send, .sending fd bytes⟩]
  | .nothing | .copied _ => []

namespace EventLoop

variable {β ρ σ : Type}

/-- What a deed submits without a slot. -/
def Deed.submissions (handler : Handler σ) (group : UInt16) (s : σ) : Deed → List Submission
  | armAccept fd => [⟨.onDescriptor fd .accept, .accept fd⟩]
  | armReceive fd => [⟨.onDescriptor fd .receive, .receive fd group⟩]
  | shutDown fd => [⟨.onDescriptor fd .shutdown, .shutdown fd⟩]
  | close fd => [⟨.onDescriptor fd .close, .close fd⟩]
  | answer fd payload => (handler.respond s fd payload).1.submissions fd
  | track _ | forget _ | tally _ _ | log _ | recycle _ | blame => []

def submissionsOf (handler : Handler σ) (group : UInt16) : σ → List Deed → List Submission
  | _, [] => []
  | s, d :: ds =>
    d.submissions handler group s ++ submissionsOf handler group (d.onHandler handler s) ds

theorem submissionsOf_append (handler : Handler σ) (group : UInt16) (s : σ) (ds es : List Deed) :
    submissionsOf handler group s (ds ++ es) = submissionsOf handler group s ds ++
      submissionsOf handler group (ds.foldl (Deed.onHandler handler) s) es := by
  induction ds generalizing s with
  | nil => rfl
  | cons d ds ih =>
    rw [List.cons_append, submissionsOf, ih, ← List.append_assoc]
    rfl

variable {l m n : Watched β ρ σ} {os ps : List Submission} {s t : σ × List Call}

/-- This has been submitted without a slot, and the handler has come into a state. -/
structure Submits (os : List Submission) (s : σ × List Call) (l m : Watched β ρ σ) : Prop where
  pushed : m.backend.pushed.filter (·.slot?.isNone) =
    l.backend.pushed.filter (·.slot?.isNone) ++ os
  handler : m.handler = l.handler
  state : m.handlerState = s

theorem Submits.trans (h : Submits os s l m) (h' : Submits ps t m n) :
    Submits (os ++ ps) t l n where
  pushed := by rw [h'.pushed, h.pushed, List.append_assoc]
  handler := h'.handler.trans h.handler
  state := h'.state

theorem submits_nil (hb : m.backend = l.backend) (hh : m.handler = l.handler)
    (hs : m.handlerState = l.handlerState) : Submits [] l.handlerState l m :=
  ⟨by rw [hb, List.append_nil], hh, hs⟩

theorem Sends.submits {fd : Descriptor} {x : Except Fault Unit} (h : Sends fd l x m) :
    Submits [] l.handlerState l m := by
  obtain ⟨-, ps, added, hps⟩ := h.adds
  refine ⟨?_, added.handler, ?_⟩
  · rw [added.journal, List.filter_append]
    rcases hps with rfl | ⟨loan, rfl⟩ <;> rfl
  · cases h with
    | dropped _ hi | unlent _ _ _ hi | refused _ _ _ hi | pushed _ _ _ hi => exact hi.handlerState

section

variable [Backend β]

/-- A push of what is no fixed write, right after a change of the table. -/
theorem submits_submit {tag : Tag} {operation : Operation} {t : ConnectionTable}
    (hs : Submission.slot? ⟨tag, operation⟩ = none)
    (h : exec (submit tag operation) { l with connections := t } = (.ok (), m)) :
    Submits [⟨tag, operation⟩] l.handlerState l m := by
  rcases submit_cases tag operation { l with connections := t } with
    ⟨inner, e⟩ | ⟨fault, inner, e⟩
  · rw [e] at h
    cases h
    refine ⟨?_, rfl, rfl⟩
    show List.filter _ (_ ++ [_]) = _
    rw [List.filter_append]
    simp [hs]
  · rw [e] at h
    cases h

theorem submits_queueReply {fd : Descriptor} {reply : Reply}
    (h : exec (queueReply fd reply) l = (.ok (), m)) :
    Submits (reply.submissions fd) l.handlerState l m := by
  cases reply with
  | nothing =>
    cases h
    exact submits_nil rfl rfl rfl
  | fixed bytes =>
    obtain ⟨_, k, sent, counted⟩ := exec_bind_eq_ok h
    have pushed := submits_submit (t := l.connections) rfl sent
    cases counted
    exact ⟨pushed.pushed, pushed.handler, pushed.state⟩
  | copied bytes =>
    have sends := sends_queueReply fd bytes l
    rw [h] at sends
    exact sends.submits

variable [BufferSource ρ]

theorem Deed.submits {d : Deed} (h : exec d.run l = (.ok (), m)) :
    Submits (d.submissions l.handler (BufferSource.group l.ring) l.handlerState)
      (d.onHandler l.handler l.handlerState) l m := by
  cases d with
  | track fd | forget fd | tally fd n | recycle b | blame =>
    cases h
    exact submits_nil rfl rfl rfl
  | armAccept fd => exact submits_submit (t := l.connections) rfl h
  | armReceive fd =>
    obtain ⟨_, _, got, h⟩ := exec_bind_eq_ok h
    cases got
    exact submits_submit (t := l.connections) rfl h
  | shutDown fd | close fd =>
    rw [Deed.run, exec_bind_ok (exec_modify _ l)] at h
    exact submits_submit rfl h
  | log message =>
    have sends := sends_writeLog .info message l
    rw [show writeLog .info message = Deed.run (.log message) from rfl, h] at sends
    exact sends.submits
  | answer fd payload =>
    change exec (EventLoop.answer fd payload) l = _ at h
    rw [exec_answer] at h
    have queued := submits_queueReply h
    exact ⟨queued.pushed, queued.handler, queued.state⟩

/-- Deeds that are all done have submitted, besides fixed writes, what they say. -/
theorem Performs.submits [ReadableBuffers ρ] {ds : List Deed} (h : Performs ds l none m) :
    Submits (submissionsOf l.handler (BufferSource.group l.ring) l.handlerState ds)
      (ds.foldl (Deed.onHandler l.handler) l.handlerState) l m := by
  generalize hx : (none : Option Fault) = y at h
  induction h with
  | nil hq =>
    rw [hq.aside]
    exact submits_nil rfl rfl rfl
  | @deed d ds l k n m x hq run _ ih =>
    have aside := hq.aside
    have begun : Submits [] l.handlerState l k := by
      rw [aside]
      exact submits_nil rfl rfl rfl
    have first := Deed.submits run
    have rest := ih hx
    have ring : k.ring = l.ring := by rw [aside]
    have group : BufferSource.group n.ring = BufferSource.group l.ring := by
      rw [(Deed.leaves run).ring, ring]
      cases d with
      | recycle b => exact ReadableBuffers.group_recycle b l.ring
      | track _ | forget _ | tally _ _ | armAccept _ | armReceive _ | shutDown _ | close _ | log _
      | answer _ _ | blame => rfl
    have all := (begun.trans first).trans rest
    rwa [first.handler, first.state, group, ring, begun.handler, begun.state] at all
  | fault => cases hx

end

end EventLoop

end RingServer
