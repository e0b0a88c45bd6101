import RingServer.Proofs.Loop.Reception
import RingServer.Proofs.Loop.Tenure

/-!
Connections do not influence each other. A `View` is all that can be seen of a descriptor: its row
in the table, what is submitted for it, and what the handler hears from it. `View.attend` is what
one completion makes of a view, and mentions nothing but that view; a completion that does not
concern the descriptor makes nothing of it (`View.attend_of_not_concerns`).

What connections share is the pool of slots, the handler and the buffers. As long as no log is kept,
no reply is copied into a slot and none depends on what came before (`Separate`), a dispatch changes
all views as `View.attend` says (`dispatch_attends`), and so does a run, completion by completion
(`Fed.attends`). So a descriptor fares the same in two runs that differ only in what does not
concern it (`connections_are_independent`).
-/

namespace RingServer

open Text (Bytes)
open BufferSource

/-- The completion is tagged with the descriptor or reports that it has been accepted. -/
def Completion.concerns (d : Descriptor) (c : Completion) : Bool :=
  c.tag.descriptor.toInt32 = d ∨ c.tag.opcode? = some .accept ∧ c.result = d

/-- The submissions that name a descriptor; those that accept on it are left out. -/
def naming (d : Descriptor) (ps : List Submission) : List Submission :=
  ps.filter fun s => s.operation.descriptor = d ∧ s.operation ≠ .accept d

theorem naming_append (d : Descriptor) (ps qs : List Submission) :
    naming d (ps ++ qs) = naming d ps ++ naming d qs :=
  List.filter_append ..

/-- Submissions for one descriptor. -/
theorem naming_of_forall {d fd : Descriptor} {ps : List Submission}
    (h : ∀ s ∈ ps, s.operation.descriptor = fd ∧ ∀ x, s.operation ≠ .accept x) :
    naming d ps = if fd = d then ps else [] := by
  unfold naming
  split
  next e =>
    subst e
    refine List.filter_eq_self.mpr fun s hs => ?_
    obtain ⟨named, other⟩ := h s hs
    simp [named, other]
  next ne =>
    refine List.filter_eq_nil_iff.mpr fun s hs => ?_
    rw [(h s hs).1]
    simp [ne]

theorem naming_accept (d fd : Descriptor) (t : Tag) : naming d [⟨t, .accept fd⟩] = [] := by
  refine List.filter_eq_nil_iff.mpr fun s hs => ?_
  rw [List.mem_singleton.mp hs]
  simp [Operation.descriptor]

theorem messages_singleton (d fd : Descriptor) (payload : Bytes) :
    messages d [(fd, payload)] = if fd = d then [payload] else [] := by
  by_cases e : fd = d <;> simp [messages, e]

theorem Reply.of_mem_submissions {fd : Descriptor} {reply : Reply} {s : Submission}
    (h : s ∈ reply.submissions fd) :
    s.operation.descriptor = fd ∧ ∀ x, s.operation ≠ .accept x := by
  cases reply with
  | fixed bytes =>
    rw [List.mem_singleton.mp h]
    exact ⟨rfl, nofun⟩
  | nothing | copied bytes => cases h

/-- All that can be seen of a descriptor. -/
structure View where
  row : Option Connection
  submitted : List Submission
  heard : List Bytes

namespace View

/-- Nothing has been seen of the descriptor yet. -/
def unknown : View := ⟨none, [], []⟩

/-- The descriptor has been accepted. -/
def accept (d : Descriptor) (peer : Option SocketAddress) (group : UInt16) (v : View) : View :=
  { v with
    row := some (.fresh peer)
    submitted := v.submitted ++ [⟨.onDescriptor d .receive, .receive d group⟩] }

/-- A receive for the descriptor, with the reply to its message, if it brings one. -/
def receive (d : Descriptor) (group : UInt16) (outcome : Received) (armed : Bool) (payload : Bytes)
    (reply : Reply) (v : View) : View :=
  let welcome := outcome = .delivered ∧ v.row.any Connection.isOpen = true
  { row := v.row.map (·.receive outcome armed payload)
    submitted := v.submitted ++ ((if welcome then reply.submissions d else []) ++
      (((v.row.map (·.state)).bind (reaction? outcome armed)).map (·.submission d group)).toList)
    heard := v.heard ++ if welcome then [payload] else [] }

variable {ρ : Type} [BufferSource ρ]

/-- What a completion makes of what is seen of a descriptor. -/
def attend (ring : ρ) (peers : Descriptor → Option SocketAddress)
    (reply : Descriptor → Bytes → Reply) (d : Descriptor) (v : View) (c : Completion) : View :=
  match c.tag.opcode? with
  | some .accept =>
    if ¬ c.result < 0 ∧ c.result = d then v.accept d (peers d) (group ring) else v
  | some .receive =>
    if c.tag.descriptor.toInt32 = d then
      let (outcome, payload) := EventLoop.judge ring c.result (EventLoop.named ring c)
      v.receive d (group ring) outcome c.hasMore payload (reply d payload)
    else v
  | some .close => if c.tag.descriptor.toInt32 = d then { v with row := none } else v
  | _ => v

section

variable {ring : ρ} {peers : Descriptor → Option SocketAddress}
  {reply : Descriptor → Bytes → Reply} {d : Descriptor} {c : Completion}

theorem attend_accept (ha : c.tag.opcode? = some .accept) (v : View) :
    attend ring peers reply d v c =
      if ¬ c.result < 0 ∧ c.result = d then v.accept d (peers d) (group ring) else v := by
  rw [attend, ha]

theorem attend_receive (hr : c.tag.opcode? = some .receive) {outcome : Received} {payload : Bytes}
    (reads : EventLoop.Reads ring c outcome payload) (v : View) :
    attend ring peers reply d v c = if c.tag.descriptor.toInt32 = d
      then v.receive d (group ring) outcome c.hasMore payload (reply d payload) else v := by
  rw [attend, hr, reads.judge_eq (.refl ring)]

theorem attend_close (hc : c.tag.opcode? = some .close) (v : View) :
    attend ring peers reply d v c =
      if c.tag.descriptor.toInt32 = d then { v with row := none } else v := by
  rw [attend, hc]

theorem attend_of_not_concerns (h : c.concerns d = false) (v : View) :
    attend ring peers reply d v c = v := by
  obtain ⟨untagged, unaccepted⟩ := not_or.mp (of_decide_eq_false h)
  unfold attend
  split
  next accept => rw [if_neg fun accepted => unaccepted ⟨accept, accepted.2⟩]
  next => rw [if_neg untagged]
  next => rw [if_neg untagged]
  next => rfl

end

/-- What does not concern a descriptor can be left out. -/
theorem foldl_attend (ring : ρ) (peers : Descriptor → Option SocketAddress)
    (reply : Descriptor → Bytes → Reply) (d : Descriptor) (cs : List Completion) (v : View) :
    (cs.filter (·.concerns d)).foldl (attend ring peers reply d) v =
      cs.foldl (attend ring peers reply d) v := by
  induction cs generalizing v with
  | nil => rfl
  | cons c cs ih =>
    cases h : c.concerns d with
    | true =>
      rw [List.filter_cons_of_pos h]
      exact ih _
    | false =>
      rw [List.filter_cons_of_neg (by simp [h]), List.foldl_cons, attend_of_not_concerns h]
      exact ih v

end View

namespace EventLoop

variable {β ρ σ : Type} {l m : Watched β ρ σ} {ds : List Deed} {es : List Entry}

def view (d : Descriptor) (l : Watched β ρ σ) : View :=
  ⟨l.connections.get? d, naming d l.backend.pushed, messages d l.handlerState.2⟩

theorem Idle.view (h : Idle l m) (d : Descriptor) : view d m = view d l := by
  unfold EventLoop.view
  rw [h.connections, h.pushed, h.handlerState]

/-! ## Dispatches without slots -/

/-- No reply is to be copied into a slot. -/
def Uncopied (handler : Handler σ) : Prop :=
  ∀ s fd payload bytes, (handler.respond s fd payload).1 ≠ .copied bytes

theorem mem_answers {handler : Handler σ} {s : σ} {cs : List Call} {reply : Reply}
    (h : reply ∈ handler.answers s cs) :
    ∃ t fd payload, reply = (handler.respond t fd payload).1 := by
  induction cs generalizing s with
  | nil => cases h
  | cons c cs ih =>
    rcases List.mem_cons.mp h with e | h
    · exact ⟨s, c.1, c.2, e⟩
    · exact ih h

/-- Without a log and without copies nothing is sent from slots. -/
theorem Booked.direct (h : Booked es l m) (unlogged : l.accessLog = false)
    (uncopied : Uncopied l.handler) : .slot ∉ es.flatMap (·.outlets) := by
  intro member
  obtain ⟨e, he, sent⟩ := List.mem_flatMap.mp member
  have fits := h.fits e he
  have unkept : ∀ {line : Line}, line.Fits l.accessLog → line = .unkept := fun kept =>
    kept.mpr unlogged
  cases e with
  | accepted line | closed line =>
    cases unkept fits
    cases sent
  | message call reply line fate =>
    obtain ⟨kept, fits⟩ := fits
    cases unkept kept
    have answered : reply ∈ es.filterMap (·.reply?) := List.mem_filterMap.mpr ⟨_, he, rfl⟩
    rw [h.replies] at answered
    obtain ⟨s, fd, payload, e⟩ := mem_answers answered
    cases reply with
    | nothing =>
      cases fits
      cases sent
    | fixed bytes =>
      cases fits
      simp [Entry.outlets, Line.outlets, Fate.outlets] at sent
    | copied bytes => exact uncopied s fd payload bytes e.symm
  | acceptFailed | acceptEnded | stopped | rearmed | blamed | unknown | turned => cases sent

/-- The deeds have been done, and what they say has been submitted and nothing else. -/
structure Directly [BufferSource ρ] (ds : List Deed) (l m : Watched β ρ σ) : Prop where
  connections : m.connections = ds.foldl (Deed.onTable l.peerOf) l.connections
  pushed : m.backend.pushed =
    l.backend.pushed ++ submissionsOf l.handler (group l.ring) l.handlerState ds
  calls : m.handlerState.2 = l.handlerState.2 ++ ds.filterMap Deed.call?
  handler : m.handler = l.handler
  accessLog : m.accessLog = l.accessLog
  peerOf : m.peerOf = l.peerOf

theorem Directly.view [BufferSource ρ] (h : Directly ds l m) (d : Descriptor) : view d m =
    { row := (ds.foldl (Deed.onTable l.peerOf) l.connections).get? d
      submitted := (EventLoop.view d l).submitted ++
        naming d (submissionsOf l.handler (group l.ring) l.handlerState ds)
      heard := (EventLoop.view d l).heard ++ messages d (ds.filterMap Deed.call?) } := by
  unfold EventLoop.view
  rw [h.connections, h.pushed, h.calls, naming_append, messages_append]

section

variable [Backend β] [BufferSource ρ] [ReadableBuffers ρ] {c : Completion}
  {buffer : Option ReceivedBuffer} {flying : List UInt16}

/-- A dispatch that needs no slot does and submits what its plan says. -/
theorem dispatch_directly (hw : c.tag.opcode? ≠ some .writeFixed) (hl : Recording l)
    (lends : l.pool.Lends flying)
    (accepted : (exec (dispatch c) l).2.backend.refusals = l.backend.refusals)
    (taken : (grasp c l.ring).1 = .ok buffer) (unlogged : l.accessLog = false)
    (uncopied : Uncopied l.handler) :
    (exec (dispatch c) l).1 = .ok () ∧
      Directly (plan c buffer { l with ring := (grasp c l.ring).2 })
        { l with ring := (grasp c l.ring).2 } (exec (dispatch c) l).2 := by
  rcases he : exec (dispatch c) l with ⟨x, m⟩
  rw [he] at accepted
  obtain ⟨rfl, ps, cs, done⟩ := dispatch_done hw hl lends accepted taken he
  obtain ⟨buffer', line, fate, -, booked⟩ := dispatch_booked he
  have journal := done.added.journal
  have outlets := booked.outlets
  have pushed := done.performs.submits.pushed
  rw [journal, List.filterMap_append] at outlets
  rw [journal, List.filter_append] at pushed
  have direct := booked.direct unlogged uncopied
  rw [← List.append_cancel_left outlets] at direct
  -- So the filter for what goes without a slot leaves nothing out.
  have unslotted : ps.filter (·.slot?.isNone) = ps := by
    refine List.filter_eq_self.mpr fun s hs => ?_
    obtain ⟨tag, operation⟩ := s
    cases operation with
    | writeFixed fd loan => exact (direct (List.mem_filterMap.mpr ⟨_, hs, rfl⟩)).elim
    | accept | receive | send | write | shutdown | close => rfl
  refine ⟨rfl, ?_, ?_, ?_, done.added.handler, done.performs.accessLog, done.performs.peerOf⟩
  · exact done.performs.connections
  · rw [journal, ← List.append_cancel_left pushed, unslotted]
  · rw [done.added.calls, done.calls]

end

/-! ## What a dispatch does to views -/

theorem named_eq [BufferSource ρ] {r s : ρ} (same : SameContents r s) (c : Completion) :
    named r c = named s c := by
  unfold named
  rw [same.group, same.entrySize]

/-- Nothing that connections share comes into play: no log is kept, replies need no slots and go by
the message alone, and the buffers are as they were filled. -/
structure Separate [BufferSource ρ] (ring : ρ) (peers : Descriptor → Option SocketAddress)
    (reply : Descriptor → Bytes → Reply) (l : Watched β ρ σ) : Prop where
  accessLog : l.accessLog = false
  replies : ∀ s fd payload, (l.handler.respond s fd payload).1 = reply fd payload
  uncopied : Uncopied l.handler
  peerOf : l.peerOf = peers
  contents : SameContents ring l.ring
  atRest : AtRest l.ring

section

variable [BufferSource ρ] {ring : ρ} {peers : Descriptor → Option SocketAddress}
  {reply : Descriptor → Bytes → Reply} {c : Completion}

theorem plan_unlogged_accept (ha : c.tag.opcode? = some .accept) (unlogged : l.accessLog = false) :
    plan c none l = (if c.result < 0 then [] else [.track c.result, .armReceive c.result]) ++
      if c.hasMore then [] else [.armAccept c.tag.descriptor.toInt32] := by
  unfold plan access
  rw [ha, unlogged]
  rfl

theorem plan_unlogged_close (hc : c.tag.opcode? = some .close) (unlogged : l.accessLog = false) :
    plan c none l = [.forget c.tag.descriptor.toInt32] := by
  simp only [plan, hc, access, unlogged]
  cases l.connections.get? c.tag.descriptor.toInt32 <;> rfl

theorem view_of_accept (ha : c.tag.opcode? = some .accept) (separate : Separate ring peers reply l)
    (directly : Directly (plan c none l) l m) (d : Descriptor) :
    view d m = (view d l).attend ring peers reply d c := by
  -- Arming the accept again is not seen.
  have rearmed : ∀ h g s, naming d (submissionsOf (σ := σ × List Call) h g s
      (if c.hasMore then [] else [.armAccept c.tag.descriptor.toInt32])) = [] := by
    intro h g s
    split
    · rfl
    · exact naming_accept d _ _
  have kept : ∀ t, (if c.hasMore then [] else [Deed.armAccept c.tag.descriptor.toInt32]).foldl
      (Deed.onTable l.peerOf) t = t := by
    intro t
    split <;> rfl
  have unheard : (if c.hasMore then [] else
      [Deed.armAccept c.tag.descriptor.toInt32]).filterMap Deed.call? = [] := by
    split <;> rfl
  rw [directly.view, plan_unlogged_accept ha separate.accessLog, List.foldl_append, kept,
    submissionsOf_append, naming_append, rearmed, List.filterMap_append, unheard,
    List.append_nil, List.append_nil, View.attend_accept ha]
  by_cases failed : c.result < 0
  · rw [if_pos failed, if_neg fun accepted => accepted.1 failed]
    simp [view, submissionsOf, naming]
  · have armed : ∀ s ∈ [(⟨.onDescriptor c.result .receive, .receive c.result (group ring)⟩ :
        Submission)], s.operation.descriptor = c.result ∧ ∀ x, s.operation ≠ .accept x := by
      simp [Operation.descriptor]
    rw [if_neg failed, ← separate.peerOf, separate.contents.group]
    show View.mk (ConnectionTable.get? ⟨(c.result, _) :: (l.connections.erase c.result).rows⟩ d)
      (_ ++ naming d [⟨.onDescriptor c.result .receive, .receive c.result (group ring)⟩])
      (_ ++ messages d []) = _
    rw [ConnectionTable.get?_cons, ConnectionTable.get?_erase, naming_of_forall armed]
    by_cases e : c.result = d
    · rw [if_pos e.symm, if_pos e, if_pos ⟨failed, e⟩, e]
      simp [View.accept]
    · rw [if_neg (Ne.symm e), if_neg (Ne.symm e), if_neg e, if_neg fun accepted => e accepted.2,
        List.append_nil]
      simp [view]

theorem view_of_receive (hr : c.tag.opcode? = some .receive) (contents : SameContents ring l.ring)
    (replies : ∀ s fd payload, (l.handler.respond s fd payload).1 = reply fd payload)
    (directly : Directly (plan c (named ring c) l) l m) (d : Descriptor) :
    view d m = (view d l).attend ring peers reply d c := by
  obtain ⟨outcome, payload, reads⟩ := exists_reads ring c
  have own : ∀ s ∈ (if Welcome c outcome l then
      (reply c.tag.descriptor.toInt32 payload).submissions c.tag.descriptor.toInt32 else []) ++
      ((reactionOn l.connections c.tag.descriptor.toInt32 outcome c.hasMore).map
        (·.submission c.tag.descriptor.toInt32 (group ring))).toList,
      s.operation.descriptor = c.tag.descriptor.toInt32 ∧ ∀ x, s.operation ≠ .accept x := by
    intro s hs
    rcases List.mem_append.mp hs with hs | hs
    · split at hs
      · exact Reply.of_mem_submissions hs
      · cases hs
    · obtain ⟨reaction, -, rfl⟩ := Option.map_eq_some_iff.mp (Option.mem_toList.mp hs)
      cases reaction <;> exact ⟨rfl, nofun⟩
  have heard : messages d (if Welcome c outcome l then [(c.tag.descriptor.toInt32, payload)]
      else []) = if c.tag.descriptor.toInt32 = d then
        (if Welcome c outcome l then [payload] else []) else [] := by
    by_cases welcome : Welcome c outcome l
    · rw [if_pos welcome, if_pos welcome, messages_singleton]
    · rw [if_neg welcome, if_neg welcome, messages_nil, ite_self]
  rw [directly.view, get?_received hr reads contents, submissionsOf_received hr reads contents,
    call?_received hr reads contents, replies, contents.group, naming_of_forall own,
    heard, View.attend_receive hr reads]
  by_cases e : c.tag.descriptor.toInt32 = d
  · subst e
    rw [if_pos rfl, if_pos rfl, if_pos rfl, if_pos rfl]
    rfl
  · rw [if_neg (Ne.symm e), if_neg e, if_neg e, if_neg e, List.append_nil, List.append_nil]
    rfl

theorem view_of_close (hc : c.tag.opcode? = some .close) (unlogged : l.accessLog = false)
    (directly : Directly (plan c none l) l m) (d : Descriptor) :
    view d m = (view d l).attend ring peers reply d c := by
  rw [directly.view, plan_unlogged_close hc unlogged, View.attend_close hc]
  show View.mk ((l.connections.erase c.tag.descriptor.toInt32).get? d) (_ ++ naming d [])
    (_ ++ messages d []) = _
  rw [ConnectionTable.get?_erase]
  by_cases e : c.tag.descriptor.toInt32 = d
  · rw [if_pos e.symm, if_pos e]
    simp [naming]
  · rw [if_neg (Ne.symm e), if_neg e]
    simp [naming, view]

/-- What comes back of anything but accepts, receives and closes is not seen. -/
theorem view_of_other (ha : c.tag.opcode? ≠ some .accept) (hr : c.tag.opcode? ≠ some .receive)
    (hc : c.tag.opcode? ≠ some .close) (directly : Directly (plan c none l) l m)
    (d : Descriptor) : view d m = (view d l).attend ring peers reply d c := by
  have idle : plan c none l = [] := by
    unfold plan
    split
    next h => exact absurd h ha
    next h => exact absurd h hr
    next h => exact absurd h hc
    next => rfl
  have unseen : (view d l).attend ring peers reply d c = view d l := by
    unfold View.attend
    split
    next h => exact absurd h ha
    next h => exact absurd h hr
    next h => exact absurd h hc
    next => rfl
  rw [directly.view, idle, unseen]
  simp [view, submissionsOf, naming]

/-- Nothing shared comes into play afterwards either. -/
theorem Separate.dispatched {r : ρ} (separate : Separate ring peers reply l)
    (directly : Directly ds { l with ring := r } m) (contents : SameContents l.ring m.ring)
    (rest : AtRest m.ring) : Separate ring peers reply m where
  accessLog := directly.accessLog.trans separate.accessLog
  replies s fd payload := by
    rw [directly.handler]
    exact separate.replies s fd payload
  uncopied s fd payload := by
    rw [directly.handler]
    exact separate.uncopied s fd payload
  peerOf := directly.peerOf.trans separate.peerOf
  contents := separate.contents.trans contents
  atRest := rest

variable [Backend β] [KernelSide ρ] [LawfulBuffers ρ] [ReadableBuffers ρ] {flying : List UInt16}

/-- A dispatch succeeds and changes every view as its completion says. -/
theorem dispatch_attends (separate : Separate ring peers reply l) (hl : Recording l)
    (lends : l.pool.Lends flying)
    (accepted : (exec (dispatch c) l).2.backend.refusals = l.backend.refusals)
    (hw : c.tag.opcode? ≠ some .writeFixed)
    (inside : c.tag.opcode? = some .receive →
      ∀ id, c.bufferId? = some id → id.toNat < entries ring) :
    (exec (dispatch c) l).1 = .ok () ∧ Separate ring peers reply (exec (dispatch c) l).2 ∧
      ∀ d, view d (exec (dispatch c) l).2 = (view d l).attend ring peers reply d c := by
  have ring_eq := (dispatch_apart c l).ring
  have rest : AtRest (exec (dispatch c) l).2.ring := by
    rw [ring_eq]
    exact atRest_settled separate.atRest c
  by_cases hr : c.tag.opcode? = some .receive
  · obtain ⟨taken, same, settled⟩ := grasp_named hr separate.atRest fun id hid => by
      rw [separate.contents.entries]
      exact inside hr id hid
    rw [← named_eq separate.contents] at taken
    obtain ⟨ok, directly⟩ := dispatch_directly hw hl lends accepted taken separate.accessLog
      separate.uncopied
    refine ⟨ok, separate.dispatched directly (ring_eq ▸ settled) rest, ?_⟩
    exact view_of_receive (l := { l with ring := (grasp c l.ring).2 }) hr
      (separate.contents.trans same) separate.replies directly
  · have untaken : grasp c l.ring = (.ok none, l.ring) := if_neg hr
    obtain ⟨ok, directly⟩ := dispatch_directly hw hl lends accepted
      (congrArg Prod.fst untaken) separate.accessLog separate.uncopied
    have contents : SameContents l.ring (exec (dispatch c) l).2.ring := by
      rw [ring_eq]
      show SameContents l.ring (settled c l.ring)
      rw [settled_of_ne hr]
      exact .refl l.ring
    refine ⟨ok, separate.dispatched directly contents rest, ?_⟩
    rw [untaken] at directly
    by_cases ha : c.tag.opcode? = some .accept
    · exact view_of_accept ha separate directly
    by_cases hc : c.tag.opcode? = some .close
    · exact view_of_close hc separate.accessLog directly
    · exact view_of_other ha hr hc directly

end

/-! ## What is not seen -/

/-- Nobody sees a difference, and the shared parts are the same. -/
structure Unseen (l m : Watched β ρ σ) : Prop where
  view : ∀ d, view d m = view d l
  handler : m.handler = l.handler
  ring : m.ring = l.ring
  peerOf : m.peerOf = l.peerOf
  accessLog : m.accessLog = l.accessLog

theorem unseen_composable : Composable fun (l : Watched β ρ σ) _ m => Unseen l m where
  refl _ := ⟨fun _ => rfl, rfl, rfl, rfl, rfl⟩
  trans h h' := ⟨fun d => (h'.view d).trans (h.view d), h'.handler.trans h.handler,
    h'.ring.trans h.ring, h'.peerOf.trans h.peerOf, h'.accessLog.trans h.accessLog⟩

theorem Separate.unseen [BufferSource ρ] {ring : ρ} {peers : Descriptor → Option SocketAddress}
    {reply : Descriptor → Bytes → Reply} (separate : Separate ring peers reply l)
    (h : Unseen l m) : Separate ring peers reply m where
  accessLog := h.accessLog.trans separate.accessLog
  replies := by
    rw [h.handler]
    exact separate.replies
  uncopied := by
    rw [h.handler]
    exact separate.uncopied
  peerOf := h.peerOf.trans separate.peerOf
  contents := by
    rw [h.ring]
    exact separate.contents
  atRest := by
    rw [h.ring]
    exact separate.atRest

section

variable [Backend β]

theorem unseen_collect : Keeps (fun (l : Watched β ρ σ) _ m => Unseen l m) collect :=
  Keeps.collect unseen_composable (fun l _ => unseen_composable.refl l)
    (fun _ => ⟨fun _ => rfl, rfl, rfl, rfl, rfl⟩) fun _ => ⟨fun _ => rfl, rfl, rfl, rfl, rfl⟩

theorem unseen_conclude (batch : List Completion) :
    Keeps (fun (l : Watched β ρ σ) _ m => Unseen l m) (conclude batch) :=
  Keeps.conclude unseen_composable (fun _ _ => ⟨fun _ => rfl, rfl, rfl, rfl, rfl⟩)
    (fun _ _ => ⟨fun _ => rfl, rfl, rfl, rfl, rfl⟩) batch

/-- Listening arms an accept, and that is not seen. -/
theorem unseen_listen (fd : Descriptor) :
    Keeps (fun (l : Watched β ρ σ) _ m => Unseen l m) (listen fd) := by
  have armed : Keeps (fun (l : Watched β ρ σ) _ m => Unseen l m) (armAccept fd) := by
    intro l
    unfold armAccept
    rcases submit_cases (.onDescriptor fd .accept) (.accept fd) l with
      ⟨inner, e⟩ | ⟨fault, inner, e⟩
    · rw [Ends, e]
      refine ⟨fun d => ?_, rfl, rfl, rfl, rfl⟩
      simp [view, naming_append, naming_accept]
    · rw [Ends, e]
      exact ⟨fun _ => rfl, rfl, rfl, rfl, rfl⟩
  exact Keeps.listen unseen_composable (fun _ => ⟨fun _ => rfl, rfl, rfl, rfl, rfl⟩) armed
    (fun _ _ => ⟨fun _ => rfl, rfl, rfl, rfl, rfl⟩)
    fun _ _ => ⟨fun _ => rfl, rfl, rfl, rfl, rfl⟩

end

/-! ## Runs -/

section

variable [Backend β] [BufferSource ρ] {start : Watched β ρ σ} {cs batch : List Completion}
  {h : List Occurrence} {n : Nat} {ring : ρ} {peers : Descriptor → Option SocketAddress}
  {reply : Descriptor → Bytes → Reply}

/-- A run whose turns take these completions, in batches of any size. Buffers are not filled and
peers do not change meanwhile. -/
inductive Fed (start : Watched β ρ σ) : List Completion → Watched β ρ σ → Prop
  | start : Fed start [] start
  | listen {cs : List Completion} {l : Watched β ρ σ} (fd : Descriptor) :
    Fed start cs l → Fed start cs (exec (listen fd) l).2
  | turn {cs batch : List Completion} {l k : Watched β ρ σ} :
    Fed start cs l → exec collect l = (.ok batch, k) → Fed start (cs ++ batch) (exec turn l).2
  | idle {cs : List Completion} {l m : Watched β ρ σ} :
    Fed start cs l → Idle l m → m.ring = l.ring → m.peerOf = l.peerOf →
    m.accessLog = l.accessLog → Fed start cs m

/-- The completion is not one of a fixed write, and if it is one of a receive and names a buffer,
the group has that buffer. -/
structure Admissible (ring : ρ) (c : Completion) : Prop where
  kind : c.tag.opcode? ≠ some .writeFixed
  inside : c.tag.opcode? = some .receive →
    ∀ id, c.bufferId? = some id → id.toNat < entries ring

theorem Fed.reached (hf : Fed start cs l) : ∃ h, Reached start h l := by
  induction hf with
  | start => exact ⟨[], .start⟩
  | listen fd _ ih =>
    obtain ⟨h, reached⟩ := ih
    exact ⟨_, reached.step (.listen fd)⟩
  | turn _ _ ih =>
    obtain ⟨h, reached⟩ := ih
    exact ⟨_, reached.turn⟩
  | idle _ hi _ _ _ ih =>
    obtain ⟨h, reached⟩ := ih
    exact ⟨h, reached.idle hi⟩

variable [KernelSide ρ] [LawfulBuffers ρ] [ReadableBuffers ρ]

/-- A batch is dispatched to its end, and changes every view as its completions say. -/
theorem batch_attends (hs : Recording start) (h0 : Owned n [] start) (hr : Reached start h l)
    (separate : Separate ring peers reply l) (admissible : ∀ c ∈ batch, Admissible ring c)
    (accepted : (exec (batch.forM dispatch) l).2.backend.refusals = start.backend.refusals) :
    (exec (batch.forM dispatch) l).1 = .ok () ∧
      Separate ring peers reply (exec (batch.forM dispatch) l).2 ∧
      ∀ d, view d (exec (batch.forM dispatch) l).2 =
        batch.foldl (View.attend ring peers reply d) (view d l) := by
  induction batch generalizing h l with
  | nil => exact ⟨rfl, separate, fun _ => rfl⟩
  | cons c batch ih =>
    have first := hr.first_unrefused hs h0 accepted
    have next := hr.step (.dispatch c)
    obtain ⟨recording, before, owned⟩ := hr.unrefused hs h0 (Reached.start.step (.dispatch c)) first
    obtain ⟨kind, inside⟩ := admissible c List.mem_cons_self
    obtain ⟨ok, separate', attends⟩ := dispatch_attends separate recording owned.lends
      (first.trans before.symm) kind inside
    have e : exec ((c :: batch).forM dispatch) l =
        exec (batch.forM dispatch) (exec (dispatch c) l).2 := exec_bind_ok (Prod.ext ok rfl)
    rw [e] at accepted ⊢
    obtain ⟨done, separate'', more⟩ := ih next separate'
      (fun c hc => admissible c (List.mem_cons_of_mem _ hc)) accepted
    refine ⟨done, separate'', fun d => ?_⟩
    rw [more d, attends d, List.foldl_cons]

/-- Along a run every view goes by the completions that have been dispatched, one by one. -/
theorem Fed.attends (hf : Fed start cs l) (hs : Recording start) (h0 : Owned n [] start)
    (separate : Separate ring peers reply start) (admissible : ∀ c ∈ cs, Admissible ring c)
    (accepted : l.backend.refusals = start.backend.refusals) :
    Separate ring peers reply l ∧
      ∀ d, view d l = cs.foldl (View.attend ring peers reply d) (view d start) := by
  induction hf with
  | start => exact ⟨separate, fun _ => rfl⟩
  | @listen cs l fd hf ih =>
    obtain ⟨h, reached⟩ := hf.reached
    obtain ⟨-, before, -⟩ := reached.unrefused hs h0 (Reached.start.step (.listen fd)) accepted
    obtain ⟨separate', attends⟩ := ih admissible before
    have unseen := unseen_listen fd l
    exact ⟨separate'.unseen unseen, fun d => (unseen.view d).trans (attends d)⟩
  | @turn cs batch l k hf hc ih =>
    obtain ⟨h, reached⟩ := hf.reached
    obtain ⟨-, before, -⟩ := reached.unrefused hs h0 Reached.start.turn accepted
    obtain ⟨separate', attends⟩ := ih
      (fun c hc => admissible c (List.mem_append_left _ hc)) before
    have collected := (unseen_collect l).to_exec hc
    have ready := reached.idle ((idle_collect l).to_exec hc)
    obtain ⟨ok, separate'', more⟩ := batch_attends hs h0 ready (separate'.unseen collected)
      (fun c hc => admissible c (List.mem_append_right _ hc)) ((refusals_turn hc).trans accepted)
    have e : exec EventLoop.turn l = exec (conclude batch) (exec (batch.forM dispatch) k).2 := by
      rw [turn_eq, exec_bind_ok hc, exec_bind_ok (Prod.ext ok rfl)]
    have unseen := unseen_conclude batch (exec (batch.forM dispatch) k).2
    rw [e]
    refine ⟨separate''.unseen unseen, fun d => ?_⟩
    rw [unseen.view d, more d, collected.view d, attends d, List.foldl_append]
  | idle _ hi ring peerOf accessLog ih =>
    obtain ⟨separate', attends⟩ := ih admissible (hi.refusals.symm.trans accepted)
    have unseen : Unseen _ _ := ⟨hi.view, hi.handler, ring, peerOf, accessLog⟩
    exact ⟨separate'.unseen unseen, fun d => (unseen.view d).trans (attends d)⟩

/-- On a new loop that keeps no access log, with a handler whose replies are fixed or none at all
and go by the message alone, and with the buffers filled beforehand: leaving out of a run all
completions but those tagged with a descriptor and the accepts that report it makes no difference to
that descriptor. Its row in the table is the same, the same is submitted for it, in order, and the
handler hears the same from it, as long as all pushes are accepted in both runs; and all this is
what its own completions make of it, one by one. -/
theorem connections_are_independent {backend : β} {pool : SlotPool} {rings : List ρ}
    {handler : Handler σ} {state : σ} {settings : Settings} {granted entrySize slots : Nat}
    {fresh : Watched β ρ σ} {d : Descriptor}
    (hp : SlotPool.new granted entrySize slots = .ok pool) (rest : ∀ r ∈ rings, AtRest r)
    (hn : EventLoop.new (.of backend) pool rings handler.recording (state, []) settings = .ok fresh)
    (unlogged : settings.accessLog = false)
    (replies : ∀ s fd payload, (handler.respond s fd payload).1 = reply fd payload)
    (uncopied : ∀ fd payload bytes, reply fd payload ≠ .copied bytes)
    (filled : KernelSide.Works fresh.ring ring)
    (begins : start = { fresh with ring := ring, peerOf := peers })
    (admissible : ∀ c ∈ cs, Admissible ring c) (all : Fed start cs l)
    (own : Fed start (cs.filter (·.concerns d)) m) (all_accepted : l.backend.refusals = 0)
    (own_accepted : m.backend.refusals = 0) :
    l.connections.get? d = m.connections.get? d ∧
    naming d l.backend.pushed = naming d m.backend.pushed ∧
    messages d l.handlerState.2 = messages d m.handlerState.2 ∧
    view d m = (cs.filter (·.concerns d)).foldl (View.attend ring peers reply d) .unknown := by
  obtain ⟨recording, none_refused⟩ := recording_of_new hn
  have owned := owned_of_new hp hn
  obtain ⟨first, -, e⟩ := eq_of_new hn
  have separate : Separate ring peers reply start := by
    have atRest : AtRest ring := LawfulBuffers.works (rest _ first) filled
    rw [begins, e]
    have direct : Uncopied handler.recording := fun s fd payload bytes copied =>
      uncopied fd payload bytes ((replies s.1 fd payload).symm.trans copied)
    exact ⟨unlogged, fun s => replies s.1, direct, rfl, .refl ring, atRest⟩
  have begins_recording : Recording start := by
    rw [begins]
    exact recording
  have begins_owned : Owned slots [] start := by
    rw [begins]
    exact ⟨owned.tags, owned.capacity, owned.lends, owned.balance⟩
  have begins_unrefused : start.backend.refusals = 0 := by
    rw [begins]
    exact none_refused
  obtain ⟨-, attends⟩ := all.attends begins_recording begins_owned separate admissible
    (all_accepted.trans begins_unrefused.symm)
  obtain ⟨-, attends'⟩ := own.attends begins_recording begins_owned separate
    (fun c hc => admissible c (List.mem_of_mem_filter hc))
    (own_accepted.trans begins_unrefused.symm)
  have unknown : view d start = .unknown := by
    rw [begins, e]
    rfl
  have same : view d l = view d m := by
    rw [attends d, attends' d, View.foldl_attend]
  refine ⟨congrArg View.row same, congrArg View.submitted same, congrArg View.heard same, ?_⟩
  rw [attends' d, unknown]

end

/-- A new loop over two slots and four buffers that acknowledges what it receives and keeps no
access log. -/
def acknowledging : Watched Recorder BufferQueue Unit :=
  (EventLoop.new (.of .new) twoSlots [BufferQueue.new 0 4 64]
    (ReplyMode.handler .acknowledge).recording ((), [])
    { Settings.default with accessLog := false }).toOption.get rfl

theorem new_acknowledging : EventLoop.new (.of .new) twoSlots [BufferQueue.new 0 4 64]
    (ReplyMode.handler .acknowledge).recording ((), [])
    { Settings.default with accessLog := false } = .ok acknowledging := rfl

/-- The same with two bytes received for descriptor 5. -/
def beforeCrowd : Watched Recorder BufferQueue Unit :=
  { acknowledging with ring := lastWords.2, peerOf := fun _ => none }

/-- Descriptors 5 and 6 are accepted. A receive on 6 names a buffer in which nothing can be read,
and then the two bytes come. -/
def crowd : List Completion :=
  [.accepted 3 5 true, .accepted 3 6 true,
    ⟨.onDescriptor 6 .receive, 20, Completion.flagsOf 1 false⟩, lastWords.1]

/-- Whatever completions there are, a turn can take them. -/
theorem fed_ready (batch : List Completion) (l : Watched Recorder BufferQueue Unit) :
    Fed l batch (exec turn (ready batch l)).2 := by
  have collected : (exec collect (ready batch l)).1 = .ok batch := rfl
  exact (Fed.start.idle (idle_ready batch l) rfl rfl rfl).turn (Prod.ext collected rfl)

/-- Descriptor 6 is closed, and 5 fares as if it were alone. -/
theorem connections_are_independent_in_crowd :
    let together := (exec turn (ready crowd beforeCrowd)).2
    let alone := (exec turn (ready (crowd.filter (·.concerns 5)) beforeCrowd)).2
    (together.connections.get? 5 = alone.connections.get? 5 ∧
      naming 5 together.backend.pushed = naming 5 alone.backend.pushed ∧
      messages 5 together.handlerState.2 = messages 5 alone.handlerState.2 ∧
      view 5 alone = (crowd.filter (·.concerns 5)).foldl
        (View.attend lastWords.2 (fun _ => none) (fun _ _ => .fixed acknowledgement) 5) .unknown) ∧
    crowd.filter (·.concerns 5) = [.accepted 3 5 true, lastWords.1] ∧
    messages 5 together.handlerState.2 = [[0x68, 0x69]] ∧
    together.connections.state? 6 = some .closing := by
  have replies : ∀ (s : Unit) (fd : Descriptor) (payload : Bytes),
      ((ReplyMode.handler .acknowledge).respond s fd payload).1 = .fixed acknowledgement :=
    fun _ _ _ => rfl
  have kinds : ∀ c ∈ crowd, c.tag.opcode? ≠ some .writeFixed := by decide +kernel
  have inside : ∀ c ∈ crowd, (c.bufferId?.all fun id => id.toNat < entries lastWords.2) = true := by
    decide +kernel
  refine ⟨connections_are_independent new_twoSlots atRest_new new_acknowledging rfl replies
    (fun _ _ _ => nofun) works_lastWords rfl
    (fun c hc => ⟨kinds c hc, fun _ => inside_of_all (inside c hc)⟩)
    (fed_ready _ _) (fed_ready _ _) (by decide +kernel) (by decide +kernel), ?_⟩
  decide +kernel

end EventLoop

end RingServer
