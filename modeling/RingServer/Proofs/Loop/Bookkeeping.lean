import RingServer.Proofs.Loop.Letters

/-!
What a dispatch counts. An `Entry` is one thing that an operator can count, with all the counters
that it moves: a message moves those of the access log and of the replies as well, for a line and an
answer belong to it. `booking` lists the entries of a completion, and a dispatch that succeeds has
moved the counters by these entries and by nothing else (`dispatch_booked`). With each entry goes
what it sends and which call it makes, so that the counters can be compared with what was done.
-/

namespace RingServer

open Text (Bytes)

/-- Where bytes that are sent come from. -/
inductive Outlet
  | slot
  | direct
  deriving DecidableEq

def Submission.outlet? (s : Submission) : Option Outlet :=
  match s.operation with
  | .writeFixed .. => some .slot
  | .send .. => some .direct
  | _ => none

/-- What became of a line of the access log. -/
inductive Line
  | unkept
  | written
  | dropped
  deriving DecidableEq

namespace Line

def count (n : Counters) : Line → Counters
  | unkept => n
  | written => { n with logLines := n.logLines + 1 }
  | dropped => { n with logDropped := n.logDropped + 1 }

def outlets : Line → List Outlet
  | written => [.slot]
  | unkept | dropped => []

/-- There is a line exactly if the log is kept. -/
def Fits (kept : Bool) (x : Line) : Prop := x = .unkept ↔ kept = false

end Line

/-- What became of an answer. -/
inductive Fate
  | silent
  | fixed
  | copied
  | cut
  | dropped
  deriving DecidableEq

namespace Fate

def count (n : Counters) : Fate → Counters
  | silent => n
  | fixed | copied => { n with replies := n.replies + 1 }
  | cut => { n with repliesTruncated := n.repliesTruncated + 1, replies := n.replies + 1 }
  | dropped => { n with repliesDropped := n.repliesDropped + 1 }

def outlets : Fate → List Outlet
  | fixed => [.direct]
  | copied | cut => [.slot]
  | silent | dropped => []

/-- An answer has a fate of its kind. -/
def Fits : Reply → Fate → Prop
  | .nothing, x => x = .silent
  | .fixed _, x => x = .fixed
  | .copied _, x => x = .copied ∨ x = .cut ∨ x = .dropped

end Fate

/-- One thing that is counted. -/
inductive Entry
  | accepted (line : Line)
  | acceptFailed
  | acceptEnded
  | message (call : Call) (reply : Reply) (line : Line) (fate : Fate)
  /-- A receive stream stopped for want of a buffer. -/
  | stopped
  | rearmed
  | blamed
  | closed (line : Line)
  | unknown
  | turned (completions : Nat)
  deriving DecidableEq

namespace Entry

/-- The counters that an entry moves. -/
def count (n : Counters) : Entry → Counters
  | accepted line => line.count { n with accepts := n.accepts + 1 }
  | acceptFailed => { n with acceptErrors := n.acceptErrors + 1 }
  | acceptEnded => { n with acceptRearms := n.acceptRearms + 1 }
  | message call _ line fate => fate.count (line.count
    { n with messages := n.messages + 1, bytesIn := n.bytesIn + .ofNat call.2.length })
  | stopped => { n with receiveStops := n.receiveStops + 1 }
  | rearmed => { n with receiveRearms := n.receiveRearms + 1 }
  | blamed => { n with faults := n.faults + 1 }
  | closed line => line.count { n with closes := n.closes + 1 }
  | unknown => { n with unknown := n.unknown + 1 }
  | turned k => { n with turns := n.turns + 1, completions := n.completions + .ofNat k }

def outlets : Entry → List Outlet
  | accepted line | closed line => line.outlets
  | message _ _ line fate => line.outlets ++ fate.outlets
  | _ => []

def call? : Entry → Option Call
  | message call .. => some call
  | _ => none

def reply? : Entry → Option Reply
  | message _ reply .. => some reply
  | _ => none

def Fits (kept : Bool) : Entry → Prop
  | accepted line | closed line => line.Fits kept
  | message _ reply line fate => line.Fits kept ∧ fate.Fits reply
  | _ => True

end Entry

/-- The replies of a handler to a series of calls. -/
def Handler.answers {σ : Type} (handler : Handler σ) : σ → List Call → List Reply
  | _, [] => []
  | s, c :: cs =>
    (handler.respond s c.1 c.2).1 :: handler.answers (handler.respond s c.1 c.2).2 cs

namespace EventLoop

variable {β ρ σ α γ : Type} {l m n : Watched β ρ σ} {f g : Counters → Counters}
  {os ps : List Outlet} {cs ds : List Call} {es fs : List Entry}

theorem answers_append (handler : Handler σ) (s : σ) (cs ds : List Call) :
    handler.answers s (cs ++ ds) =
      handler.answers s cs ++ handler.answers (stateAfter handler s cs) ds := by
  induction cs generalizing s with
  | nil => rfl
  | cons c cs ih => exact congrArg (_ :: ·) (ih _)

theorem stateAfter_append (handler : Handler σ) (s : σ) (cs ds : List Call) :
    stateAfter handler s (cs ++ ds) = stateAfter handler (stateAfter handler s cs) ds :=
  List.foldl_append ..

/-! ## What moves between two loops -/

/-- The counters have moved by `f`; these have been sent and these calls made. -/
structure Shifts (f : Counters → Counters) (os : List Outlet) (cs : List Call)
    (l m : Watched β ρ σ) : Prop where
  counters : m.counters = f l.counters
  outlets : m.backend.pushed.filterMap (·.outlet?) =
    l.backend.pushed.filterMap (·.outlet?) ++ os
  handler : m.handler = l.handler
  state : m.handlerState = stateAfter l.handler l.handlerState cs
  accessLog : m.accessLog = l.accessLog

/-- Nothing of this has moved. -/
abbrev Still (l m : Watched β ρ σ) : Prop := Shifts id [] [] l m

theorem Shifts.trans (h : Shifts f os cs l m) (h' : Shifts g ps ds m n) :
    Shifts (fun x => g (f x)) (os ++ ps) (cs ++ ds) l n where
  counters := by rw [h'.counters, h.counters]
  outlets := by rw [h'.outlets, h.outlets, List.append_assoc]
  handler := h'.handler.trans h.handler
  state := by rw [h'.state, h.handler, h.state, stateAfter_append]
  accessLog := h'.accessLog.trans h.accessLog

theorem Shifts.still_left (h' : Still l m) (h : Shifts f os cs m n) : Shifts f os cs l n :=
  h'.trans h

theorem Shifts.still_right (h : Shifts f os cs l m) (h' : Still m n) : Shifts f os cs l n := by
  have both := h.trans h'
  rwa [List.append_nil, List.append_nil] at both

theorem still_of_eq (hc : m.counters = l.counters) (hb : m.backend.pushed = l.backend.pushed)
    (hh : m.handler = l.handler) (hs : m.handlerState = l.handlerState)
    (ha : m.accessLog = l.accessLog) : Still l m :=
  ⟨hc, by rw [hb, List.append_nil], hh, hs, ha⟩

/-- A part of a step that succeeded has succeeded. -/
theorem exec_bind_eq_ok {p : LoopM β ρ σ α} {q : α → LoopM β ρ σ γ} {l n : EventLoop β ρ σ} {c : γ}
    (h : exec (p >>= q) l = (.ok c, n)) :
    ∃ a m, exec p l = (.ok a, m) ∧ exec (q a) m = (.ok c, n) := by
  rcases hp : exec p l with ⟨e | a, m⟩
  · rw [exec_bind_error hp] at h
    cases h
  · rw [exec_bind_ok hp] at h
    exact ⟨a, m, rfl, h⟩

theorem still_emit (level : Level) (message : String) (fields : List (String × String))
    (h : exec (emit level message fields) l = (.ok (), m)) : Still l m := by
  cases h
  exact still_of_eq rfl rfl rfl rfl rfl

theorem shifts_count (h : exec (count f) l = (.ok (), m)) : Shifts f [] [] l m := by
  cases h
  exact ⟨rfl, (List.append_nil _).symm, rfl, rfl, rfl⟩

section

variable [Backend β]

theorem shifts_submit {tag : Tag} {operation : Operation}
    (h : exec (submit tag operation) l = (.ok (), m)) :
    Shifts id (Submission.outlet? ⟨tag, operation⟩).toList [] l m := by
  rcases submit_cases tag operation l with ⟨inner, e⟩ | ⟨fault, inner, e⟩
  · rw [e] at h
    cases h
    refine ⟨rfl, ?_, rfl, rfl, rfl⟩
    show List.filterMap _ (_ ++ [_]) = _
    rw [List.filterMap_append, List.filterMap_cons, List.filterMap_nil]
    cases Submission.outlet? ⟨tag, operation⟩ <;> rfl
  · rw [e] at h
    cases h

/-! ## What is sent -/

omit [Backend β] in
theorem still_acquireSlot {slot : Option Slot} (h : exec acquireSlot l = (.ok slot, m)) :
    Still l m := by
  cases h
  exact still_of_eq rfl rfl rfl rfl rfl

theorem shifts_sendSlot {fd : Descriptor} {slot : Slot} {length : Nat}
    (h : exec (sendSlot fd slot length) l = (.ok (), m)) : Shifts id [.slot] [] l m := by
  obtain ⟨loan, k, lent, pushed⟩ := exec_bind_eq_ok h
  have still : Still l k := by
    rw [exec_lendSlot] at lent
    split at lent
    · cases lent
      exact still_of_eq rfl rfl rfl rfl rfl
    · cases lent
  exact Shifts.still_left still (shifts_submit pushed)

theorem shifts_writeLog {level : Level} {message : String}
    (h : exec (writeLog level message) l = (.ok (), m)) :
    ∃ line : Line, line ≠ .unkept ∧ Shifts (line.count ·) line.outlets [] l m := by
  obtain ⟨slot, k, acquired, h⟩ := exec_bind_eq_ok h
  have acquiring := still_acquireSlot acquired
  cases slot with
  | none =>
    obtain ⟨_, _, counted, told⟩ := exec_bind_eq_ok h
    refine ⟨.dropped, by simp, .still_left acquiring ?_⟩
    exact (shifts_count counted).still_right (still_emit _ _ _ told)
  | some slot =>
    obtain ⟨now, _, read, h⟩ := exec_bind_eq_ok h
    obtain ⟨length, _, written, h⟩ := exec_bind_eq_ok h
    obtain ⟨_, _, sent, counted⟩ := exec_bind_eq_ok h
    cases read
    cases written
    refine ⟨.written, by simp, .still_left acquiring ?_⟩
    refine Shifts.still_left ?_ ((shifts_sendSlot sent).trans (shifts_count counted))
    exact still_of_eq rfl rfl rfl rfl rfl

theorem shifts_writeAccess {message : String} (h : exec (writeAccess message) l = (.ok (), m)) :
    ∃ line : Line, line.Fits l.accessLog ∧ Shifts (line.count ·) line.outlets [] l m := by
  unfold writeAccess at h
  rw [exec_bind_ok (exec_get l)] at h
  cases kept : l.accessLog with
  | false =>
    rw [kept] at h
    cases h
    exact ⟨.unkept, by simp [Line.Fits], still_of_eq rfl rfl rfl rfl rfl⟩
  | true =>
    rw [kept] at h
    obtain ⟨line, hl, moved⟩ := shifts_writeLog h
    exact ⟨line, by simp [Line.Fits, hl], moved⟩

theorem shifts_queueReply {fd : Descriptor} {reply : Reply}
    (h : exec (queueReply fd reply) l = (.ok (), m)) :
    ∃ fate : Fate, fate.Fits reply ∧ Shifts (fate.count ·) fate.outlets [] l m := by
  cases reply with
  | nothing =>
    cases h
    exact ⟨.silent, rfl, still_of_eq rfl rfl rfl rfl rfl⟩
  | fixed bytes =>
    obtain ⟨_, _, sent, counted⟩ := exec_bind_eq_ok h
    exact ⟨.fixed, rfl, (shifts_submit sent).trans (shifts_count counted)⟩
  | copied bytes =>
    obtain ⟨slot, k, acquired, h⟩ := exec_bind_eq_ok h
    have acquiring := still_acquireSlot acquired
    cases slot with
    | none =>
      obtain ⟨_, _, counted, told⟩ := exec_bind_eq_ok h
      refine ⟨.dropped, by simp [Fate.Fits], .still_left acquiring ?_⟩
      exact (shifts_count counted).still_right (still_emit _ _ _ told)
    | some slot =>
      simp only [] at h
      rw [exec_bind_ok (exec_get k), exec_bind_ok (exec_modify _ k)] at h
      have filled : Still k { k with pool := k.pool.write slot 0 bytes } :=
        still_of_eq rfl rfl rfl rfl rfl
      have leaving := Shifts.still_left acquiring filled
      split at h
      · obtain ⟨_, _, cut, h⟩ := exec_bind_eq_ok h
        obtain ⟨_, _, told, h⟩ := exec_bind_eq_ok h
        obtain ⟨_, _, sent, counted⟩ := exec_bind_eq_ok h
        refine ⟨.cut, by simp [Fate.Fits], .still_left leaving ?_⟩
        exact ((shifts_count cut).still_right (still_emit _ _ _ told)).trans
          ((shifts_sendSlot sent).trans (shifts_count counted))
      · obtain ⟨_, _, sent, counted⟩ := exec_bind_eq_ok h
        refine ⟨.copied, by simp [Fate.Fits], .still_left leaving ?_⟩
        exact (shifts_sendSlot sent).trans (shifts_count counted)

theorem shifts_answer {fd : Descriptor} {payload : Bytes}
    (h : exec (answer fd payload) l = (.ok (), m)) :
    ∃ fate : Fate, fate.Fits (l.handler.respond l.handlerState fd payload).1 ∧
      Shifts (fate.count ·) fate.outlets [(fd, payload)] l m := by
  rw [exec_answer] at h
  obtain ⟨fate, fits, moved⟩ := shifts_queueReply h
  refine ⟨fate, fits, ?_⟩
  have called : Shifts id [] [(fd, payload)] l
      { l with handlerState := (l.handler.respond l.handlerState fd payload).2 } :=
    ⟨rfl, (List.append_nil _).symm, rfl, rfl, rfl⟩
  exact called.trans moved

end

/-! ## Entries -/

/-- The counters have moved by these entries, with all that goes with them. -/
structure Booked (es : List Entry) (l m : Watched β ρ σ) : Prop extends
    Shifts (fun n => es.foldl Entry.count n) (es.flatMap (·.outlets)) (es.filterMap (·.call?))
      l m where
  replies : es.filterMap (·.reply?) = l.handler.answers l.handlerState (es.filterMap (·.call?))
  fits : ∀ e ∈ es, e.Fits l.accessLog

theorem Booked.nil (h : Still l m) : Booked [] l m where
  toShifts := h
  replies := rfl
  fits := by simp

theorem Booked.single (e : Entry) (h : Shifts (e.count ·) e.outlets e.call?.toList l m)
    (hr : e.reply?.toList = l.handler.answers l.handlerState e.call?.toList)
    (hf : e.Fits l.accessLog) : Booked [e] l m := by
  have call : [e].filterMap (·.call?) = e.call?.toList := by cases h : e.call? <;> simp [h]
  have reply : [e].filterMap (·.reply?) = e.reply?.toList := by cases h : e.reply? <;> simp [h]
  refine ⟨?_, ?_, by simpa using hf⟩
  · rw [List.flatMap_singleton, call]
    exact h
  · rw [reply, call, hr]

theorem Booked.trans (h : Booked es l m) (h' : Booked fs m n) : Booked (es ++ fs) l n where
  toShifts := by
    have both := h.toShifts.trans h'.toShifts
    rw [← List.flatMap_append, ← List.filterMap_append] at both
    simpa only [List.foldl_append] using both
  replies := by
    rw [List.filterMap_append, List.filterMap_append, h.replies, h'.replies, answers_append,
      h.handler, h.state]
  fits := by
    intro e he
    rcases List.mem_append.mp he with he | he
    · exact h.fits e he
    · rw [← h.accessLog]
      exact h'.fits e he

theorem Booked.still_left (h' : Still l m) (h : Booked es m n) : Booked es l n :=
  (Booked.nil h').trans h

/-! ## Messages and the end of a connection -/

theorem still_connections (t : ConnectionTable) : Still l { l with connections := t } :=
  still_of_eq rfl rfl rfl rfl rfl

theorem still_updateTable {change : ConnectionTable → Bool × ConnectionTable} {done : Bool}
    (h : exec (updateTable change) l = (.ok done, m)) : Still l m := by
  rw [exec_updateTable] at h
  cases h
  exact still_connections _

section

variable [Backend β]

theorem booked_handle {fd : Descriptor} {peer : Option SocketAddress} {id : UInt16}
    {payload : Bytes} (h : exec (handle fd peer id payload) l = (.ok (), m)) :
    ∃ line fate, Booked [.message (fd, payload) (l.handler.respond l.handlerState fd payload).1
      line fate] l m := by
  unfold handle at h
  rw [exec_bind_ok (exec_modify _ l)] at h
  obtain ⟨_, _, counted, h⟩ := exec_bind_eq_ok h
  obtain ⟨_, _, told, h⟩ := exec_bind_eq_ok h
  obtain ⟨_, k, logged, h⟩ := exec_bind_eq_ok h
  have begun := Shifts.still_left (still_connections _)
    ((shifts_count counted).still_right (still_emit _ _ _ told))
  obtain ⟨line, kept, moved⟩ := shifts_writeAccess logged
  obtain ⟨fate, fits, answered⟩ := shifts_answer h
  have before := begun.trans moved
  rw [before.handler, before.state] at fits
  rw [begun.accessLog] at kept
  exact ⟨line, fate, .single (.message _ _ line fate) (before.trans answered) rfl ⟨kept, fits⟩⟩

theorem still_closeConnection {fd : Descriptor}
    (h : exec (closeConnection fd) l = (.ok (), m)) : Still l m := by
  rcases exec_closeConnection fd l with ⟨c, -, -, e⟩ | ⟨-, e⟩
  · rw [e] at h
    exact Shifts.still_left (still_connections _) (shifts_submit h)
  · rw [e] at h
    cases h
    exact still_connections _

theorem still_shutdownConnection {fd : Descriptor} {armed : Bool}
    (h : exec (shutdownConnection fd armed) l = (.ok (), m)) : Still l m := by
  cases armed with
  | false => exact still_closeConnection h
  | true =>
    rcases exec_shutdownConnection fd l with ⟨c, -, -, e⟩ | ⟨-, e⟩
    · rw [e] at h
      exact Shifts.still_left (still_connections _) (shifts_submit h)
    · rw [e] at h
      cases h
      exact still_connections _

variable [BufferSource ρ]

theorem still_armReceive {fd : Descriptor} (h : exec (armReceive fd) l = (.ok (), m)) :
    Still l m := by
  unfold armReceive at h
  rw [exec_bind_ok (exec_get l)] at h
  exact shifts_submit h

/-- What is counted when a receive stream has ended. -/
def rearmed (t : ConnectionTable) (fd : Descriptor) : List Entry :=
  if t.isOpen fd then [.rearmed] else []

theorem booked_rearmOrClose {fd : Descriptor} {t : ConnectionTable}
    (ht : l.connections.isOpen fd = t.isOpen fd) (h : exec (rearmOrClose fd) l = (.ok (), m)) :
    Booked (rearmed t fd) l m := by
  unfold rearmOrClose at h
  rw [exec_bind_ok (exec_get l), ht] at h
  unfold rearmed
  split at h
  next opened =>
    rw [if_pos opened]
    obtain ⟨_, _, counted, h⟩ := exec_bind_eq_ok h
    obtain ⟨_, _, told, armed⟩ := exec_bind_eq_ok h
    have moved := (shifts_count counted).still_right (still_emit _ _ _ told)
    exact .single .rearmed (moved.still_right (still_armReceive armed)) rfl trivial
  next closed =>
    rw [if_neg closed]
    exact .nil (still_closeConnection h)

/-- What is counted at the end of a receive, with the stream still armed or not. -/
def ended (t : ConnectionTable) (fd : Descriptor) (armed : Bool) : Received → List Entry
  | .delivered => if armed then [] else rearmed t fd
  | .noBuffers => .stopped :: if armed then [] else rearmed t fd
  | .ended | .failed _ => []
  | .malformed _ => [.blamed]

theorem booked_concludeReceive {fd : Descriptor} {armed : Bool} {outcome : Received}
    {t : ConnectionTable} (ht : l.connections.isOpen fd = t.isOpen fd)
    (h : exec (concludeReceive fd armed outcome) l = (.ok (), m)) :
    Booked (ended t fd armed outcome) l m := by
  have unless_armed : ∀ {k : Watched β ρ σ}, k.connections = l.connections →
      exec (if armed then pure () else rearmOrClose fd) k = (.ok (), m) →
      Booked (if armed then [] else rearmed t fd) k m := by
    intro k hk he
    cases armed with
    | true =>
      cases he
      exact .nil (still_of_eq rfl rfl rfl rfl rfl)
    | false => exact booked_rearmOrClose (by rw [hk, ht]) he
  cases outcome with
  | delivered => exact unless_armed rfl h
  | noBuffers =>
    obtain ⟨_, _, counted, h⟩ := exec_bind_eq_ok h
    obtain ⟨_, _, told, h⟩ := exec_bind_eq_ok h
    have stopped : Booked [.stopped] l _ :=
      .single .stopped ((shifts_count counted).still_right (still_emit _ _ _ told)) rfl trivial
    cases counted
    cases told
    exact stopped.trans (unless_armed rfl h)
  | ended =>
    obtain ⟨_, _, told, h⟩ := exec_bind_eq_ok h
    exact .nil (Shifts.still_left (still_emit _ _ _ told) (still_closeConnection h))
  | failed errno =>
    obtain ⟨_, _, told, h⟩ := exec_bind_eq_ok h
    refine .nil (Shifts.still_left (still_emit _ _ _ told) ?_)
    cases armed with
    | true =>
      cases h
      exact still_of_eq rfl rfl rfl rfl rfl
    | false => exact still_closeConnection h
  | malformed cause =>
    obtain ⟨_, _, counted, h⟩ := exec_bind_eq_ok h
    obtain ⟨_, _, told, h⟩ := exec_bind_eq_ok h
    have blamed := (shifts_count counted).still_right (still_emit _ _ _ told)
    exact .single .blamed (blamed.still_right (still_shutdownConnection h)) rfl trivial

/-! ## Completions -/

/-- The entry for a message that a receive brings to an open connection. -/
def heardEntry (fd : Descriptor) (l : Watched β ρ σ) (result : Int32)
    (buffer : Option ReceivedBuffer) (line : Line) (fate : Fate) : List Entry :=
  let (outcome, payload) := judge l.ring result buffer
  if outcome = .delivered ∧ l.connections.isOpen fd = true then
    [.message (fd, payload) (l.handler.respond l.handlerState fd payload).1 line fate]
  else []

theorem booked_receiveOutcome {fd : Descriptor} {result : Int32} {buffer : Option ReceivedBuffer}
    {outcome : Received} (h : exec (receiveOutcome fd result buffer) l = (.ok outcome, m)) :
    ∃ line fate, Booked (heardEntry fd l result buffer line fate) l m := by
  unfold heardEntry
  rcases receiveOutcome_cases fd result buffer l with ⟨hj, he⟩ | ⟨b, payload, rfl, hj, he⟩
  · rw [he] at h
    cases h
    exact ⟨.unkept, .silent, by simpa [hj] using Booked.nil (still_connections _)⟩
  · rw [he] at h
    simp only [hj]
    unfold hand at h
    rw [← ConnectionTable.isSome_filter_isOpen]
    cases hc : (l.connections.get? fd).filter Connection.isOpen with
    | none =>
      rw [hc] at h
      obtain ⟨_, _, told, h⟩ := exec_bind_eq_ok h
      cases h
      exact ⟨.unkept, .silent, .nil (still_emit _ _ _ told)⟩
    | some connection =>
      rw [hc] at h
      obtain ⟨_, _, handled, h⟩ := exec_bind_eq_ok h
      cases h
      exact booked_handle handled

/-- What is counted about a completion whose buffer has been taken. -/
def booking (c : Completion) (buffer : Option ReceivedBuffer) (l : Watched β ρ σ) (line : Line)
    (fate : Fate) : List Entry :=
  let fd := c.tag.descriptor.toInt32
  match c.tag.opcode? with
  | some .accept =>
    (if c.result < 0 then [.acceptFailed] else [.accepted line]) ++
      if c.hasMore then [] else [.acceptEnded]
  | some .receive =>
    heardEntry fd l c.result buffer line fate ++
      ended l.connections fd c.hasMore (judge l.ring c.result buffer).1
  | some .close => if l.connections.contains fd then [.closed line] else []
  | none => [.unknown]
  | _ => []

theorem booked_onReceive {c : Completion} (hr : c.tag.opcode? = some .receive)
    (h : exec (onReceive c.tag.descriptor.toInt32 c) l = (.ok (), m)) :
    ∃ buffer line fate, (grasp c l.ring).1 = .ok buffer ∧
      Booked (booking c buffer { l with ring := (grasp c l.ring).2 } line fate) l m := by
  rw [exec_onReceive, exec_takeBuffer c hr] at h
  cases hg : (grasp c l.ring).1 with
  | error e =>
    rw [hg] at h
    cases h
  | ok buffer =>
    rw [hg] at h
    simp only [] at h
    have taken : Still l { l with ring := (grasp c l.ring).2 } := still_of_eq rfl rfl rfl rfl rfl
    generalize ({ l with ring := (grasp c l.ring).2 } : Watched β ρ σ) = k at h taken ⊢
    obtain ⟨performed, judged⟩ :=
      performs_receiveOutcome c.tag.descriptor.toInt32 c.result buffer k
    rcases he : exec (receiveOutcome c.tag.descriptor.toInt32 c.result buffer) k with
      ⟨e | outcome, n⟩
    · rw [he] at h
      cases h
    · rw [he] at h
      simp only [] at h
      obtain ⟨line, fate, heard⟩ := booked_receiveOutcome he
      have same := judged outcome n he
      have back : Still n (returned buffer n) := by
        cases buffer <;> exact still_of_eq rfl rfl rfl rfl rfl
      -- A message is counted in its connection, which stays open for that.
      have opened : (returned buffer n).connections.isOpen c.tag.descriptor.toInt32 =
          k.connections.isOpen c.tag.descriptor.toInt32 := by
        have table : (returned buffer n).connections = n.connections := by cases buffer <;> rfl
        rw [table]
        rcases connections_heard (performed.to_exec he) with e | ⟨count, e⟩
        · rw [e]
        · rw [e, ConnectionTable.isOpen, ConnectionTable.get?_modify, if_pos rfl, Option.any_map]
          rfl
      refine ⟨buffer, line, fate, rfl, ?_⟩
      unfold booking
      rw [hr, ← same]
      exact .still_left taken (heard.trans (.still_left back (booked_concludeReceive opened h)))

omit [BufferSource ρ] [Backend β] in
theorem still_track {fd : Descriptor} {peer : Option SocketAddress}
    (h : exec (track fd peer) l = (.ok (), m)) : Still l m := by
  obtain ⟨done, _, inserted, h⟩ := exec_bind_eq_ok h
  refine Shifts.still_left (still_updateTable inserted) ?_
  split at h
  · cases h
    exact still_connections _
  · obtain ⟨_, _, told, h⟩ := exec_bind_eq_ok h
    obtain ⟨_, _, again, h⟩ := exec_bind_eq_ok h
    cases h
    exact (still_emit _ _ _ told).still_right (still_updateTable again)

theorem booked_onAccept {c : Completion} (ha : c.tag.opcode? = some .accept)
    (h : exec (onAccept c.tag.descriptor.toInt32 c) l = (.ok (), m)) (fate : Fate) :
    ∃ line, Booked (booking c none l line fate) l m := by
  -- Whatever was accepted, the accept itself is armed again if it has ended.
  have rearm : ∀ {k : Watched β ρ σ}, exec (if (!c.hasMore) = true then do
        count fun n => { n with acceptRearms := n.acceptRearms + 1 }
        emit .debug "re-arming multishot accept" [("fd", toString c.tag.descriptor.toInt32)]
        armAccept c.tag.descriptor.toInt32
      else pure () : LoopM (Journal β) ρ (σ × List Call) Unit) k = (.ok (), m) →
      Booked (if c.hasMore then [] else [.acceptEnded]) k m := by
    intro k hk
    cases more : c.hasMore with
    | true =>
      rw [more] at hk
      cases hk
      exact .nil (still_of_eq rfl rfl rfl rfl rfl)
    | false =>
      rw [more] at hk
      obtain ⟨_, _, counted, hk⟩ := exec_bind_eq_ok hk
      obtain ⟨_, _, told, armed⟩ := exec_bind_eq_ok hk
      have moved := (shifts_count counted).still_right (still_emit _ _ _ told)
      exact .single .acceptEnded (moved.still_right (shifts_submit armed)) rfl trivial
  unfold booking
  rw [ha]
  unfold onAccept at h
  simp only [] at h ⊢
  split at h
  next failed =>
    simp only [if_pos failed]
    obtain ⟨_, _, counted, h⟩ := exec_bind_eq_ok h
    obtain ⟨_, _, told, h⟩ := exec_bind_eq_ok h
    have moved := (shifts_count counted).still_right (still_emit _ _ _ told)
    exact ⟨.unkept, (Booked.single .acceptFailed moved rfl trivial).trans (rearm h)⟩
  next accepted =>
    simp only [if_neg accepted]
    rw [exec_bind_ok (exec_get l)] at h
    obtain ⟨_, _, tracks, h⟩ := exec_bind_eq_ok h
    obtain ⟨_, _, counted, h⟩ := exec_bind_eq_ok h
    obtain ⟨_, _, told, h⟩ := exec_bind_eq_ok h
    obtain ⟨_, _, armed, h⟩ := exec_bind_eq_ok h
    obtain ⟨_, _, logged, h⟩ := exec_bind_eq_ok h
    have begun := Shifts.still_left (still_track tracks)
      (((shifts_count counted).still_right (still_emit _ _ _ told)).still_right
        (still_armReceive armed))
    obtain ⟨line, kept, moved⟩ := shifts_writeAccess logged
    rw [begun.accessLog] at kept
    exact ⟨line, (Booked.single (.accepted line) (begun.trans moved) rfl kept).trans (rearm h)⟩

theorem booked_onClose {c : Completion} (hc : c.tag.opcode? = some .close)
    (h : exec (onClose c.tag.descriptor.toInt32 c) l = (.ok (), m)) (fate : Fate) :
    ∃ line, Booked (booking c none l line fate) l m := by
  have forget : ∀ {k : Watched β ρ σ}, Still l k → k.connections = l.connections →
      exec ((modifyGet fun l : Watched β ρ σ => (l.connections.get? c.tag.descriptor.toInt32,
        untracked c.tag.descriptor.toInt32 l)) >>= farewell c.tag.descriptor.toInt32) k =
        (.ok (), m) → ∃ line, Booked (booking c none l line fate) l m := by
    intro k still same hk
    rw [exec_bind_ok (exec_modifyGet _ k), same] at hk
    have begun := still.still_right (n := untracked c.tag.descriptor.toInt32 k)
      (still_connections _)
    have entries : ∀ line, booking c none l line fate =
        if (l.connections.get? c.tag.descriptor.toInt32).isSome then [.closed line] else [] := by
      intro line
      unfold booking
      rw [hc]
      rfl
    simp only [entries]
    cases hx : l.connections.get? c.tag.descriptor.toInt32 with
    | none =>
      rw [hx] at hk
      exact ⟨.unkept, .nil (begun.still_right (still_emit _ _ _ hk))⟩
    | some x =>
      rw [hx] at hk
      obtain ⟨_, _, counted, hk⟩ := exec_bind_eq_ok hk
      obtain ⟨_, _, told, logged⟩ := exec_bind_eq_ok hk
      have closed := Shifts.still_left begun
        ((shifts_count counted).still_right (still_emit _ _ _ told))
      obtain ⟨line, kept, moved⟩ := shifts_writeAccess logged
      rw [closed.accessLog] at kept
      exact ⟨line, .single (.closed line) (closed.trans moved) rfl kept⟩
  unfold onClose at h
  split at h
  · obtain ⟨_, _, told, h⟩ := exec_bind_eq_ok h
    have still := still_emit _ _ _ told
    cases told
    exact forget still rfl h
  · exact forget (still_connections _) rfl h

theorem still_released {c : Completion} (hw : c.tag.opcode? = some .writeFixed)
    (h : exec (dispatch c) l = (.ok (), m)) : Still l m := by
  by_cases hd : c.tag.descriptor.toNat ≤ FreeList.maxSlots
  · obtain ⟨events, e⟩ := exec_dispatch_release (l := l) hw hd
    rw [e] at h
    split at h
    · cases h
      exact still_of_eq rfl rfl rfl rfl rfl
    · cases h
  · rw [exec_dispatch_writeFixed_of_lt hw (by omega)] at h
    cases h

/-- A dispatch that succeeds is counted by its entries, and nothing else is. -/
theorem dispatch_booked {c : Completion} (h : exec (dispatch c) l = (.ok (), m)) :
    ∃ buffer line fate, (grasp c l.ring).1 = .ok buffer ∧
      Booked (booking c buffer { l with ring := (grasp c l.ring).2 } line fate) l m := by
  by_cases hr : c.tag.opcode? = some .receive
  · refine booked_onReceive hr ?_
    rw [← h]
    unfold dispatch
    rw [hr]
  have untaken : grasp c l.ring = (.ok none, l.ring) := if_neg hr
  rw [untaken]
  show ∃ buffer line fate, Except.ok none = Except.ok buffer ∧
    Booked (booking c buffer l line fate) l m
  have conclude : (∃ line fate, Booked (booking c none l line fate) l m) →
      ∃ buffer line fate, (.ok none : Except Fault _) = .ok buffer ∧
        Booked (booking c buffer l line fate) l m := fun ⟨line, fate, booked⟩ =>
    ⟨none, line, fate, rfl, booked⟩
  apply conclude
  by_cases hw : c.tag.opcode? = some .writeFixed
  · have nothing : booking c none l .unkept .silent = [] := by
      unfold booking
      rw [hw]
    refine ⟨.unkept, .silent, ?_⟩
    rw [nothing]
    exact .nil (still_released hw h)
  unfold dispatch at h
  rcases ho : c.tag.opcode? with _ | op
  · rw [ho] at h
    obtain ⟨_, _, counted, told⟩ := exec_bind_eq_ok h
    have moved := (shifts_count counted).still_right (still_emit _ _ _ told)
    refine ⟨.unkept, .silent, ?_⟩
    unfold booking
    rw [ho]
    exact .single .unknown moved rfl trivial
  rw [ho] at h
  cases op with
  | accept =>
    obtain ⟨line, booked⟩ := booked_onAccept ho h .silent
    exact ⟨line, .silent, booked⟩
  | close =>
    obtain ⟨line, booked⟩ := booked_onClose ho h .silent
    exact ⟨line, .silent, booked⟩
  | receive => exact absurd ho hr
  | writeFixed => exact absurd ho hw
  | listen | write | send | shutdown =>
    refine ⟨.unkept, .silent, ?_⟩
    unfold booking
    rw [ho]
    refine .nil ?_
    simp only [] at h
    split at h
    · exact still_emit _ _ _ h
    · cases h
      exact still_connections _

end

end EventLoop

end RingServer
