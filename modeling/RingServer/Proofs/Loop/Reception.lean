import RingServer.Proofs.Loop.Buffers
import RingServer.Proofs.Loop.Direct

/-!
What a receive means and what is done about it. `Reads` says what the completion of a receive means,
case by case and in no order; the cases exclude each other and leave nothing out
(`Reads.judge_eq`, `exists_reads`). `reaction?` is the table of what follows for the connection,
and a dispatch goes by it in every state that a run reaches (`receives_follow_table`).
-/

namespace RingServer

open Text (Bytes)
open BufferSource

/-- What can be done about a connection after a receive. -/
inductive Reaction
  | rearm
  | shutDown
  | close
  deriving DecidableEq

namespace Reaction

def submission (fd : Descriptor) (group : UInt16) : Reaction → Submission
  | rearm => ⟨.onDescriptor fd .receive, .receive fd group⟩
  | shutDown => ⟨.onDescriptor fd .shutdown, .shutdown fd⟩
  | close => ⟨.onDescriptor fd .close, .close fd⟩

/-- The state of the connection afterwards. -/
def state (before : ConnectionState) : Reaction → ConnectionState
  | rearm => before
  | shutDown => .shuttingDown
  | close => .closing

end Reaction

/-- What follows from a receive for a connection, with the stream still armed or not. -/
def reaction? (outcome : Received) (armed : Bool) : ConnectionState → Option Reaction
  | .opened =>
    match outcome with
    | .delivered | .noBuffers => if armed then none else some .rearm
    | .ended => some .close
    | .failed _ => if armed then none else some .close
    | .malformed _ => if armed then some .shutDown else some .close
  | .shuttingDown =>
    match outcome with
    | .ended => some .close
    | .delivered | .noBuffers | .failed _ | .malformed _ => if armed then none else some .close
  | .closing => none

/-- The outcome is counted as a fault of the connection. -/
def Received.faulty : Received → Bool
  | malformed _ => true
  | delivered | noBuffers | ended | failed _ => false

/-- What becomes of a connection with a receive: a message is counted if it is open, and then its
state changes by the reaction. -/
def Connection.receive (outcome : Received) (armed : Bool) (payload : Bytes) (x : Connection) :
    Connection :=
  { if outcome = .delivered ∧ x.isOpen = true then x.count (.ofNat payload.length) else x with
    state := ((reaction? outcome armed x.state).map (·.state x.state)).getD x.state }

/-- Receiving is work of the kernel. -/
theorem KernelSide.Works.of_receive {ρ : Type} [BufferSource ρ] [KernelSide ρ] {r s : ρ}
    {fd : Descriptor} {payload : Bytes} {truncated more : Bool} {c : Completion}
    (h : receive fd payload truncated more r = some (c, s)) : Works r s := by
  unfold receive at h
  obtain ⟨⟨id, t⟩, selected, h⟩ := Option.bind_eq_some_iff.mp h
  cases h
  exact .fill id _ (.select .rest selected)

namespace EventLoop

variable {β ρ σ : Type}

/-! ## Meaning of a receive -/

section

variable [BufferSource ρ] {ring s : ρ} {c : Completion} {outcome : Received} {payload : Bytes}

/-- This is what the envelope reads as that has been received into the buffer named. -/
structure Stored (ring : ρ) (c : Completion) (envelope : Option Envelope) : Prop where
  positive : 0 < c.result
  fits : c.result.toInt.toNat ≤ entrySize ring
  stored : ∃ id, c.bufferId? = some id ∧
    Envelope.parse? (data ring ⟨group ring, id, c.result.toInt.toNat⟩) = envelope

/-- The meaning of the completion of a receive, and the message that it brings. -/
inductive Reads (ring : ρ) (c : Completion) : Received → Bytes → Prop
  | starved : c.result = -noBufferSpace → Reads ring c .noBuffers []
  | finished : c.result = 0 → Reads ring c .ended []
  | failed : c.result < 0 → c.result ≠ -noBufferSpace → Reads ring c (.failed (-c.result)) []
  | oversized : 0 < c.result → entrySize ring < c.result.toInt.toNat →
    Reads ring c (.malformed .longerThanBuffer) []
  | unnamed : 0 < c.result → c.result.toInt.toNat ≤ entrySize ring → c.bufferId? = none →
    Reads ring c (.malformed .noBuffer) []
  | illegible : Stored ring c none → Reads ring c (.malformed .badEnvelope) []
  /-- However little of it there is. -/
  | truncated {payload : Bytes} : Stored ring c (some ⟨payload, true⟩) →
    Reads ring c (.malformed .truncated) []
  | empty : Stored ring c (some ⟨[], false⟩) → Reads ring c .ended []
  | message {payload : Bytes} : Stored ring c (some ⟨payload, false⟩) → payload ≠ [] →
    Reads ring c .delivered payload

/-- The buffer that a completion names, as it is taken. -/
def named (ring : ρ) (c : Completion) : Option ReceivedBuffer :=
  c.bufferId?.map fun id => ⟨group ring, id, min c.result.toInt.toNat (entrySize ring)⟩

theorem inside_of_all (h : (c.bufferId?.all fun id => id.toNat < entries ring) = true) (id : UInt16)
    (hid : c.bufferId? = some id) : id.toNat < entries ring :=
  of_decide_eq_true (Option.all_eq_true _ _ |>.mp h id hid)

theorem exists_reads (ring : ρ) (c : Completion) :
    ∃ outcome payload, Reads ring c outcome payload := by
  by_cases starved : c.result = -noBufferSpace
  · exact ⟨_, _, .starved starved⟩
  by_cases finished : c.result = 0
  · exact ⟨_, _, .finished finished⟩
  by_cases negative : c.result < 0
  · exact ⟨_, _, .failed negative starved⟩
  have positive : 0 < c.result := by
    rw [Int32.lt_iff_toInt_lt] at negative ⊢
    have ne := mt Int32.toInt_inj.mp finished
    rw [Int32.toInt_zero] at negative ne ⊢
    omega
  by_cases fits : c.result.toInt.toNat ≤ entrySize ring
  · cases hid : c.bufferId? with
    | none => exact ⟨_, _, .unnamed positive fits hid⟩
    | some id =>
      obtain ⟨envelope, read⟩ : ∃ envelope, Envelope.parse?
        (data ring ⟨group ring, id, c.result.toInt.toNat⟩) = envelope := ⟨_, rfl⟩
      have stored : Stored ring c envelope := ⟨positive, fits, id, hid, read⟩
      rcases envelope with _ | ⟨payload, _ | _⟩
      · exact ⟨_, _, .illegible stored⟩
      · by_cases none : payload = []
        · subst none
          exact ⟨_, _, .empty stored⟩
        · exact ⟨_, _, .message stored none⟩
      · exact ⟨_, _, .truncated stored⟩
  · exact ⟨_, _, .oversized positive (Nat.lt_of_not_le fits)⟩

/-- What an envelope means that has been read, or could not be. -/
def meaning : Option Envelope → Received × Bytes
  | none => (.malformed .badEnvelope, [])
  | some envelope =>
    if envelope.truncated then (.malformed .truncated, [])
    else if envelope.payload.isEmpty then (.ended, [])
    else (.delivered, envelope.payload)

theorem judge_of_pos {result : Int32} (h : 0 < result) (buffer : Option ReceivedBuffer) :
    judge s result buffer =
      if result.toInt.toNat > entrySize s then (.malformed .longerThanBuffer, [])
      else buffer.elim (.malformed .noBuffer, []) fun b => meaning (Envelope.parse? (data s b)) := by
  rw [Int32.lt_iff_toInt_lt, Int32.toInt_zero] at h
  have fed : result ≠ -noBufferSpace := by
    rintro rfl
    exact absurd h (by decide)
  have some_result : result ≠ 0 := by
    rintro rfl
    exact absurd h (by decide)
  have positive : ¬ result < 0 := by
    rw [Int32.lt_iff_toInt_lt, Int32.toInt_zero]
    omega
  unfold judge
  rw [if_neg fed, if_neg some_result, if_neg positive]
  cases buffer with
  | none => rfl
  | some b => rcases h : Envelope.parse? (data s b) with _ | envelope <;> simp [h, meaning]

/-- Of what fits its buffer, only the envelope matters. -/
theorem Stored.judge_eq {envelope : Option Envelope} (h : Stored ring c envelope)
    (same : SameContents ring s) : judge s c.result (named ring c) = meaning envelope := by
  obtain ⟨id, hid, read⟩ := h.stored
  rw [judge_of_pos h.positive, same.entrySize, if_neg (Nat.not_lt.mpr h.fits), named, hid,
    Nat.min_eq_left h.fits, Option.map_some, Option.elim_some, same.data, read]

/-- What a receive means is found out once its buffer has been taken. -/
theorem Reads.judge_eq (h : Reads ring c outcome payload) (same : SameContents ring s) :
    judge s c.result (named ring c) = (outcome, payload) := by
  cases h with
  | starved e =>
    unfold judge
    rw [if_pos e]
  | finished e =>
    have fed : c.result ≠ -noBufferSpace := by
      rw [e]
      decide
    unfold judge
    rw [if_neg fed, if_pos e]
  | failed negative fed =>
    have some_result : c.result ≠ 0 := by
      intro e
      rw [e] at negative
      exact absurd negative (by decide)
    unfold judge
    rw [if_neg fed, if_neg some_result, if_pos negative]
  | oversized positive beyond => rw [judge_of_pos positive, same.entrySize, if_pos beyond]
  | unnamed positive fits hid =>
    rw [judge_of_pos positive, same.entrySize, if_neg (Nat.not_lt.mpr fits), named, hid]
    rfl
  | illegible stored => exact stored.judge_eq same
  | truncated stored => exact stored.judge_eq same
  | empty stored => exact stored.judge_eq same
  | message stored some_payload =>
    rw [stored.judge_eq same]
    simp [meaning, some_payload]

/-- A receive means one thing. -/
theorem Reads.unique {o : Received} {p : Bytes} (h : Reads ring c outcome payload)
    (h' : Reads ring c o p) : outcome = o ∧ payload = p := by
  have same := SameContents.refl ring
  exact Prod.mk.inj ((h.judge_eq same).symm.trans (h'.judge_eq same))

end

/-! ## Deeds of a receive -/

/-- The deed that a reaction is. -/
def Deed.ofReaction (fd : Descriptor) : Reaction → Deed
  | .rearm => .armReceive fd
  | .shutDown => .shutDown fd
  | .close => .close fd

/-- The reaction to a receive on a descriptor. -/
def reactionOn (t : ConnectionTable) (fd : Descriptor) (outcome : Received) (armed : Bool) :
    Option Reaction :=
  (t.state? fd).bind (reaction? outcome armed)

theorem aftermath_eq (fd : Descriptor) (t : ConnectionTable) (armed : Bool) (outcome : Received) :
    aftermath fd t armed outcome = (if outcome.faulty then [.blame] else []) ++
      ((reactionOn t fd outcome armed).map (Deed.ofReaction fd)).toList := by
  unfold reactionOn aftermath rearming closing ConnectionTable.isOpen ConnectionTable.state?
  rcases t.get? fd with _ | ⟨peer, state, messages, bytes⟩
  · cases outcome <;> cases armed <;> rfl
  · cases state <;> cases outcome <;> cases armed <;> rfl

section

variable [BufferSource ρ] {ring : ρ} {c : Completion} {outcome : Received} {payload : Bytes}
  {l : EventLoop β ρ σ} {fd : Descriptor}

/-- The receive brings a message to an open connection. -/
abbrev Welcome (c : Completion) (outcome : Received) (l : EventLoop β ρ σ) : Prop :=
  outcome = .delivered ∧ l.connections.isOpen c.tag.descriptor.toInt32 = true

/-- What is done about a message for an open connection. -/
def passing (fd : Descriptor) (l : EventLoop β ρ σ) (payload : Bytes) (message : String) :
    List Deed :=
  .tally fd payload.length :: (access l message ++ [.answer fd payload])

theorem Reads.named_of_delivered (h : Reads ring c .delivered payload) :
    ∃ b, named ring c = some b := by
  cases h with
  | message stored _ =>
    obtain ⟨id, hid, -⟩ := stored.stored
    exact ⟨_, by rw [named, hid, Option.map_some]⟩

omit [BufferSource ρ] in
theorem hearing_eq (fd : Descriptor) (l : EventLoop β ρ σ) (payload : Bytes)
    (b : ReceivedBuffer) : ∃ message, hearing fd l payload (some b) =
    if l.connections.isOpen fd = true then passing fd l payload message else [] := by
  rw [← ConnectionTable.isSome_filter_isOpen]
  unfold hearing
  cases (l.connections.get? fd).filter Connection.isOpen with
  | none => exact ⟨"", rfl⟩
  | some connection => exact ⟨_, rfl⟩

/-- The plan of a receive goes by its meaning. -/
theorem plan_receive_eq (hr : c.tag.opcode? = some .receive) (reads : Reads ring c outcome payload)
    (same : SameContents ring l.ring) : ∃ message, plan c (named ring c) l =
      (if Welcome c outcome l then passing c.tag.descriptor.toInt32 l payload message else []) ++
      ((named ring c).map Deed.recycle).toList ++
      ((if outcome.faulty then [.blame] else []) ++
        ((reactionOn l.connections c.tag.descriptor.toInt32 outcome c.hasMore).map
          (Deed.ofReaction c.tag.descriptor.toInt32)).toList) := by
  rw [plan_receive hr, heard, reads.judge_eq same, aftermath_eq]
  by_cases delivered : outcome = .delivered
  · subst delivered
    obtain ⟨b, hb⟩ := reads.named_of_delivered
    obtain ⟨message, he⟩ := hearing_eq c.tag.descriptor.toInt32 l payload b
    refine ⟨message, ?_⟩
    rw [hb, if_pos rfl, he]
    simp [Welcome]
  · exact ⟨"", by simp [Welcome, delivered]⟩

omit [BufferSource ρ] in
theorem onTable_passing (peerOf : Descriptor → Option SocketAddress) (message : String)
    (t : ConnectionTable) : (passing fd l payload message).foldl (Deed.onTable peerOf) t =
      t.modify fd (.count (.ofNat payload.length)) := by
  unfold passing access
  split <;> rfl

omit [BufferSource ρ] in
theorem call?_passing (message : String) :
    (passing fd l payload message).filterMap Deed.call? = [(fd, payload)] := by
  unfold passing access
  split <;> rfl

omit [BufferSource ρ] in
theorem submissionsOf_passing (handler : Handler σ) (group : UInt16) (s : σ) (message : String) :
    submissionsOf handler group s (passing fd l payload message) =
      (handler.respond s fd payload).1.submissions fd := by
  unfold passing access
  split <;> simp [submissionsOf, Deed.submissions, Deed.onHandler]

omit [BufferSource ρ] in
theorem get?_onTable_reaction (peerOf : Descriptor → Option SocketAddress) (r : Option Reaction)
    (t : ConnectionTable) (d : Descriptor) :
    ((r.map (Deed.ofReaction fd)).toList.foldl (Deed.onTable peerOf) t).get? d =
      if d = fd then (t.get? d).map fun x =>
        { x with state := (r.map (·.state x.state)).getD x.state }
      else t.get? d := by
  have kept : ∀ o : Option Connection, o.map (fun x => { x with state := x.state }) = o := by
    intro o
    cases o <;> rfl
  rcases r with _ | (_ | _ | _)
  · exact (ite_eq_right_iff.mpr fun _ => kept _).symm
  · exact (ite_eq_right_iff.mpr fun _ => kept _).symm
  · show (t.modify fd fun x => { x with state := .shuttingDown }).get? d = _
    rw [ConnectionTable.get?_modify]
    rfl
  · show (t.modify fd fun x => { x with state := .closing }).get? d = _
    rw [ConnectionTable.get?_modify]
    rfl

/-- What a receive does to the table it does to the connection of its descriptor. -/
theorem get?_received (hr : c.tag.opcode? = some .receive) (reads : Reads ring c outcome payload)
    (same : SameContents ring l.ring) (d : Descriptor) :
    ((plan c (named ring c) l).foldl (Deed.onTable l.peerOf) l.connections).get? d =
      if d = c.tag.descriptor.toInt32
      then (l.connections.get? d).map (·.receive outcome c.hasMore payload)
      else l.connections.get? d := by
  obtain ⟨message, e⟩ := plan_receive_eq hr reads same
  have recycled : ∀ t, ((named ring c).map Deed.recycle).toList.foldl (Deed.onTable l.peerOf) t =
      t := by
    intro t
    cases named ring c <;> rfl
  have blamed : ∀ t, (if outcome.faulty then [Deed.blame] else []).foldl (Deed.onTable l.peerOf) t =
      t := by
    intro t
    split <;> rfl
  rw [e, List.foldl_append, List.foldl_append, List.foldl_append, recycled, blamed,
    get?_onTable_reaction]
  by_cases hd : d = c.tag.descriptor.toInt32
  · subst hd
    rw [if_pos rfl, if_pos rfl]
    rcases hx : l.connections.get? c.tag.descriptor.toInt32 with _ | x
    · split <;> simp [onTable_passing, ConnectionTable.get?_modify, hx]
    · have opened : l.connections.isOpen c.tag.descriptor.toInt32 = x.isOpen := by
        rw [ConnectionTable.isOpen, hx, Option.any_some]
      have reacts : reactionOn l.connections c.tag.descriptor.toInt32 outcome c.hasMore =
          reaction? outcome c.hasMore x.state := by
        rw [reactionOn, ConnectionTable.state?, hx, Option.map_some, Option.bind_some]
      rw [reacts]
      by_cases welcome : Welcome c outcome l
      · have counted : outcome = .delivered ∧ x.isOpen = true := ⟨welcome.1, opened ▸ welcome.2⟩
        simp only [Connection.receive, if_pos counted, if_pos welcome, onTable_passing,
          ConnectionTable.get?_modify, if_true, hx, Option.map_some]
        rfl
      · have uncounted : ¬ (outcome = .delivered ∧ x.isOpen = true) := fun h =>
          welcome ⟨h.1, opened.trans h.2⟩
        simp only [Connection.receive, if_neg uncounted, if_neg welcome, List.foldl_nil, hx,
          Option.map_some]
  · rw [if_neg hd, if_neg hd]
    split
    · rw [onTable_passing, ConnectionTable.get?_modify, if_neg hd]
    · rfl

theorem call?_received (hr : c.tag.opcode? = some .receive) (reads : Reads ring c outcome payload)
    (same : SameContents ring l.ring) : (plan c (named ring c) l).filterMap Deed.call? =
      if Welcome c outcome l then [(c.tag.descriptor.toInt32, payload)] else [] := by
  obtain ⟨message, e⟩ := plan_receive_eq hr reads same
  have recycled : ((named ring c).map Deed.recycle).toList.filterMap Deed.call? = [] := by
    cases named ring c <;> rfl
  have blamed : (if outcome.faulty then [Deed.blame] else []).filterMap Deed.call? = [] := by
    split <;> rfl
  have reacted : ∀ r : Option Reaction,
      (r.map (Deed.ofReaction c.tag.descriptor.toInt32)).toList.filterMap Deed.call? = [] := by
    rintro (_ | _ | _ | _) <;> rfl
  rw [e, List.filterMap_append, List.filterMap_append, List.filterMap_append, recycled, blamed,
    reacted, List.append_nil, List.append_nil, List.append_nil]
  split
  · exact call?_passing message
  · rfl

theorem submissionsOf_received (hr : c.tag.opcode? = some .receive)
    (reads : Reads ring c outcome payload) (same : SameContents ring l.ring) (handler : Handler σ)
    (group : UInt16) (s : σ) : submissionsOf handler group s (plan c (named ring c) l) =
      (if Welcome c outcome l then
        (handler.respond s c.tag.descriptor.toInt32 payload).1.submissions c.tag.descriptor.toInt32
        else []) ++
      ((reactionOn l.connections c.tag.descriptor.toInt32 outcome c.hasMore).map
        (·.submission c.tag.descriptor.toInt32 group)).toList := by
  obtain ⟨message, e⟩ := plan_receive_eq hr reads same
  have recycled : ∀ t, submissionsOf handler group t ((named ring c).map Deed.recycle).toList =
      [] := by
    intro t
    cases named ring c <;> rfl
  have blamed : ∀ t, submissionsOf handler group t
      (if outcome.faulty then [Deed.blame] else []) = [] := by
    intro t
    split <;> rfl
  have reacted : ∀ t (r : Option Reaction), submissionsOf handler group t
      (r.map (Deed.ofReaction c.tag.descriptor.toInt32)).toList =
        (r.map (·.submission c.tag.descriptor.toInt32 group)).toList := by
    rintro t (_ | _ | _ | _) <;> rfl
  rw [e, submissionsOf_append, submissionsOf_append, submissionsOf_append, recycled, blamed,
    reacted, List.append_nil, List.nil_append]
  split
  · rw [submissionsOf_passing]
  · rfl

end

/-! ## Counters of a receive -/

theorem count_message (n : Counters) (call : Call) (reply : Reply) (line : Line) (fate : Fate) :
    let m := (Entry.message call reply line fate).count n
    m.messages = n.messages + 1 ∧ m.bytesIn = n.bytesIn + .ofNat call.2.length ∧
      m.faults = n.faults ∧ m.receiveStops = n.receiveStops ∧
      m.receiveRearms = n.receiveRearms := by
  cases line <;> cases fate <;> exact ⟨rfl, rfl, rfl, rfl, rfl⟩

theorem foldl_ended (t : ConnectionTable) (fd : Descriptor) (armed : Bool) (outcome : Received)
    (n : Counters) : (ended t fd armed outcome).foldl Entry.count n = { n with
      faults := n.faults + if outcome.faulty then 1 else 0
      receiveStops := n.receiveStops + if outcome = .noBuffers then 1 else 0
      receiveRearms := n.receiveRearms +
        if reactionOn t fd outcome armed = some .rearm then 1 else 0 } := by
  unfold reactionOn ended rearmed ConnectionTable.isOpen ConnectionTable.state?
  rcases t.get? fd with _ | ⟨peer, state, messages, bytes⟩
  · cases outcome <;> cases armed <;>
      simp [Received.faulty, Entry.count]
  · cases state <;> cases outcome <;> cases armed <;>
      simp [Received.faulty, Entry.count, reaction?, Connection.isOpen]

/-- What is counted about a receive goes by its meaning. -/
theorem counts_received [BufferSource ρ] {ring : ρ} {c : Completion} {outcome : Received}
    {payload : Bytes} {l : Watched β ρ σ} (hr : c.tag.opcode? = some .receive)
    (reads : Reads ring c outcome payload) (same : SameContents ring l.ring) (line : Line)
    (fate : Fate) (n : Counters) :
    let m := (booking c (named ring c) l line fate).foldl Entry.count n
    m.messages = n.messages + (if Welcome c outcome l then 1 else 0) ∧
    m.bytesIn = n.bytesIn + (if Welcome c outcome l then .ofNat payload.length else 0) ∧
    m.faults = n.faults + (if outcome.faulty then 1 else 0) ∧
    m.receiveStops = n.receiveStops + (if outcome = .noBuffers then 1 else 0) ∧
    m.receiveRearms = n.receiveRearms +
      if reactionOn l.connections c.tag.descriptor.toInt32 outcome c.hasMore = some .rearm then 1
      else 0 := by
  have entries : booking c (named ring c) l line fate =
      (if Welcome c outcome l then [.message (c.tag.descriptor.toInt32, payload)
        (l.handler.respond l.handlerState c.tag.descriptor.toInt32 payload).1 line fate] else []) ++
      ended l.connections c.tag.descriptor.toInt32 c.hasMore outcome := by
    unfold booking heardEntry
    rw [hr, reads.judge_eq same]
  simp only [entries, List.foldl_append, foldl_ended]
  split
  · obtain ⟨messages, bytesIn, faults, stops, rearms⟩ := count_message n
      (c.tag.descriptor.toInt32, payload)
      (l.handler.respond l.handlerState c.tag.descriptor.toInt32 payload).1 line fate
    simp only [List.foldl_cons, List.foldl_nil, messages, bytesIn, faults, stops, rearms, true_and]
  · simp

/-! ## Runs -/

section

variable [Backend β] [BufferSource ρ] [KernelSide ρ]

/-- A run during which the kernel picks and fills buffers of the connection group. -/
inductive Tended (start : Watched β ρ σ) : List Occurrence → Watched β ρ σ → Prop
  | start : Tended start [] start
  | step {h : List Occurrence} {l m : Watched β ρ σ} {o : Occurrence} :
    Tended start h l → Takes l o m → Tended start (h ++ [o]) m
  | idle {h : List Occurrence} {l m : Watched β ρ σ} :
    Tended start h l → Idle l m → KernelSide.Works l.ring m.ring → Tended start h m

variable {start l m : Watched β ρ σ} {h : List Occurrence} {c : Completion} {outcome : Received}
  {payload : Bytes}

theorem Tended.reached (ht : Tended start h l) : Reached start h l := by
  induction ht with
  | start => exact .start
  | step _ taken ih => exact ih.step taken
  | idle _ hi _ ih => exact ih.idle hi

variable [LawfulBuffers ρ] [ReadableBuffers ρ]

omit [Backend β] in
/-- A buffer that is taken goes back, and one that cannot be taken changes nothing. -/
theorem atRest_settled {ring : ρ} (rest : AtRest ring) (c : Completion) :
    AtRest (settled c ring) := by
  unfold settled grasp
  by_cases hr : c.tag.opcode? = some .receive
  · rw [if_pos hr]
    cases c.bufferId? with
    | none => exact rest
    | some id =>
      simp only []
      rcases taken : BufferSource.take id c.result.toInt.toNat ring with ⟨e | b, after⟩
      · cases ReadableBuffers.refused taken
        exact rest
      · exact LawfulBuffers.recycle rest taken
  · rw [if_neg hr]
    exact rest

theorem Tended.atRest (ht : Tended start h l) (rest : AtRest start.ring) : AtRest l.ring := by
  induction ht with
  | start => exact rest
  | step _ taken ih =>
    rw [taken.apart.ring]
    rename_i o _
    cases o.completion with
    | none => exact ih
    | some c => exact atRest_settled ih c
  | idle _ _ works ih => exact LawfulBuffers.works ih works

omit [KernelSide ρ] [LawfulBuffers ρ] in
/-- The buffer that a receive names can be taken from a group at rest. -/
theorem grasp_named {ring : ρ} (hr : c.tag.opcode? = some .receive) (rest : AtRest ring)
    (inside : ∀ id, c.bufferId? = some id → id.toNat < entries ring) :
    (grasp c ring).1 = .ok (named ring c) ∧ SameContents ring (grasp c ring).2 ∧
      SameContents ring (settled c ring) := by
  have unchanged := SameContents.refl ring
  unfold settled grasp named
  rw [if_pos hr]
  cases hid : c.bufferId? with
  | none => exact ⟨rfl, unchanged, unchanged⟩
  | some id =>
    obtain ⟨b, hb⟩ := rest id c.result.toInt.toNat (inside id hid)
    rcases taken : BufferSource.take id c.result.toInt.toNat ring with ⟨x, after⟩
    rw [taken] at hb
    cases hb
    obtain ⟨rfl, same⟩ := ReadableBuffers.take taken
    simp only [taken]
    exact ⟨rfl, same, ReadableBuffers.recycle (inside id hid) taken⟩

/-- What is done about a receive with this meaning. -/
structure Follows (c : Completion) (outcome : Received) (payload : Bytes) (l m : Watched β ρ σ) :
    Prop where
  calls : m.handlerState.2 = l.handlerState.2 ++
    if Welcome c outcome l then [(c.tag.descriptor.toInt32, payload)] else []
  connections : ∀ d, m.connections.get? d =
    if d = c.tag.descriptor.toInt32
    then (l.connections.get? d).map (·.receive outcome c.hasMore payload)
    else l.connections.get? d
  /-- Besides what is sent from slots, a fixed reply to the message and the reaction. -/
  submitted : ∃ ps, m.backend.pushed = l.backend.pushed ++ ps ∧
    ps.filter (·.slot?.isNone) =
      (if Welcome c outcome l then
        (l.handler.respond l.handlerState c.tag.descriptor.toInt32 payload).1.submissions
          c.tag.descriptor.toInt32
        else []) ++
      ((reactionOn l.connections c.tag.descriptor.toInt32 outcome c.hasMore).map
        (·.submission c.tag.descriptor.toInt32 (group l.ring))).toList
  messages : m.counters.messages = l.counters.messages + if Welcome c outcome l then 1 else 0
  bytesIn : m.counters.bytesIn =
    l.counters.bytesIn + if Welcome c outcome l then .ofNat payload.length else 0
  faults : m.counters.faults = l.counters.faults + if outcome.faulty then 1 else 0
  receiveStops : m.counters.receiveStops =
    l.counters.receiveStops + if outcome = .noBuffers then 1 else 0
  receiveRearms : m.counters.receiveRearms = l.counters.receiveRearms +
    if reactionOn l.connections c.tag.descriptor.toInt32 outcome c.hasMore = some .rearm then 1
    else 0
  contents : SameContents l.ring m.ring

omit [KernelSide ρ] [LawfulBuffers ρ] in
/-- A receive whose buffer can be taken is dealt with by its meaning. -/
theorem dispatch_follows {flying : List UInt16} (hr : c.tag.opcode? = some .receive)
    (hl : Recording l) (lends : l.pool.Lends flying) (rest : AtRest l.ring)
    (inside : ∀ id, c.bufferId? = some id → id.toNat < entries l.ring)
    (accepted : (exec (dispatch c) l).2.backend.refusals = l.backend.refusals)
    (reads : Reads l.ring c outcome payload) :
    (exec (dispatch c) l).1 = .ok () ∧ Follows c outcome payload l (exec (dispatch c) l).2 := by
  obtain ⟨taken, same, settled⟩ := grasp_named hr rest inside
  have apart := dispatch_apart c l
  rcases he : exec (dispatch c) l with ⟨x, m⟩
  rw [he] at accepted apart
  have other : c.tag.opcode? ≠ some .writeFixed := by simp [hr]
  obtain ⟨rfl, ps, cs, done⟩ := dispatch_done other hl lends accepted taken he
  obtain ⟨buffer, line, fate, taken', booked⟩ := dispatch_booked he
  rw [taken] at taken'
  cases taken'
  have counters := booked.counters
  obtain ⟨messages, bytesIn, faults, stops, rearms⟩ := counts_received
    (l := { l with ring := (grasp c l.ring).2 }) hr reads same line fate l.counters
  have submits := done.performs.submits
  have journal : m.backend.pushed = l.backend.pushed ++ ps := done.added.journal
  refine ⟨rfl, ?_, fun d => ?_, ⟨ps, journal, ?_⟩, ?_, ?_, ?_, ?_, ?_, ?_⟩
  · rw [done.added.calls, done.calls, call?_received hr reads same]
  · rw [done.performs.connections]
    exact get?_received (l := { l with ring := (grasp c l.ring).2 }) hr reads same d
  · have pushed := submits.pushed
    rw [journal, List.filter_append, submissionsOf_received hr reads same] at pushed
    rw [← same.group]
    exact List.append_cancel_left pushed
  · rw [counters]
    exact messages
  · rw [counters]
    exact bytesIn
  · rw [counters]
    exact faults
  · rw [counters]
    exact stops
  · rw [counters]
    exact rearms
  · rw [apart.ring]
    exact settled

/-- On a new loop, in every state that a run leads to, and for every completion of a receive that
names a buffer of the group, if any: it means one thing, and as long as all pushes are accepted,
the dispatch succeeds and goes by that. -/
theorem receives_follow_table {backend : β} {pool : SlotPool} {rings : List ρ}
    {handler : Handler σ} {state : σ} {settings : Settings} {granted entrySize slots : Nat}
    (hp : SlotPool.new granted entrySize slots = .ok pool) (rest : ∀ r ∈ rings, AtRest r)
    (hn : EventLoop.new (.of backend) pool rings handler.recording (state, []) settings = .ok start)
    (ht : Tended start h l) (hr : c.tag.opcode? = some .receive)
    (inside : ∀ id, c.bufferId? = some id → id.toNat < entries l.ring)
    (accepted : (exec (dispatch c) l).2.backend.refusals = 0) :
    (exec (dispatch c) l).1 = .ok () ∧ ∃ outcome payload,
      (∀ o p, Reads l.ring c o p ↔ o = outcome ∧ p = payload) ∧
      Follows c outcome payload l (exec (dispatch c) l).2 := by
  obtain ⟨recording, none_refused⟩ := recording_of_new hn
  obtain ⟨recorded, before, owned⟩ := ht.reached.unrefused recording (owned_of_new hp hn)
    (Reached.start.step (.dispatch c)) (accepted.trans none_refused.symm)
  have atRest := ht.atRest (rest _ (ring_mem_of_new hn))
  obtain ⟨outcome, payload, reads⟩ := exists_reads l.ring c
  obtain ⟨ok, follows⟩ := dispatch_follows hr recorded owned.lends atRest inside
    (by rw [accepted, before, none_refused]) reads
  refine ⟨ok, outcome, payload, fun o p => ⟨fun other => ?_, ?_⟩, follows⟩
  · exact other.unique reads
  · rintro ⟨rfl, rfl⟩
    exact reads

end

/-- The kernel has received two bytes for descriptor 5, and the stream has ended. -/
def lastWords : Completion × BufferQueue :=
  (KernelSide.receive 5 [0x68, 0x69] false false (BufferQueue.new 0 4 64)).get rfl

theorem works_lastWords : KernelSide.Works (BufferQueue.new 0 4 64) lastWords.2 := by
  have received : KernelSide.receive 5 [0x68, 0x69] false false (BufferQueue.new 0 4 64) =
    some lastWords := rfl
  exact .of_receive received

/-- Descriptor 5 has been accepted, and the two bytes are there. -/
def beforeWords : Watched Recorder BufferQueue Unit :=
  { (exec (dispatch (.accepted 3 5 true)) echoing).2 with ring := lastWords.2 }

/-- The message is handed on, and the stream is armed again. -/
theorem receives_follow_table_after_words : ∃ h, Tended echoing h beforeWords ∧
    Reads beforeWords.ring lastWords.1 .delivered [0x68, 0x69] ∧
    Follows lastWords.1 .delivered [0x68, 0x69] beforeWords
      (exec (dispatch lastWords.1) beforeWords).2 ∧
    (exec (dispatch lastWords.1) beforeWords).2.handlerState.2 = [(5, [0x68, 0x69])] ∧
    (exec (dispatch lastWords.1) beforeWords).2.counters.receiveRearms = 1 := by
  have accepted := (Tended.start : Tended echoing [] echoing).step (.dispatch (.accepted 3 5 true))
  have ring : (exec (dispatch (.accepted 3 5 true)) echoing).2.ring = BufferQueue.new 0 4 64 :=
    (dispatch_apart _ _).ring
  have works : KernelSide.Works (exec (dispatch (.accepted 3 5 true)) echoing).2.ring
      lastWords.2 := by
    rw [ring]
    exact works_lastWords
  have tended : Tended echoing _ beforeWords := accepted.idle ⟨rfl, rfl, rfl, rfl, rfl, rfl⟩ works
  obtain ⟨-, outcome, payload, reads, follows⟩ := receives_follow_table new_twoSlots atRest_new
    new_echoing tended (c := lastWords.1) (by decide) (inside_of_all (by decide +kernel))
    (by decide +kernel)
  have brought : Reads beforeWords.ring lastWords.1 .delivered [0x68, 0x69] :=
    .message ⟨by decide, by decide, 0, by decide, by decide +kernel⟩ (by decide)
  obtain ⟨rfl, rfl⟩ := (reads _ _).mp brought
  exact ⟨_, tended, brought, follows, by decide +kernel, by decide +kernel⟩

end EventLoop

end RingServer
