import RingServer.Proofs.BufferSource
import RingServer.Proofs.Loop.Apart
import RingServer.Proofs.Loop.Effects
import RingServer.Proofs.Loop.Tenure

/-!
Receive streams and the connections that they serve. A stream is armed by a push and ends with the
dispatch of a completion without more to follow (`armed`). A kernel that reports streams only while
they are armed, and each end once (`Reports`), finds one armed stream for every connection that is
open or shutting down, and none for any other descriptor, after every dispatch of a run
(`streams_stay_armed`). What one dispatch does to both sides of this is read off its plan
(`plan_balanced`).
-/

namespace RingServer

/-- The completion carries the tag of an operation on a descriptor. -/
def Completion.answers (op : Opcode) (fd : Descriptor) (c : Completion) : Bool :=
  c.tag.opcode? = some op ∧ c.tag.descriptor.toInt32 = fd

namespace ConnectionTable

def state? (t : ConnectionTable) (fd : Descriptor) : Option ConnectionState :=
  (t.get? fd).map (·.state)

theorem isOpen_eq (t : ConnectionTable) (fd : Descriptor) :
    t.isOpen fd = decide (t.state? fd = some .opened) := by
  rw [isOpen, state?]
  cases t.get? fd <;> simp [Connection.isOpen]

end ConnectionTable

namespace EventLoop

open Text (Bytes)

/-- How many streams are armed: each from its push until its last completion is dispatched. -/
def armed (op : Opcode) (fd : Descriptor) : List Occurrence → Nat :=
  List.foldl (fun n o =>
    n - (if o.completion.any fun c => c.answers op fd && !c.hasMore then 1 else 0) +
      (o.pushed.filterMap (·.control?)).count (op, fd)) 0

/-- How many closes of a descriptor were pushed. -/
def closings (fd : Descriptor) (h : List Occurrence) : Nat :=
  ((h.flatMap (·.pushed)).filterMap (·.control?)).count (.close, fd)

variable {β ρ σ : Type}

/-- What a kernel may report to a connection: a receive for a stream that is armed, which it does
not keep armed at the end of what the peer sends, with a buffer of the group; a descriptor that is
not tracked; the completion of a close or a fixed write that was pushed, once. -/
structure Proper [BufferSource ρ] (h : List Occurrence) (l : Watched β ρ σ) (c : Completion) :
    Prop where
  receive : c.tag.opcode? = some .receive → 0 < armed .receive c.tag.descriptor.toInt32 h
  unended : c.tag.opcode? = some .receive → c.hasMore = true → c.result ≠ 0 ∧
    ∀ id b r e, c.bufferId? = some id →
      BufferSource.take id c.result.toInt.toNat l.ring = (.ok b, r) →
      Envelope.parse? (BufferSource.data r b) = some e → e.payload ≠ []
  buffer : c.tag.opcode? = some .receive → ∀ id, c.bufferId? = some id →
    id.toNat < BufferSource.entries l.ring
  untracked : c.tag.opcode? = some .accept → ¬ c.result < 0 →
    l.connections.get? c.result = none
  close : c.tag.opcode? = some .close →
    h.countP (·.closes c.tag.descriptor.toInt32) < closings c.tag.descriptor.toInt32 h
  written : c.tag.opcode? = some .writeFixed →
    ∃ i : UInt16, c.tag.descriptor = i.toUInt32 ∧ completions i h < pushes i h

/-- What a kernel may report at all: an accept also belongs to a stream that is armed. -/
structure Reports [BufferSource ρ] (h : List Occurrence) (l : Watched β ρ σ) (c : Completion) :
    Prop extends Proper h l c where
  accept : c.tag.opcode? = some .accept → 0 < armed .accept c.tag.descriptor.toInt32 h

section

variable [BufferSource ρ] {h : List Occurrence} {l : Watched β ρ σ} {c : Completion}

theorem Reports.of_accept (ha : c.tag.opcode? = some .accept)
    (armed : 0 < armed .accept c.tag.descriptor.toInt32 h)
    (untracked : ¬ c.result < 0 → l.connections.get? c.result = none) : Reports h l c :=
  ⟨⟨by simp [ha], by simp [ha], by simp [ha], fun _ => untracked, by simp [ha], by simp [ha]⟩,
    fun _ => armed⟩

/-- The end of a stream that brings no buffer. -/
theorem Reports.of_receive (hr : c.tag.opcode? = some .receive)
    (armed : 0 < armed .receive c.tag.descriptor.toInt32 h) (hm : c.hasMore = false)
    (hb : c.bufferId? = none) : Reports h l c :=
  ⟨⟨fun _ => armed, by simp [hm], by simp [hb], by simp [hr], by simp [hr], by simp [hr]⟩,
    by simp [hr]⟩

end

/-! ## States -/

/-- What becomes of the state of a connection. -/
def Deed.onState (d : Descriptor) (s : Option ConnectionState) : Deed → Option ConnectionState
  | track fd => if fd = d then some .opened else s
  | forget fd => if fd = d then none else s
  | shutDown fd => if fd = d then s.map fun _ => .shuttingDown else s
  | close fd => if fd = d then s.map fun _ => .closing else s
  | tally _ _ | armAccept _ | armReceive _ | log _ | answer _ _ | recycle _ | blame => s

theorem Deed.state?_onTable (peerOf : Descriptor → Option SocketAddress) (t : ConnectionTable)
    (d : Descriptor) (deed : Deed) :
    (deed.onTable peerOf t).state? d = deed.onState d (t.state? d) := by
  unfold ConnectionTable.state?
  cases deed with
  | track fd =>
    rw [Deed.onTable, ConnectionTable.get?_cons, Deed.onState, ConnectionTable.get?_erase]
    by_cases e : d = fd
    · simp [e, Connection.fresh]
    · simp [e, Ne.symm e]
  | forget fd =>
    rw [Deed.onTable, ConnectionTable.get?_erase, Deed.onState]
    by_cases e : d = fd
    · simp [e]
    · simp [e, Ne.symm e]
  | tally fd n =>
    rw [Deed.onTable, ConnectionTable.get?_modify, Deed.onState]
    cases t.get? d <;> by_cases e : d = fd <;> simp [e, Connection.count]
  | shutDown fd | close fd =>
    rw [Deed.onTable, ConnectionTable.get?_modify, Deed.onState]
    by_cases e : d = fd
    · cases t.get? d <;> simp [e]
    · simp [e, Ne.symm e]
  | armAccept _ | armReceive _ | log _ | answer _ _ | recycle _ | blame => rfl

theorem state?_foldl (peerOf : Descriptor → Option SocketAddress) (ds : List Deed)
    (t : ConnectionTable) (d : Descriptor) :
    (ds.foldl (Deed.onTable peerOf) t).state? d = ds.foldl (Deed.onState d) (t.state? d) := by
  induction ds generalizing t with
  | nil => rfl
  | cons deed ds ih => rw [List.foldl_cons, List.foldl_cons, ih, Deed.state?_onTable]

/-! ## Plans -/

/-- The deed steers nothing and leaves all states as they are. -/
def Deed.inert : Deed → Bool
  | tally _ _ | log _ | answer _ _ | recycle _ | blame => true
  | track _ | forget _ | armAccept _ | armReceive _ | shutDown _ | close _ => false

theorem onState_of_inert {ds : List Deed} (h : ∀ deed ∈ ds, deed.inert = true) (d : Descriptor)
    (s : Option ConnectionState) : ds.foldl (Deed.onState d) s = s := by
  induction ds with
  | nil => rfl
  | cons deed ds ih =>
    have same : deed.onState d s = s := by
      have inert := h deed List.mem_cons_self
      cases deed <;> first | rfl | cases inert
    rw [List.foldl_cons, same]
    exact ih fun deed hd => h deed (List.mem_cons_of_mem _ hd)

theorem control?_of_inert {ds : List Deed} (h : ∀ deed ∈ ds, deed.inert = true) :
    ds.filterMap Deed.control? = [] := by
  rw [List.filterMap_eq_nil_iff]
  intro deed hd
  have inert := h deed hd
  cases deed <;> first | rfl | cases inert

theorem inert_access (l : EventLoop β ρ σ) (message : String) :
    ∀ deed ∈ access l message, deed.inert = true := by
  unfold access
  split <;> simp [Deed.inert]

theorem inert_hearing (fd : Descriptor) (l : EventLoop β ρ σ) (payload : Bytes)
    (buffer : Option ReceivedBuffer) : ∀ deed ∈ hearing fd l payload buffer, deed.inert = true := by
  intro deed hd
  unfold hearing at hd
  split at hd
  · cases hd
  split at hd
  · cases hd
  · rw [List.cons_append, List.mem_cons, List.mem_append, List.mem_singleton] at hd
    rcases hd with rfl | hd | rfl
    · rfl
    · exact inert_access _ _ deed hd
    · rfl

theorem inert_heard [BufferSource ρ] (fd : Descriptor) (l : EventLoop β ρ σ) (result : Int32)
    (buffer : Option ReceivedBuffer) : ∀ deed ∈ heard fd l result buffer, deed.inert = true := by
  unfold heard
  split
  · exact inert_hearing _ _ _ _
  · simp

theorem inert_recycle (buffer : Option ReceivedBuffer) :
    ∀ deed ∈ (buffer.map Deed.recycle).toList, deed.inert = true := by
  cases buffer <;> simp [Deed.inert]

/-- What follows from a receive for a connection that is not closing: while the stream stays armed
it is at most shut down, and when the stream has ended it is armed again, or the descriptor is
closed. -/
theorem aftermath_cases {fd : Descriptor} {t : ConnectionTable} {s : ConnectionState}
    {more : Bool} {outcome : Received} (hs : t.state? fd = some s) (hc : s ≠ .closing)
    (hm : more = true → outcome ≠ .ended) :
    (more = true ∧ (aftermath fd t more outcome = [] ∨ aftermath fd t more outcome = [.blame] ∨
      aftermath fd t more outcome = [.blame, .shutDown fd])) ∨
    (more = false ∧ (aftermath fd t more outcome = [.armReceive fd] ∨
      aftermath fd t more outcome = [.close fd] ∨
      aftermath fd t more outcome = [.blame, .close fd])) := by
  have closes : closing fd t = [.close fd] := by
    obtain ⟨x, hx, rfl⟩ := Option.map_eq_some_iff.mp hs
    rw [closing, hx, if_pos (by simpa using hc)]
  have rearms : rearming fd t = [.armReceive fd] ∨ rearming fd t = [.close fd] := by
    unfold rearming
    split
    · exact Or.inl rfl
    · exact Or.inr closes
  cases more with
  | true =>
    refine Or.inl ⟨rfl, ?_⟩
    cases outcome with
    | delivered | noBuffers | failed _ => exact Or.inl rfl
    | ended => exact absurd rfl (hm rfl)
    | malformed cause =>
      right
      rw [aftermath, if_pos rfl]
      split
      · exact Or.inr rfl
      · exact Or.inl rfl
  | false =>
    refine Or.inr ⟨rfl, ?_⟩
    cases outcome with
    | delivered | noBuffers => exact rearms.imp_right Or.inl
    | ended | failed _ => exact Or.inr (Or.inl closes)
    | malformed cause => exact Or.inr (Or.inr (congrArg (Deed.blame :: ·) closes))

/-! ## Balance -/

/-- How many receive streams a descriptor has by its state. -/
def streams : Option ConnectionState → Nat
  | some .opened | some .shuttingDown => 1
  | some .closing | none => 0

/-- How many closes are under way. -/
def closesUnderWay : Option ConnectionState → Nat
  | some .closing => 1
  | some .opened | some .shuttingDown | none => 0

/-- What is done about a completion changes the state of a descriptor as it changes the streams and
closes for it, and leaves no stream armed where it closes. -/
structure Balanced (c : Completion) (ds : List Deed) (d : Descriptor)
    (before : Option ConnectionState) : Prop where
  receive : streams before - (if c.answers .receive d && !c.hasMore then 1 else 0) +
    (ds.filterMap Deed.control?).count (.receive, d) = streams (ds.foldl (Deed.onState d) before)
  close : closesUnderWay before + (ds.filterMap Deed.control?).count (.close, d) =
    closesUnderWay (ds.foldl (Deed.onState d) before) + if c.answers .close d then 1 else 0
  deaf : (.close, d) ∈ ds.filterMap Deed.control? →
    streams (ds.foldl (Deed.onState d) before) = 0
  /-- An accept that has ended is armed again, and no other. -/
  accept : (ds.filterMap Deed.control?).count (.accept, d) =
    if c.answers .accept d && !c.hasMore then 1 else 0

variable {c : Completion} {d : Descriptor} {s : Option ConnectionState}

theorem answers_iff {op : Opcode} :
    c.answers op d = true ↔ c.tag.opcode? = some op ∧ c.tag.descriptor.toInt32 = d := by
  rw [Completion.answers, decide_eq_true_eq]

theorem answers_eq_false {op : Opcode} (h : c.tag.opcode? ≠ some op) : c.answers op d = false := by
  rw [Bool.eq_false_iff, ne_eq, answers_iff]
  exact fun e => h e.1

theorem balanced_of_inert {ds : List Deed} (h : ∀ deed ∈ ds, deed.inert = true)
    (hr : c.tag.opcode? ≠ some .receive) (hc : c.tag.opcode? ≠ some .close)
    (ha : c.tag.opcode? ≠ some .accept) : Balanced c ds d s := by
  constructor
  · rw [control?_of_inert h, onState_of_inert h, answers_eq_false hr]
    rfl
  · rw [control?_of_inert h, onState_of_inert h, answers_eq_false hc]
    rfl
  · rw [control?_of_inert h]
    exact fun hd => absurd hd List.not_mem_nil
  · rw [control?_of_inert h, answers_eq_false ha]
    rfl

theorem control?_plan_accept [BufferSource ρ] {buffer : Option ReceivedBuffer}
    {l : EventLoop β ρ σ} (ha : c.tag.opcode? = some .accept) :
    (plan c buffer l).filterMap Deed.control? =
      (if c.result < 0 then [] else [(.receive, c.result)]) ++
        if c.hasMore then [] else [(.accept, c.tag.descriptor.toInt32)] := by
  unfold plan
  rw [ha]
  have logs := control?_of_inert (inert_access l (acceptedLine c.result (l.peerOf c.result)))
  by_cases hn : c.result < 0 <;> cases c.hasMore <;>
    simp [hn, logs, List.filterMap_cons, Deed.control?]

theorem onState_plan_accept [BufferSource ρ] {buffer : Option ReceivedBuffer}
    {l : EventLoop β ρ σ} (ha : c.tag.opcode? = some .accept) :
    (plan c buffer l).foldl (Deed.onState d) s =
      if c.result < 0 then s else if c.result = d then some .opened else s := by
  unfold plan
  rw [ha]
  have logs := onState_of_inert (inert_access l (acceptedLine c.result (l.peerOf c.result))) d
  by_cases hn : c.result < 0 <;> cases c.hasMore <;> simp [hn, logs, Deed.onState]

theorem balanced_accept [BufferSource ρ] {buffer : Option ReceivedBuffer} {l : EventLoop β ρ σ}
    (ha : c.tag.opcode? = some .accept)
    (hu : ¬ c.result < 0 → c.result = d → s = none) : Balanced c (plan c buffer l) d s := by
  have receives : c.answers .receive d = false := answers_eq_false (by simp [ha])
  have closes : c.answers .close d = false := answers_eq_false (by simp [ha])
  have accepts : c.answers .accept d = decide (c.tag.descriptor.toInt32 = d) := by
    simp [Completion.answers, ha]
  constructor
  case accept =>
    rw [control?_plan_accept ha, accepts]
    by_cases hn : c.result < 0 <;> cases c.hasMore <;>
      by_cases hd : c.tag.descriptor.toInt32 = d <;> simp [hn, hd]
  all_goals
    rw [control?_plan_accept ha, onState_plan_accept ha]
    by_cases hn : c.result < 0
    · simp only [hn, if_true]
      cases c.hasMore <;> simp [receives, closes]
    · simp only [hn, if_false]
      by_cases hd : c.result = d
      · subst hd
        rw [hu hn rfl]
        cases c.hasMore <;> simp [receives, closes, streams, closesUnderWay]
      · cases c.hasMore <;> simp [hd, receives, closes]

theorem balanced_receive [BufferSource ρ] {buffer : Option ReceivedBuffer} {l : EventLoop β ρ σ}
    {x : ConnectionState} (hr : c.tag.opcode? = some .receive)
    (hs : l.connections.state? c.tag.descriptor.toInt32 = some x) (hx : x ≠ .closing)
    (hm : c.hasMore = true → (judge l.ring c.result buffer).1 ≠ .ended) :
    Balanced c (plan c buffer l) d (l.connections.state? d) := by
  have accepts : c.answers .accept d = false := answers_eq_false (by simp [hr])
  have closes : c.answers .close d = false := answers_eq_false (by simp [hr])
  have receives : c.answers .receive d = true ↔ c.tag.descriptor.toInt32 = d := by
    simp [answers_iff, hr]
  have one : streams (some x) = 1 ∧ closesUnderWay (some x) = 0 := by
    cases x with
    | opened | shuttingDown => exact ⟨rfl, rfl⟩
    | closing => exact absurd rfl hx
  have states : streams (some .shuttingDown) = 1 ∧ closesUnderWay (some .shuttingDown) = 0 ∧
      streams (some .closing) = 0 ∧ closesUnderWay (some .closing) = 1 := ⟨rfl, rfl, rfl, rfl⟩
  have same := inert_heard c.tag.descriptor.toInt32 l c.result buffer
  have back := inert_recycle buffer
  have steers := aftermath_cases hs hx hm
  constructor
  all_goals
    rw [plan_receive hr]
    simp only [List.filterMap_append, List.foldl_append, control?_of_inert same,
      control?_of_inert back, onState_of_inert same, onState_of_inert back, List.nil_append, closes,
      accepts]
    generalize aftermath c.tag.descriptor.toInt32 l.connections c.hasMore
      (judge l.ring c.result buffer).1 = ds at steers
    by_cases hd : c.tag.descriptor.toInt32 = d
    · rw [hd] at hs steers
      have answered := receives.mpr hd
      rcases steers with ⟨hmore, rfl | rfl | rfl⟩ | ⟨hmore, rfl | rfl | rfl⟩ <;>
        simp [hmore, answered, hs, one, states, List.filterMap_cons, Deed.control?, Deed.onState]
    · have unanswered := Bool.eq_false_iff.mpr (mt receives.mp hd)
      rcases steers with ⟨hmore, rfl | rfl | rfl⟩ | ⟨hmore, rfl | rfl | rfl⟩ <;>
        simp [hmore, unanswered, hd, Ne.symm hd, List.filterMap_cons, Deed.control?, Deed.onState]

theorem balanced_close [BufferSource ρ] {buffer : Option ReceivedBuffer} {l : EventLoop β ρ σ}
    (hc : c.tag.opcode? = some .close)
    (hs : c.tag.descriptor.toInt32 = d → s = some .closing) :
    Balanced c (plan c buffer l) d s := by
  have accepts : c.answers .accept d = false := answers_eq_false (by simp [hc])
  have receives : c.answers .receive d = false := answers_eq_false (by simp [hc])
  have closes : c.answers .close d = true ↔ c.tag.descriptor.toInt32 = d := by
    simp [answers_iff, hc]
  -- Beside the row that is forgotten there is at most a line of the access log.
  have forgets : ∃ rest, (∀ deed ∈ rest, deed.inert = true) ∧
      plan c buffer l = .forget c.tag.descriptor.toInt32 :: rest := by
    unfold plan
    rw [hc]
    refine ⟨_, ?_, rfl⟩
    split
    · simp
    · exact inert_access _ _
  obtain ⟨rest, inert, e⟩ := forgets
  constructor
  all_goals
    rw [e]
    simp only [List.filterMap_cons, List.foldl_cons, Deed.control?, Deed.onState,
      control?_of_inert inert, onState_of_inert inert]
    by_cases hd : c.tag.descriptor.toInt32 = d
    · have answered := closes.mpr hd
      simp [hs hd, hd, accepts, receives, answered, streams, closesUnderWay]
    · have unanswered := Bool.eq_false_iff.mpr (mt closes.mp hd)
      simp [hd, accepts, receives, unanswered]

/-! ## Buffers -/

section

variable [BufferSource ρ] {buffer : Option ReceivedBuffer} {ring : ρ}

theorem foldl_onRing {ds : List Deed} (h : ∀ b, Deed.recycle b ∉ ds) (r : ρ) :
    ds.foldl Deed.onRing r = r := by
  induction ds with
  | nil => rfl
  | cons deed ds ih =>
    have same : deed.onRing r = r := by
      cases deed <;> first | rfl | exact absurd List.mem_cons_self (h _)
    rw [List.foldl_cons, same]
    exact ih fun b hb => h b (List.mem_cons_of_mem _ hb)

/-- A dispatch gives back the buffer that it has taken, and touches no other. -/
theorem onRing_plan (c : Completion) (buffer : Option ReceivedBuffer) (l : EventLoop β ρ σ)
    (r : ρ) : (plan c buffer l).foldl Deed.onRing r =
      if c.tag.opcode? = some .receive then buffer.elim r (BufferSource.recycle · r) else r := by
  split
  next hr =>
    have heard_none : ∀ b, Deed.recycle b ∉ heard c.tag.descriptor.toInt32 l c.result buffer := by
      intro b hb
      unfold heard hearing access at hb
      repeat' split at hb
      all_goals simp at hb
    have after_none : ∀ armed outcome b, Deed.recycle b ∉
        aftermath c.tag.descriptor.toInt32 l.connections armed outcome := by
      intro armed outcome b hb
      unfold aftermath rearming closing at hb
      repeat' split at hb
      all_goals simp at hb
    rw [plan_receive hr, List.foldl_append, List.foldl_append, foldl_onRing heard_none,
      foldl_onRing (after_none _ _)]
    cases buffer <;> rfl
  next hr =>
    apply foldl_onRing
    intro b hb
    unfold plan access at hb
    split at hb
    next =>
      repeat' split at hb
      all_goals simp at hb
    next h => exact hr h
    next =>
      rw [List.mem_cons] at hb
      generalize l.connections.get? c.tag.descriptor.toInt32 = x at hb
      cases x <;> cases hl : l.accessLog <;> simp [hl] at hb
    next => cases hb

theorem grasp_some {c : Completion} {b : ReceivedBuffer} (h : (grasp c ring).1 = .ok (some b)) :
    ∃ id, c.bufferId? = some id ∧
      BufferSource.take id c.result.toInt.toNat ring = (.ok b, (grasp c ring).2) := by
  unfold grasp at h ⊢
  split at h
  next hr =>
    rw [if_pos hr]
    rcases hi : c.bufferId? with _ | id
    · rw [hi] at h
      cases h
    · rw [hi] at h
      simp only [] at h
      refine ⟨id, rfl, ?_⟩
      rcases ht : BufferSource.take id c.result.toInt.toNat ring with ⟨e | b', ring'⟩
      · rw [ht] at h
        cases h
      · rw [ht] at h
        cases h
        simp only [ht]
  next => cases h

/-- A buffer of a group at rest can be taken, and brings the group to rest when it goes back. -/
theorem grasp_atRest [KernelSide ρ] [LawfulBuffers ρ] {c : Completion}
    (hr : BufferSource.AtRest ring) (hb : c.tag.opcode? = some .receive → ∀ id,
      c.bufferId? = some id → id.toNat < BufferSource.entries ring) :
    ∃ buffer, (grasp c ring).1 = .ok buffer ∧ BufferSource.AtRest
      (buffer.elim (grasp c ring).2 (BufferSource.recycle · (grasp c ring).2)) := by
  unfold grasp
  split
  next ho =>
    rcases hi : c.bufferId? with _ | id
    · exact ⟨none, rfl, hr⟩
    · obtain ⟨b, hb'⟩ := hr id c.result.toInt.toNat (hb ho id hi)
      rcases ht : BufferSource.take id c.result.toInt.toNat ring with ⟨x, ring'⟩
      rw [ht] at hb'
      cases hb'
      simp only [ht]
      exact ⟨some b, rfl, LawfulBuffers.recycle hr ht⟩
  next => exact ⟨none, rfl, hr⟩

/-- Only an empty result and an empty envelope mean that the peer has ended. -/
theorem judge_ended {result : Int32} (h : (judge ring result buffer).1 = .ended) :
    result = 0 ∨ ∃ b e, buffer = some b ∧
      Envelope.parse? (BufferSource.data ring b) = some e ∧ e.payload = [] := by
  unfold judge at h
  split at h
  · cases h
  split at h
  next hz => exact Or.inl hz
  split at h
  · cases h
  split at h
  · cases h
  split at h
  · cases h
  next b =>
    split at h
    · cases h
    next e he =>
      split at h
      · cases h
      split at h
      next hp => exact Or.inr ⟨b, e, rfl, he, List.isEmpty_iff.mp hp⟩
      · cases h

end

/-! ## Along a run -/

section

variable [BufferSource ρ] {start l m : Watched β ρ σ} {h : List Occurrence} {o : Occurrence}

omit [BufferSource ρ] in
theorem armed_append (op : Opcode) (fd : Descriptor) (h : List Occurrence) (o : Occurrence) :
    armed op fd (h ++ [o]) = armed op fd h -
      (if o.completion.any fun c => c.answers op fd && !c.hasMore then 1 else 0) +
      (o.pushed.filterMap (·.control?)).count (op, fd) := by
  rw [armed, List.foldl_append]
  rfl

omit [BufferSource ρ] in
theorem closings_append (fd : Descriptor) (h : List Occurrence) (o : Occurrence) :
    closings fd (h ++ [o]) = closings fd h +
      (o.pushed.filterMap (·.control?)).count (.close, fd) := by
  simp [closings]

theorem ring_mem_of_new {backend : β} {pool : SlotPool} {rings : List ρ} {handler : Handler σ}
    {state : σ} {settings : Settings} {l : EventLoop β ρ σ}
    (h : EventLoop.new backend pool rings handler state settings = .ok l) : l.ring ∈ rings :=
  (eq_of_new h).1

/-- The streams and closes of a run are those that the states of its connections ask for. -/
structure Streaming (h : List Occurrence) (l : Watched β ρ σ) : Prop where
  receive : ∀ d, armed .receive d h = streams (l.connections.state? d)
  close : ∀ d, closings d h = h.countP (·.closes d) + closesUnderWay (l.connections.state? d)
  atRest : BufferSource.AtRest l.ring
  deaf : ∀ d a o b, h = a ++ o :: b → (.close, d) ∈ o.pushed.filterMap (·.control?) →
    armed .receive d (a ++ [o]) = 0
  tags : ∀ s ∈ l.backend.pushed, ∀ op fd, s.control? = some (op, fd) → s.tag = .onDescriptor fd op

theorem streaming_start (hc : l.connections = .empty) (hp : l.backend.pushed = [])
    (hr : BufferSource.AtRest l.ring) : Streaming [] l := by
  refine ⟨fun d => ?_, fun d => ?_, hr, fun d a o b e => ?_, ?_⟩
  · rw [hc]
    rfl
  · rw [hc]
    rfl
  · cases a <;> cases e
  · rw [hp]
    simp

theorem Streaming.idle (hs : Streaming h l) (hi : Idle l m) (hr : BufferSource.AtRest m.ring) :
    Streaming h m := by
  refine ⟨?_, ?_, hr, hs.deaf, ?_⟩
  · rw [hi.connections]
    exact hs.receive
  · rw [hi.connections]
    exact hs.close
  · rw [hi.pushed]
    exact hs.tags

theorem Streaming.append {ps : List Submission} {cs : List Call} {c : Option Completion}
    (hs : Streaming h l) (added : Adds ps cs l m)
    (tags : ∀ s ∈ ps, ∀ op fd, s.control? = some (op, fd) → s.tag = .onDescriptor fd op)
    (receive : ∀ d, armed .receive d (h ++ [⟨c, l.peerOf, ps, cs⟩]) =
      streams (m.connections.state? d))
    (close : ∀ d, closings d (h ++ [⟨c, l.peerOf, ps, cs⟩]) =
      (h ++ [(⟨c, l.peerOf, ps, cs⟩ : Occurrence)]).countP (·.closes d) +
        closesUnderWay (m.connections.state? d))
    (deaf : ∀ d, (.close, d) ∈ ps.filterMap (·.control?) → streams (m.connections.state? d) = 0)
    (atRest : BufferSource.AtRest m.ring) : Streaming (h ++ [⟨c, l.peerOf, ps, cs⟩]) m := by
  refine ⟨receive, close, atRest, fun d a o b e closes => ?_, fun s hp => ?_⟩
  · rcases append_singleton_eq e with ⟨rfl, rfl, rfl⟩ | ⟨b', -, rfl⟩
    · rw [receive]
      exact deaf d closes
    · exact hs.deaf d a o b' rfl closes
  · rw [added.journal] at hp
    rcases List.mem_append.mp hp with hp | hp
    · exact hs.tags s hp
    · exact tags s hp

/-- A dispatch that does what its plan says keeps streams and states together. -/
theorem Streaming.dispatched {c : Completion} {ds : List Deed} {ps : List Submission}
    {cs : List Call} {k : Watched β ρ σ} [Backend β] (hs : Streaming h l)
    (done : Done ds ps cs k m) (hk : k = { l with ring := k.ring })
    (balanced : ∀ d, Balanced c ds d (l.connections.state? d))
    (atRest : BufferSource.AtRest m.ring) :
    Streaming (h ++ [⟨some c, l.peerOf, ps, cs⟩]) m := by
  have after : ∀ d, m.connections.state? d =
      ds.foldl (Deed.onState d) (l.connections.state? d) := by
    intro d
    have table : k.connections = l.connections := by rw [hk]
    rw [done.performs.connections, state?_foldl, table]
  have closes : ∀ d, Occurrence.closes d ⟨some c, l.peerOf, ps, cs⟩ = c.answers .close d :=
    fun _ => rfl
  refine hs.append (done.added.of_eq ?_ ?_ ?_) done.tags (fun d => ?_) (fun d => ?_)
    (fun d hd => ?_) atRest
  · rw [hk]
  · rw [hk]
  · rw [hk]
  · rw [armed_append, after, hs.receive]
    simp only [Option.any_some, done.controls]
    exact (balanced d).receive
  · rw [closings_append, List.countP_append, List.countP_singleton, closes, after, hs.close]
    simp only [done.controls]
    have kept := (balanced d).close
    omega
  · rw [after]
    rw [done.controls] at hd
    exact (balanced d).deaf hd

theorem state?_of_streams {s : Option ConnectionState} (h : 0 < streams s) :
    ∃ x, s = some x ∧ x ≠ .closing := by
  rcases s with _ | x
  · cases h
  · cases x with
    | opened | shuttingDown => exact ⟨_, rfl, by simp⟩
    | closing => cases h

theorem state?_of_closesUnderWay {s : Option ConnectionState} (h : 0 < closesUnderWay s) :
    s = some .closing := by
  rcases s with _ | x
  · cases h
  · cases x with
    | opened | shuttingDown => cases h
    | closing => rfl

theorem plan_balanced {c : Completion} {buffer : Option ReceivedBuffer} (hs : Streaming h l)
    (hc : Proper h l c) (hw : c.tag.opcode? ≠ some .writeFixed)
    (hg : (grasp c l.ring).1 = .ok buffer) (d : Descriptor) :
    Balanced c (plan c buffer { l with ring := (grasp c l.ring).2 }) d
      (l.connections.state? d) := by
  rcases ho : c.tag.opcode? with _ | op
  · have nothing : plan c buffer { l with ring := (grasp c l.ring).2 } = [] := by
      unfold plan
      rw [ho]
    rw [nothing]
    exact balanced_of_inert (by simp) (by simp [ho]) (by simp [ho]) (by simp [ho])
  cases op with
  | accept =>
    refine balanced_accept ho fun hn hd => ?_
    rw [ConnectionTable.state?, ← hd, hc.untracked ho hn]
    rfl
  | receive =>
    have armed := hc.receive ho
    rw [hs.receive] at armed
    obtain ⟨x, hx, ne⟩ := state?_of_streams armed
    refine balanced_receive (x := x) ho hx ne fun more ended => ?_
    obtain ⟨nonzero, nonempty⟩ := hc.unended ho more
    rcases judge_ended ended with zero | ⟨b, e, rfl, he, empty⟩
    · exact nonzero zero
    · obtain ⟨id, hi, ht⟩ := grasp_some hg
      exact nonempty id b _ e hi ht he empty
  | close =>
    refine balanced_close ho fun hd => ?_
    have pushed := hc.close ho
    rw [hs.close, hd] at pushed
    exact state?_of_closesUnderWay (by omega)
  | writeFixed => exact absurd ho hw
  | listen | write | send | shutdown =>
    have nothing : plan c buffer { l with ring := (grasp c l.ring).2 } = [] := by
      unfold plan
      rw [ho]
    rw [nothing]
    exact balanced_of_inert (by simp) (by simp [ho]) (by simp [ho]) (by simp [ho])

variable [Backend β] [KernelSide ρ] [LawfulBuffers ρ] {x : Except Fault Unit} {n : Nat}

/-- What a proper completion leads to, unless it is one of a fixed write: its buffer can be taken,
all that is planned is done, and the streams are still those that the states ask for. -/
theorem Streaming.dispatch {c : Completion} {flying : List UInt16} (hs : Streaming h l)
    (hl : Recording l) (lends : l.pool.Lends flying) (hc : Proper h l c)
    (hw : c.tag.opcode? ≠ some .writeFixed)
    (accepted : m.backend.refusals = l.backend.refusals) (he : exec (dispatch c) l = (x, m)) :
    x = .ok () ∧ ∃ buffer ps cs, (grasp c l.ring).1 = .ok buffer ∧
      Done (plan c buffer { l with ring := (grasp c l.ring).2 }) ps cs
        { l with ring := (grasp c l.ring).2 } m ∧
      (∀ d, Balanced c (plan c buffer { l with ring := (grasp c l.ring).2 }) d
        (l.connections.state? d)) ∧
      Streaming (h ++ [⟨some c, l.peerOf, ps, cs⟩]) m := by
  obtain ⟨buffer, hg, atRest⟩ := grasp_atRest hs.atRest hc.buffer
  obtain ⟨ok, ps, cs, done⟩ := dispatch_done hw hl lends accepted hg he
  have balanced := plan_balanced hs hc hw hg
  refine ⟨ok, buffer, ps, cs, hg, done, balanced, hs.dispatched done rfl balanced ?_⟩
  rw [done.performs.ring, onRing_plan]
  split
  · exact atRest
  next hr =>
    have untouched : (grasp c l.ring).2 = l.ring := by
      unfold grasp
      rw [if_neg hr]
    show BufferSource.AtRest (grasp c l.ring).2
    rw [untouched]
    exact hs.atRest

omit [KernelSide ρ] [LawfulBuffers ρ] in
/-- The completion of a fixed write that was pushed takes its slot back, and changes nothing
else. -/
theorem Streaming.released {c : Completion} (hs : Streaming h l) (ho : Owned n h l)
    (hc : ∃ i : UInt16, c.tag.descriptor = i.toUInt32 ∧ completions i h < pushes i h)
    (hg : Genuine h) (hw : c.tag.opcode? = some .writeFixed)
    (he : exec (EventLoop.dispatch c) l = (x, m)) :
    x = .ok () ∧ (∃ pool, Aside { l with pool := pool } m) ∧
      Streaming (h ++ [⟨some c, l.peerOf, [], []⟩]) m := by
  obtain ⟨i, hi, hlt⟩ := hc
  have balanced := ho.balance hg i
  have member : i ∈ inFlight h := List.count_pos_iff.mp (by omega)
  obtain ⟨pool, hp, -⟩ := ho.lends.release member
  have hd : c.tag.descriptor.toNat ≤ FreeList.maxSlots := by
    rw [hi]
    exact toNat_toUInt32_le i
  obtain ⟨k, aside, e⟩ := exec_dispatch_writeFixed (l := l) hw hd
  rw [hi, UInt16.toUInt16_toUInt32, hp, he] at e
  cases e
  have unanswered : ∀ op d, op ≠ .writeFixed → c.answers op d = false := fun op d hop =>
    answers_eq_false (by rw [hw]; simpa using hop.symm)
  have closes : ∀ d, Occurrence.closes d ⟨some c, l.peerOf, [], []⟩ = false := fun d =>
    unanswered .close d (by simp)
  have same : k.connections = l.connections := by rw [aside]
  have released : Aside { l with pool := pool } { k with pool := pool } := by
    rw [aside]
    rfl
  refine ⟨rfl, ⟨pool, released⟩, hs.append ((Adds.of_idle released.idle).of_eq rfl rfl rfl)
    (by simp) (fun d => ?_) (fun d => ?_) (by simp) ?_⟩
  · rw [armed_append]
    simp only [Option.any_some, unanswered .receive d (by simp), same]
    exact hs.receive d
  · rw [closings_append, List.countP_append, List.countP_singleton, closes, same]
    exact hs.close d
  · show BufferSource.AtRest k.ring
    rw [aside]
    exact hs.atRest

/-- What a proper completion leads to. -/
theorem Streaming.dispatch_any {c : Completion} (hs : Streaming h l) (hl : Recording l)
    (ho : Owned n h l) (hg : Genuine h) (hc : Proper h l c)
    (accepted : m.backend.refusals = l.backend.refusals)
    (he : exec (EventLoop.dispatch c) l = (x, m)) :
    x = .ok () ∧ ∃ ps cs, Adds ps cs l m ∧ Streaming (h ++ [⟨some c, l.peerOf, ps, cs⟩]) m ∧
      ∀ d, (ps.filterMap (·.control?)).count (.accept, d) =
        if c.answers .accept d && !c.hasMore then 1 else 0 := by
  by_cases hw : c.tag.opcode? = some .writeFixed
  · obtain ⟨ok, ⟨pool, aside⟩, streaming⟩ := hs.released ho (hc.written hw) hg hw he
    refine ⟨ok, [], [], (Adds.of_idle aside.idle).of_eq rfl rfl rfl, streaming, fun d => ?_⟩
    rw [answers_eq_false (by simp [hw])]
    rfl
  · obtain ⟨ok, buffer, ps, cs, -, done, balanced, streaming⟩ :=
      hs.dispatch hl ho.lends hc hw accepted he
    refine ⟨ok, ps, cs, done.added.of_eq rfl rfl rfl, streaming, fun d => ?_⟩
    rw [done.controls]
    exact (balanced d).accept

omit [Backend β] [KernelSide ρ] [LawfulBuffers ρ] in
/-- A step without a completion that steers no connection. -/
theorem Streaming.unsteered {ps : List Submission} {cs : List Call} (hs : Streaming h l)
    (added : Adds ps cs l m)
    (tags : ∀ s ∈ ps, ∀ op fd, s.control? = some (op, fd) → s.tag = .onDescriptor fd op)
    (hn : ∀ op d, (op, d) ∈ ps.filterMap (·.control?) → op = .accept)
    (hc : m.connections = l.connections) (hr : m.ring = l.ring) :
    Streaming (h ++ [⟨none, l.peerOf, ps, cs⟩]) m := by
  have none_steered : ∀ op d, op ≠ .accept →
      (ps.filterMap (·.control?)).count (op, d) = 0 := fun op d ho =>
    List.count_eq_zero.mpr fun hm => ho (hn op d hm)
  refine hs.append added tags (fun d => ?_) (fun d => ?_) (fun d hd => ?_) (hr ▸ hs.atRest)
  · rw [armed_append, none_steered .receive d (by simp), hc]
    exact hs.receive d
  · rw [closings_append, none_steered .close d (by simp), hc, List.countP_append]
    exact hs.close d
  · cases hn .close d hd

omit [Backend β] [KernelSide ρ] [LawfulBuffers ρ] in
/-- Such a step does deeds of which all that steer are accepts. -/
theorem Streaming.fulfilled {ds : List Deed} {flying : List UInt16} {y : Option Fault}
    (hs : Streaming h l) (recording : Recording l) (lends : l.pool.Lends flying)
    (traced : Traced (Fulfils ds) l y m) (accepted : m.backend.refusals = l.backend.refusals)
    (steers : ∀ op d, (op, d) ∈ ds.filterMap Deed.control? → op = .accept)
    (table : m.connections = l.connections) (ring : m.ring = l.ring) :
    ∃ ps, seen none l m = ⟨none, l.peerOf, ps, ds.filterMap Deed.call?⟩ ∧
      ps.filterMap (·.control?) = ds.filterMap Deed.control? ∧
      Streaming (h ++ [⟨none, l.peerOf, ps, ds.filterMap Deed.call?⟩]) m := by
  obtain ⟨ps, cs, added, fulfils⟩ := traced recording
  obtain ⟨tags, kept⟩ := fulfils accepted
  obtain ⟨-, -, controls, rfl⟩ := kept flying lends
  rw [← controls] at steers
  exact ⟨ps, added.seen_eq none, controls, hs.unsteered added tags steers table ring⟩

/-- What the kernel may report along a batch. -/
inductive Reported : List Occurrence → Watched β ρ σ → List Completion → Prop
  | nil {h : List Occurrence} {l : Watched β ρ σ} : Reported h l []
  | cons {h : List Occurrence} {l : Watched β ρ σ} {c : Completion} {batch : List Completion} :
    Reports h l c →
    Reported (h ++ [seen (some c) l (exec (dispatch c) l).2]) (exec (dispatch c) l).2 batch →
    Reported h l (c :: batch)

/-- A run in which the kernel reports what it may: `listens` lists the descriptors that were
listened on. Between steps it works on its buffers. -/
inductive Served (start : Watched β ρ σ) :
    List Descriptor → List Occurrence → Watched β ρ σ → Prop
  | start : Served start [] [] start
  | listen {listens : List Descriptor} {h : List Occurrence} {l : Watched β ρ σ}
    (fd : Descriptor) : Served start listens h l →
    Served start (listens ++ [fd]) (h ++ [seen none l (exec (listen fd) l).2])
      (exec (listen fd) l).2
  | log {listens : List Descriptor} {h : List Occurrence} {l : Watched β ρ σ} (level : Level)
    (message : String) : Served start listens h l →
    Served start listens (h ++ [seen none l (exec (writeLog level message) l).2])
      (exec (writeLog level message) l).2
  | dispatch {listens : List Descriptor} {h : List Occurrence} {l : Watched β ρ σ}
    {c : Completion} : Served start listens h l → Reports h l c →
    Served start listens (h ++ [seen (some c) l (exec (dispatch c) l).2])
      (exec (dispatch c) l).2
  | idle {listens : List Descriptor} {h : List Occurrence} {l m : Watched β ρ σ} :
    Served start listens h l → Idle l m → KernelSide.Works l.ring m.ring →
    Served start listens h m

variable {listens : List Descriptor}

omit [LawfulBuffers ρ] in
theorem Served.reached (hs : Served start listens h l) : Reached start h l := by
  induction hs with
  | start => exact .start
  | listen fd _ ih => exact ih.step (.listen fd)
  | log level message _ ih => exact ih.step (.log level message)
  | dispatch _ _ ih => exact ih.step (.dispatch _)
  | idle _ hi _ ih => exact ih.idle hi

/-- As long as all pushes are accepted, streams and states agree, and every listen has its accept
armed. -/
theorem Served.streaming (hr : Recording start) (h0 : Owned n [] start)
    (hs0 : Streaming [] start) (hs : Served start listens h l)
    (accepted : l.backend.refusals = start.backend.refusals) :
    Streaming h l ∧ Genuine h ∧ ∀ d, armed .accept d h = listens.count d := by
  induction hs with
  | start => exact ⟨hs0, genuine_nil, fun d => rfl⟩
  | @listen listens h l fd hs ih =>
    obtain ⟨recording, before, owned⟩ := hs.reached.unrefused hr h0
      (Reached.start.step (.listen fd)) accepted
    obtain ⟨streaming, genuine, accepts⟩ := ih before
    obtain ⟨⟨x, traced⟩, table, ring⟩ := fulfils_listen fd l
    obtain ⟨ps, added, controls, streaming'⟩ := streaming.fulfilled recording owned.lends traced
      (accepted.trans before.symm) (by simp [Deed.control?]) table ring
    rw [added]
    refine ⟨streaming', genuine.append (fun c hc => nomatch hc), fun d => ?_⟩
    rw [armed_append, accepts, List.count_append]
    simp only [controls]
    show listens.count d - 0 + [(Opcode.accept, fd)].count (.accept, d) = _
    by_cases e : fd = d <;> simp [e]
  | @log listens h l level message hs ih =>
    obtain ⟨recording, before, owned⟩ := hs.reached.unrefused hr h0
      (Reached.start.step (.log level message)) accepted
    obtain ⟨streaming, genuine, accepts⟩ := ih before
    have spared := spares_writeLog level message l
    obtain ⟨ps, added, controls, streaming'⟩ := streaming.fulfilled recording owned.lends
      (sends_writeLog level message l).fulfils (accepted.trans before.symm) (by simp)
      spared.connections spared.ring
    rw [added]
    refine ⟨streaming', genuine.append (fun c hc => nomatch hc), fun d => ?_⟩
    rw [armed_append, accepts]
    simp only [controls]
    rfl
  | @dispatch listens h l c hs hc ih =>
    obtain ⟨recording, before, owned⟩ := hs.reached.unrefused hr h0
      (Reached.start.step (.dispatch c)) accepted
    obtain ⟨streaming, genuine, accepts⟩ := ih before
    have more := genuine.append (o := seen (some c) l (exec (EventLoop.dispatch c) l).2)
      fun c' hc' hw => by
        cases hc'
        exact hc.written hw
    obtain ⟨-, ps, cs, added, streaming', rearmed⟩ := streaming.dispatch_any recording
      owned genuine hc.toProper (accepted.trans before.symm) rfl
    rw [added.seen_eq] at more ⊢
    refine ⟨streaming', more, fun d => ?_⟩
    rw [armed_append, accepts]
    simp only [Option.any_some, rearmed]
    split
    next ha =>
      rw [Bool.and_eq_true, answers_iff] at ha
      have armed := hc.accept ha.1.1
      rw [ha.1.2, accepts] at armed
      omega
    next => rfl
  | idle hs hi hw ih =>
    obtain ⟨streaming, genuine, accepts⟩ := ih (by rw [← hi.refusals]; exact accepted)
    exact ⟨streaming.idle hi (LawfulBuffers.works streaming.atRest hw), genuine, accepts⟩

/-! ## Batches and turns -/

omit [LawfulBuffers ρ] in
theorem Served.batch {batch : List Completion} (hs : Served start listens h l)
    (hb : Reported h l batch) :
    Served start listens (h ++ occurrences batch l) (exec (batch.forM EventLoop.dispatch) l).2 := by
  induction hb with
  | nil =>
    rw [occurrences, List.append_nil]
    exact hs
  | @cons h l c batch hc _ ih =>
    have first := hs.dispatch hc
    show Served start listens _ (exec (EventLoop.dispatch c >>= fun _ =>
      batch.forM EventLoop.dispatch) l).2
    rcases he : exec (EventLoop.dispatch c) l with ⟨e | a, m⟩
    · rw [occurrences, exec_bind_error he, he]
      rw [he] at first
      exact first
    · rw [occurrences, exec_bind_ok he, he]
      rw [he] at first ih
      have rest := ih first
      rwa [List.append_assoc] at rest

/-- No completion of a batch is lost to a fault. -/
theorem Served.batch_ok {batch : List Completion} (hr : Recording start) (h0 : Owned n [] start)
    (hs0 : Streaming [] start) (hs : Served start listens h l) (hb : Reported h l batch)
    (accepted : (exec (batch.forM EventLoop.dispatch) l).2.backend.refusals =
      start.backend.refusals) :
    (exec (batch.forM EventLoop.dispatch) l).1 = .ok () := by
  induction hb with
  | nil => rfl
  | @cons h l c batch hc _ ih =>
    have first := hs.reached.first_unrefused hr h0 accepted
    obtain ⟨recording, before, owned⟩ := hs.reached.unrefused hr h0
      (Reached.start.step (.dispatch c)) first
    obtain ⟨streaming, genuine, -⟩ := hs.streaming hr h0 hs0 before
    have next := hs.dispatch hc
    change (exec (EventLoop.dispatch c >>= fun _ =>
      batch.forM EventLoop.dispatch) l).2.backend.refusals = _ at accepted
    show (exec (EventLoop.dispatch c >>= fun _ => batch.forM EventLoop.dispatch) l).1 = _
    rcases he : exec (EventLoop.dispatch c) l with ⟨y, m⟩
    rw [he] at first next ih
    obtain ⟨rfl, -⟩ := streaming.dispatch_any recording owned genuine hc.toProper
      (first.trans before.symm) he
    rw [exec_bind_ok he] at accepted ⊢
    exact ih next accepted

omit [LawfulBuffers ρ] in
/-- A turn whose batch the kernel may report is part of a run, however it ends. -/
theorem Served.turn (hs : Served start listens h l)
    (hb : ∀ batch m, exec collect l = (.ok batch, m) → Reported h m batch) :
    Served start listens (h ++ turnOccurrences l) (exec turn l).2 := by
  have untouched : ∀ {l m : Watched β ρ σ}, m.ring = l.ring → KernelSide.Works l.ring m.ring :=
    fun e => e ▸ .rest
  have ready := idle_collect l
  have apart := apart_collect l
  rcases turn_cases l with ⟨e, m, hc, quiet, ended⟩ | ⟨batch, m, hc, happened, ended⟩
  · rw [quiet, ended, List.append_nil]
    exact hs.idle (ready.to_exec hc) (untouched (apart.to_exec hc).ring)
  · have dispatched := (hs.idle (ready.to_exec hc) (untouched (apart.to_exec hc).ring)).batch
      (hb batch m hc)
    rw [happened]
    rcases ended with ended | ended
    · rw [ended]
      exact dispatched
    · rw [ended]
      exact dispatched.idle (idle_conclude batch _) (untouched (rings_conclude batch _).1)

/-- On a new pool and groups at rest, along every run in which the kernel reports what it may and
all pushes are accepted: a descriptor whose connection is open or shutting down has one armed
receive stream, and any other has none; for every listen one accept is armed; where a close is
pushed, no receive stream is armed; and no batch that the kernel may report ends in a fault, so
none of its completions is lost. -/
theorem streams_stay_armed {backend : β} {pool : SlotPool} {rings : List ρ} {handler : Handler σ}
    {state : σ} {settings : Settings} {granted entrySize entries : Nat}
    (hp : SlotPool.new granted entrySize entries = .ok pool)
    (hn : EventLoop.new (.of backend) pool rings handler.recording (state, []) settings = .ok start)
    (hr : ∀ r ∈ rings, BufferSource.AtRest r) (hs : Served start listens h l)
    (accepted : l.backend.refusals = 0) :
    (∀ d c, l.connections.get? d = some c → c.state = .opened ∨ c.state = .shuttingDown →
      armed .receive d h = 1) ∧
    (∀ d, (∀ c, l.connections.get? d = some c → c.state = .closing) → armed .receive d h = 0) ∧
    (∀ d, armed .accept d h = listens.count d) ∧
    (∀ d a o b, h = a ++ o :: b → .close d ∈ o.pushed.map (·.operation) →
      armed .receive d (a ++ [o]) = 0) ∧
    (∀ s ∈ l.backend.pushed, ∀ op fd, s.control? = some (op, fd) → s.tag = .onDescriptor fd op) ∧
    ∀ batch, Reported h l batch →
      (exec (batch.forM EventLoop.dispatch) l).2.backend.refusals = 0 →
      (exec (batch.forM EventLoop.dispatch) l).1 = .ok () := by
  obtain ⟨recording, unrefused⟩ := recording_of_new hn
  have begins := owned_of_new hp hn
  have streaming0 := streaming_start (new_eq_ok hn).2.2.2.2 (by rw [(new_eq_ok hn).1]; rfl)
    (hr _ (ring_mem_of_new hn))
  obtain ⟨streaming, -, accepts⟩ := hs.streaming recording begins streaming0
    (accepted.trans unrefused.symm)
  refine ⟨fun d c hc ho => ?_, fun d hd => ?_, accepts, fun d a o b e hm => ?_, streaming.tags, ?_⟩
  · rw [streaming.receive, ConnectionTable.state?, hc]
    rcases ho with ho | ho <;> rw [Option.map_some, ho] <;> rfl
  · rw [streaming.receive, ConnectionTable.state?]
    cases hc : l.connections.get? d with
    | none => rfl
    | some c => rw [Option.map_some, hd c hc]; rfl
  · refine streaming.deaf d a o b e ?_
    obtain ⟨s, member, op⟩ := List.mem_map.mp hm
    exact List.mem_filterMap.mpr ⟨s, member, by rw [Submission.control?, op]; rfl⟩
  · intro batch hb unrefused'
    exact hs.batch_ok recording begins streaming0 hb (unrefused'.trans unrefused.symm)

end

theorem atRest_new : ∀ r ∈ [BufferQueue.new 0 4 64], BufferSource.AtRest r := by
  intro r hr
  rw [List.mem_singleton.mp hr]
  exact BufferQueue.atRest_new 0 4 64

/-- Descriptor 5 has been accepted, and its receive stream has ended for want of a buffer. -/
def afterStarving : Watched Recorder BufferQueue Unit :=
  (exec (dispatch ⟨.onDescriptor 5 .receive, -noBufferSpace, 0⟩)
    (exec (dispatch (.accepted 3 5 true)) (exec (listen 3) echoing).2).2).2

theorem streams_stay_armed_after_starving : ∃ h, Served echoing [3] h afterStarving ∧
    armed .receive 5 h = 1 ∧ armed .accept 3 h = 1 := by
  have listened := (.start : Served echoing [] [] echoing).listen 3
  have accepted := listened.dispatch (.of_accept (c := .accepted 3 5 true)
    (by decide +kernel) (by decide +kernel) fun _ => by decide +kernel)
  have starved := accepted.dispatch (.of_receive
    (c := ⟨.onDescriptor 5 .receive, -noBufferSpace, 0⟩)
    (by decide +kernel) (by decide +kernel) (by decide) (by decide))
  obtain ⟨opened, -, accepts, -⟩ := streams_stay_armed new_twoSlots new_echoing atRest_new starved
    (by decide +kernel)
  exact ⟨_, starved, opened 5 ⟨none, .opened, 0, 0⟩ (by decide +kernel) (Or.inl rfl), accepts 3⟩

end EventLoop

end RingServer
