import RingServer.Scenario
import RingServer.Proofs.Loop.Sockets

/-!
The loop among kernel and peers. In a `World` the kernel accepts connections, receives what peers
send into buffers, in pieces of any size and as far as there are buffers, and completes what was
pushed, while the loop takes its turns (`Runs`). No byte is lost, doubled or moved on the way to the
handler, and no descriptor is closed before all of them are there (`sent_bytes_arrive_in_order`).
-/

namespace RingServer

open Text (Bytes)
open Envelope (headerSize)

instance {β : Type} [CompletionSink β] : CompletionSink (Journal β) where
  post c j := { j with inner := CompletionSink.post c j.inner }

namespace EventLoop

/-- The loop, its history, and the connections as the kernel has them. -/
structure World (σ : Type) where
  loop : Watched Recorder BufferQueue σ
  history : List Occurrence
  sockets : Descriptor → Option Socket

variable {σ : Type}

namespace World

/-- The completions that wait for the next turn. -/
def posted (w : World σ) : List Completion := w.loop.backend.inner.ready

def post (c : Completion) (w : World σ) : World σ := { w with loop := w.loop.arrive c }

def withRing (ring : BufferQueue) (w : World σ) : World σ :=
  { w with loop := { w.loop with ring } }

def withSocket (d : Descriptor) (s : Socket) (w : World σ) : World σ :=
  { w with sockets := Function.update w.sockets d (some s) }

def begun (start : Watched Recorder BufferQueue σ) : World σ := ⟨start, [], fun _ => none⟩

def listened (fd : Descriptor) (w : World σ) : World σ :=
  { w with
    loop := (exec (listen fd) w.loop).2
    history := w.history ++ [seen none w.loop (exec (listen fd) w.loop).2] }

def logged (level : Level) (message : String) (w : World σ) : World σ :=
  { w with
    loop := (exec (writeLog level message) w.loop).2
    history := w.history ++ [seen none w.loop (exec (writeLog level message) w.loop).2] }

/-- A turn finds what has been posted. -/
def turned (w : World σ) : World σ :=
  { w with
    loop := (exec turn w.loop).2
    history := w.history ++ turnOccurrences w.loop }

/-- A receive stream is armed whose end has not been posted. -/
def Listens (w : World σ) (d : Descriptor) : Prop :=
  w.posted.countP (fun c => c.answers .receive d && !c.hasMore) < armed .receive d w.history

instance (w : World σ) (d : Descriptor) : Decidable (w.Listens d) :=
  inferInstanceAs (Decidable (_ < _))

@[simp]
theorem sockets_post (c : Completion) (w : World σ) : (w.post c).sockets = w.sockets := rfl

@[simp]
theorem sockets_turned (w : World σ) : w.turned.sockets = w.sockets := rfl

@[simp]
theorem sockets_withSocket (d : Descriptor) (s : Socket) (w : World σ) :
    (w.withSocket d s).sockets d = some s := by
  show Function.update w.sockets d (some s) d = some s
  rw [Function.update_self]

end World

/-- What happens outside of the loop. -/
inductive Moves (w : World σ) : World σ → Prop
  /-- A connection is accepted on a descriptor that is not tracked. -/
  | connect (listener d : Descriptor) (more : Bool) :
    ¬ d < 0 → w.loop.connections.get? d = none → d ∉ w.posted.filterMap (·.accepted?) →
    Moves w ((w.withSocket d ⟨[], [], false, w.history.length⟩).post (.accepted listener d more))
  /-- The peer sends bytes, and may end with them. -/
  | send {d : Descriptor} {s : Socket} (bytes : Bytes) (last : Bool) :
    w.sockets d = some s → s.finished = false →
    Moves w (w.withSocket d ⟨s.sent ++ bytes, s.queue ++ bytes, last, s.since⟩)
  /-- The next bytes of a queue are received into a buffer that they fit into; the result, a signed
  word, says how many bytes were stored. -/
  | receive {d : Descriptor} {s : Socket} {chunk rest : Bytes} {more : Bool} {c : Completion}
      {ring : BufferQueue} :
    w.Listens d → w.sockets d = some s → s.queue = chunk ++ rest → chunk ≠ [] →
    headerSize + chunk.length ≤ w.loop.ring.entrySize →
    KernelSide.receive d chunk false more w.loop.ring = some (c, ring) →
    c.result.toInt = headerSize + chunk.length →
    Moves w (((w.withRing ring).withSocket d { s with queue := rest }).post c)
  /-- The peer has ended, and all was received: an empty message ends the stream. -/
  | finish {d : Descriptor} {s : Socket} {c : Completion} {ring : BufferQueue} :
    w.Listens d → w.sockets d = some s → s.queue = [] → s.finished = true →
    KernelSide.receive d [] false false w.loop.ring = some (c, ring) →
    Moves w ((w.withRing ring).post c)
  /-- No buffer can be picked, which ends the stream. -/
  | starve {d : Descriptor} {s : Socket} :
    w.Listens d → w.sockets d = some s → KernelSide.select w.loop.ring = none →
    Moves w (w.post ⟨.onDescriptor d .receive, -noBufferSpace, 0⟩)
  /-- A close that was pushed is completed. -/
  | close {c : Completion} {d : Descriptor} : c.answers .close d = true →
    w.history.countP (·.closes d) + w.posted.countP (·.answers .close d) < closings d w.history →
    Moves w (w.post c)
  /-- A fixed write that was pushed is completed. -/
  | written {c : Completion} {i : UInt16} : c.ends i = true →
    completions i w.history + w.posted.countP (·.ends i) < pushes i w.history →
    Moves w (w.post c)
  /-- An accept fails, or something else is completed. -/
  | other {c : Completion} : c.tag.opcode? ≠ some .receive → c.tag.opcode? ≠ some .close →
    c.tag.opcode? ≠ some .writeFixed → c.accepted? = none → Moves w (w.post c)
  /-- The clock, the network and the other groups go on. -/
  | elsewhere {m : Watched Recorder BufferQueue σ} : Idle w.loop m → m.ring = w.loop.ring →
    m.backend.inner.ready = w.posted → m.counters = w.loop.counters →
    Moves w { w with loop := m }

/-- Runs of the loop among its peers. -/
inductive Runs (start : Watched Recorder BufferQueue σ) : World σ → Prop
  | start : Runs start (.begun start)
  | move {w w' : World σ} : Runs start w → Moves w w' → Runs start w'
  | listen {w : World σ} (fd : Descriptor) : Runs start w → Runs start (w.listened fd)
  | log {w : World σ} (level : Level) (message : String) : Runs start w →
    Runs start (w.logged level message)
  | turn {w : World σ} : Runs start w → Runs start w.turned

variable {w w' : World σ} {start l m : Watched Recorder BufferQueue σ} {h : List Occurrence}
  {sockets : Descriptor → Option Socket} {n : Nat}

/-! ## What is posted -/

theorem ready_of_loaded {b c : Journal Recorder} (h : Loaded b c) :
    c.inner.ready = b.inner.ready :=
  queues_recorder.loaded h

theorem Spares.ready {x : Option Fault} (h : Spares l x m) :
    m.backend.inner.ready = l.backend.inner.ready := ready_of_loaded h.backend

theorem exec_collect (l : Watched Recorder BufferQueue σ) : exec collect l =
    (.ok l.backend.inner.ready, { l with
      backend := { l.backend with
        inner := { l.backend.inner.flush.2 with ready := [] } } }) := rfl

/-- Listening posts nothing and counts nothing as malformed. -/
theorem listen_kept (fd : Descriptor) (l : Watched Recorder BufferQueue σ) :
    (exec (listen fd) l).2.backend.inner.ready = l.backend.inner.ready ∧
      (exec (listen fd) l).2.counters.faults = l.counters.faults := by
  have composable : Composable fun (l : Watched Recorder BufferQueue σ) _ m =>
      m.backend.inner.ready = l.backend.inner.ready ∧ m.counters.faults = l.counters.faults :=
    ⟨fun _ => ⟨rfl, rfl⟩, fun h h' => ⟨h'.1.trans h.1, h'.2.trans h.2⟩⟩
  have armed : Keeps (fun (l : Watched Recorder BufferQueue σ) _ m =>
      m.backend.inner.ready = l.backend.inner.ready ∧ m.counters.faults = l.counters.faults)
      (armAccept fd) := by
    intro l
    have spared := spares_submit (.onDescriptor fd .accept) (.accept fd) l
    exact ⟨Spares.ready spared, spared.faults⟩
  exact Keeps.listen composable (fun _ => ⟨rfl, rfl⟩) armed (fun _ _ => ⟨rfl, rfl⟩)
    (fun _ _ => ⟨rfl, rfl⟩) l

/-! ## Batches and turns -/

/-- All that is in a batch is dispatched. -/
theorem Flows.batch {batch : List Completion} (hr : Recording start) (h0 : Owned n [] start)
    (reached : Reached start h l) (hf : Flows sockets h batch l)
    (accepted : (exec (batch.forM dispatch) l).2.backend.refusals = start.backend.refusals) :
    (exec (batch.forM dispatch) l).1 = .ok () ∧
      Flows sockets (h ++ occurrences batch l) [] (exec (batch.forM dispatch) l).2 := by
  induction batch generalizing h l with
  | nil =>
    rw [occurrences, List.append_nil]
    exact ⟨rfl, hf⟩
  | cons c batch ih =>
    -- No push of this dispatch is refused, as none is in the end.
    have first := reached.first_unrefused hr h0 accepted
    obtain ⟨recording, before, owned⟩ := reached.unrefused hr h0
      (Reached.start.step (.dispatch c)) first
    have next := reached.step (.dispatch c)
    change (exec (dispatch c >>= fun _ => batch.forM dispatch) l).2.backend.refusals = _ at accepted
    show (exec (dispatch c >>= fun _ => batch.forM dispatch) l).1 = _ ∧
      Flows _ _ _ (exec (dispatch c >>= fun _ => batch.forM dispatch) l).2
    rcases he : exec (dispatch c) l with ⟨x, m⟩
    rw [he] at first next
    obtain ⟨rfl, ps, cs, added, streaming, serves⟩ := hf.streaming.dispatch_serves recording
      owned hf.genuine hf.proper (fun hr => ⟨hf.opened List.mem_cons_self hr, _,
        hf.brings c List.mem_cons_self hr⟩) (first.trans before.symm) he
    rw [← added.seen_eq] at streaming serves
    have flows := hf.dispatched streaming rfl serves
    have more : occurrences (c :: batch) l = seen (some c) l m :: occurrences batch m := by
      rw [occurrences, he]
    rw [exec_bind_ok he] at accepted ⊢
    rw [more, ← List.singleton_append, ← List.append_assoc]
    exact ih next flows accepted

/-- A turn dispatches all that was posted. -/
theorem Flows.turn (hr : Recording start) (h0 : Owned n [] start) (reached : Reached start h l)
    (hf : Flows sockets h l.backend.inner.ready l)
    (accepted : (exec EventLoop.turn l).2.backend.refusals = start.backend.refusals) :
    Flows sockets (h ++ turnOccurrences l)
      (exec EventLoop.turn l).2.backend.inner.ready (exec EventLoop.turn l).2 := by
  have unrefused := (refusals_turn (exec_collect l)).trans accepted
  rw [turn_eq, exec_bind_ok (exec_collect l), turnOccurrences, exec_collect]
  generalize hm : ({ l with backend := { l.backend with
    inner := { l.backend.inner.flush.2 with ready := [] } } } :
      Watched Recorder BufferQueue σ) = m at unrefused ⊢
  have idle : Idle l m := by
    rw [← hm]
    exact ⟨rfl, rfl, rfl, rfl, rfl, rfl⟩
  have collected : Flows sockets h l.backend.inner.ready m :=
    hf.idle idle (by rw [← hm]) (by rw [← hm])
  have emptied : m.backend.inner.ready = [] := by rw [← hm]
  generalize l.backend.inner.ready = batch at unrefused collected ⊢
  have ready := ready_of_loaded (loaded_batch batch m)
  obtain ⟨ok, flows⟩ := Flows.batch hr h0 (reached.idle idle) collected unrefused
  simp only []
  rcases hd : exec (batch.forM dispatch) m with ⟨x, k⟩
  rw [hd] at ok ready flows
  cases ok
  rw [exec_bind_ok hd]
  show Flows sockets _ k.backend.inner.ready _
  rw [ready, emptied]
  exact flows.idle (idle_conclude batch k) rfl rfl

/-! ## The kernel and the peers -/

theorem World.Listens.more {d : Descriptor} (hl : w.Listens d) (hs : Streaming w.history w.loop)
    {c : Completion} (hc : c ∈ w.posted) (answered : c.answers .receive d = true) :
    c.hasMore = true := by
  have few : armed .receive d w.history ≤ 1 := by
    rw [hs.receive]
    unfold streams
    split <;> omega
  unfold World.Listens at hl
  have unended : w.posted.countP (fun c => c.answers .receive d && !c.hasMore) = 0 := by omega
  have ends := List.countP_eq_zero.mp unended c hc
  simpa [answered] using ends

/-- What the kernel does when it receives a message. -/
theorem Posts.received {posted : List Completion} {d : Descriptor} {message : Bytes} {more : Bool}
    {c : Completion} {ring : BufferQueue} (hp : Posts h posted l)
    (received : KernelSide.receive d message false more l.ring = some (c, ring))
    (fits : headerSize + message.length ≤ l.ring.entrySize)
    (whole : c.result.toInt = headerSize + message.length) :
    c.tag = .onDescriptor d .receive ∧ c.hasMore = more ∧ c.bufferId? ≠ none ∧
      l.ring.Picks c.picked? ring ∧ Brings ring c message := by
  obtain ⟨id, picks, holds, rfl⟩ := BufferQueue.of_receive received fits
  generalize Int32.ofNat (headerSize + message.length) = result at received whole ⊢
  have named : (KernelSide.completion d id result more).bufferId? = some id :=
    Completion.bufferId?_flagsOf _ _ _ _
  have tag : (KernelSide.completion d id result more).tag.opcode? = some .receive :=
    Tag.opcode?_encode _ _
  have waits : id ∈ l.ring.waiting := by
    rw [picks.waiting]
    exact List.mem_append_left _ (List.mem_singleton_self id)
  have within : id.toNat < ring.ledger.entries := by
    rw [picks.ledger]
    exact hp.within id waits
  refine ⟨rfl, Completion.hasMore_flagsOf _ _ _ _, ?_, ?_, .message named within holds whole⟩
  · rw [named]
    exact Option.some_ne_none id
  · rw [Completion.picked?, if_pos tag, named]
    exact picks

/-- The completion of a receive on an armed stream may be posted. -/
theorem Flows.receive {d : Descriptor} {s : Socket} {message rest : Bytes} {c : Completion}
    {ring : BufferQueue} (hf : Flows w.sockets w.history w.posted w.loop) (hl : w.Listens d)
    (hs : w.sockets d = some s) (tag : c.tag = .onDescriptor d .receive)
    (picks : w.loop.ring.Picks c.picked? ring) (brings : Brings ring c message)
    (queue : s.queue = message ++ rest)
    (ended : message = [] → c.hasMore = false ∧
      (c.bufferId? ≠ none → s.finished = true ∧ rest = [])) :
    Flows (Function.update w.sockets d (some { s with queue := rest })) w.history (w.posted ++ [c])
      (({ w.loop with ring } : Watched Recorder BufferQueue σ).arrive c) := by
  have hd : c.tag.descriptor.toInt32 = d := by rw [tag, Tag.toInt32_descriptor]
  have hr : c.tag.opcode? = some .receive := by rw [tag]; exact Tag.opcode?_encode _ _
  have idle : Idle w.loop (({ w.loop with ring } : Watched Recorder BufferQueue σ).arrive c) :=
    ⟨rfl, rfl, rfl, rfl, rfl, rfl⟩
  cases brings.payload_eq
  have posts := hf.toPosts.post idle picks
    (fun _ => by
      rw [hd]
      exact ⟨brings, Nat.zero_lt_of_lt hl, fun empty => (ended empty).1,
        fun c' hc' answered => hl.more hf.streaming hc' answered⟩)
    (fun d' accepted => by
      unfold Completion.accepted? at accepted
      rw [if_neg (by simp [hr])] at accepted
      cases accepted)
    (fun d' answered => by
      rw [answers_eq_false (by simp [hr])] at answered
      cases answered)
    (fun hw => by
      rw [hr] at hw
      cases hw)
  have flows := hf.post_receive posts picks rfl (hd ▸ hs) hr queue fun empty => (ended empty).2
  rwa [hd] at flows

/-- Whatever else may be posted concerns no socket. -/
theorem Flows.post {c : Completion} (hf : Flows w.sockets w.history w.posted w.loop)
    (hr : c.tag.opcode? ≠ some .receive) (hn : c.accepted? = none)
    (close : ∀ d, c.answers .close d = true →
      w.history.countP (·.closes d) + w.posted.countP (·.answers .close d) < closings d w.history)
    (written : c.tag.opcode? = some .writeFixed → ∃ i : UInt16, c.tag.descriptor = i.toUInt32 ∧
      completions i w.history + w.posted.countP (·.ends i) < pushes i w.history) :
    Flows w.sockets w.history (w.posted ++ [c]) (w.loop.arrive c) := by
  have posts := hf.toPosts.post (m := w.loop.arrive c) ⟨rfl, rfl, rfl, rfl, rfl, rfl⟩
    (picks_of_ne_receive hr w.loop.ring) (fun h => absurd h hr)
    (fun d accepted => by
      rw [hn] at accepted
      cases accepted) close written
  exact hf.post_other posts rfl rfl hr

/-- The end of a stream takes nothing from a queue. -/
theorem Flows.receive_end {d : Descriptor} {s : Socket} {c : Completion} {ring : BufferQueue}
    (hf : Flows w.sockets w.history w.posted w.loop) (hl : w.Listens d)
    (hs : w.sockets d = some s) (tag : c.tag = .onDescriptor d .receive)
    (picks : w.loop.ring.Picks c.picked? ring) (brings : Brings ring c [])
    (last : c.hasMore = false) (ended : c.bufferId? ≠ none → s.finished = true ∧ s.queue = []) :
    Flows w.sockets w.history (w.posted ++ [c])
      (({ w.loop with ring } : Watched Recorder BufferQueue σ).arrive c) := by
  have flows := hf.receive hl hs tag picks brings (List.nil_append s.queue).symm
    fun _ => ⟨last, ended⟩
  have same : Function.update w.sockets d (some { s with queue := s.queue }) = w.sockets := by
    rw [← hs]
    exact Function.update_eq_self d w.sockets
  rwa [same] at flows

/-- A connection is accepted on a descriptor that is in use nowhere. -/
theorem Flows.accept {d : Descriptor} (hf : Flows w.sockets w.history w.posted w.loop)
    (listener : Descriptor) (more : Bool) (hd : ¬ d < 0)
    (untracked : w.loop.connections.get? d = none)
    (unposted : d ∉ w.posted.filterMap (·.accepted?)) :
    Flows (Function.update w.sockets d (some ⟨[], [], false, w.history.length⟩)) w.history
      (w.posted ++ [.accepted listener d more]) (w.loop.arrive (.accepted listener d more)) := by
  generalize hc : Completion.accepted listener d more = c
  have tag : c.tag.opcode? = some .accept := by
    rw [← hc]
    exact Tag.opcode?_encode _ _
  have accepted : c.accepted? = some d := by
    rw [← hc] at tag ⊢
    exact if_pos ⟨tag, hd⟩
  have hr : c.tag.opcode? ≠ some .receive := by simp [tag]
  have state : w.loop.connections.state? d = none := by
    rw [ConnectionTable.state?, untracked]
    rfl
  have posts := hf.toPosts.post (m := w.loop.arrive c) ⟨rfl, rfl, rfl, rfl, rfl, rfl⟩
    (picks_of_ne_receive hr w.loop.ring) (fun h => absurd h hr)
    (fun d' e => by
      cases accepted.symm.trans e
      exact ⟨unposted, state⟩)
    (fun d' answered => by
      rw [answers_eq_false (by simp [tag])] at answered
      cases answered)
    (fun hw => by simp [tag] at hw)
  exact hf.connect posts rfl rfl hr state

theorem Flows.moved (hf : Flows w.sockets w.history w.posted w.loop) (hm : Moves w w') :
    Flows w'.sockets w'.history w'.posted w'.loop := by
  cases hm with
  | connect listener d more hd untracked unposted =>
    exact hf.accept listener more hd untracked unposted
  | send bytes last hs unfinished => exact hf.send hs unfinished bytes last
  | @receive d s chunk rest more c ring hl hs queue nonempty fits received whole =>
    obtain ⟨tag, -, -, picks, brings⟩ := hf.received received fits whole
    exact hf.receive hl hs tag picks brings queue fun empty => absurd empty nonempty
  | @finish d s c ring hl hs queue finished received =>
    have whole : c.result.toInt = headerSize + ([] : Bytes).length := by
      obtain ⟨id, -, -, rfl⟩ := BufferQueue.of_receive received hf.roomy
      rfl
    obtain ⟨tag, last, -, picks, brings⟩ := hf.received received hf.roomy whole
    exact hf.receive_end hl hs tag picks brings last fun _ => ⟨finished, queue⟩
  | @starve d s hl hs none_waits =>
    generalize hc : (⟨.onDescriptor d .receive, -noBufferSpace, 0⟩ : Completion) = c
    have unnamed : c.bufferId? = none := by
      rw [← hc]
      exact if_neg (by decide : ¬ (0 : UInt32) &&& Completion.bufferFlag ≠ 0)
    have last : c.hasMore = false := by
      rw [← hc]
      exact decide_eq_false (by decide : ¬ (0 : UInt32) &&& Completion.moreFlag ≠ 0)
    have picks : w.loop.ring.Picks c.picked? w.loop.ring := by
      rw [Completion.picked?, unnamed, ite_self]
      exact .refl _
    have brings : Brings w.loop.ring c [] := .starved unnamed (by rw [← hc]) last
    exact hf.receive_end hl hs (by rw [← hc]) picks brings last fun named => absurd unnamed named
  | @close c d answered fewer =>
    obtain ⟨hc, hd⟩ := answers_iff.mp answered
    have hr : c.tag.opcode? ≠ some .receive := by simp [hc]
    refine hf.post hr (if_neg (by simp [hc])) (fun d' answered' => ?_) fun hw => ?_
    · obtain ⟨-, hd'⟩ := answers_iff.mp answered'
      cases hd.symm.trans hd'
      exact fewer
    · rw [hc] at hw
      cases hw
  | @written c i ended fewer =>
    rw [Completion.ends, decide_eq_true_eq] at ended
    obtain ⟨hw, hi⟩ := ended
    have hr : c.tag.opcode? ≠ some .receive := by simp [hw]
    refine hf.post hr (if_neg (by simp [hw])) (fun d answered => ?_) fun _ => ⟨i, hi, fewer⟩
    rw [answers_eq_false (by simp [hw])] at answered
    cases answered
  | @other c hr hc hw hn =>
    refine hf.post hr hn (fun d answered => ?_) fun h => absurd h hw
    rw [answers_eq_false hc] at answered
    cases answered
  | elsewhere hi ring ready counters =>
    show Flows _ _ (World.posted ⟨_, _, _⟩) _
    unfold World.posted
    simp only []
    rw [ready]
    exact hf.idle hi ring (by rw [counters])

/-! ## Runs -/

theorem Moves.idle (hm : Moves w w') : w'.history = w.history ∧ Idle w.loop w'.loop := by
  cases hm with
  | elsewhere hi => exact ⟨rfl, hi⟩
  | _ => exact ⟨rfl, ⟨rfl, rfl, rfl, rfl, rfl, rfl⟩⟩

theorem Runs.reached (hw : Runs start w) : Reached start w.history w.loop := by
  induction hw with
  | start => exact .start
  | move _ hm ih =>
    obtain ⟨history, idle⟩ := hm.idle
    rw [history]
    exact ih.idle idle
  | listen fd _ ih => exact ih.step (.listen fd)
  | log level message _ ih => exact ih.step (.log level message)
  | turn _ ih => exact ih.turn

/-- Wherever a run leads, the bytes are where they should be. -/
theorem Runs.flows (hr : Recording start) (h0 : Owned n [] start)
    (hf0 : Flows (fun _ => none) [] start.backend.inner.ready start) (hw : Runs start w)
    (accepted : w.loop.backend.refusals = start.backend.refusals) :
    Flows w.sockets w.history w.posted w.loop := by
  induction hw with
  | start => exact hf0
  | move hw hm ih =>
    rw [hm.idle.2.refusals] at accepted
    exact (ih accepted).moved hm
  | @listen w fd hw ih =>
    obtain ⟨recording, before, owned⟩ := hw.reached.unrefused hr h0
      (Reached.start.step (.listen fd)) accepted
    obtain ⟨⟨x, traced⟩, table, ring⟩ := fulfils_listen fd w.loop
    obtain ⟨ready, faults⟩ := listen_kept fd w.loop
    have flows := (ih before).fulfilled recording owned.lends traced
      (accepted.trans before.symm) (by simp [Deed.control?]) rfl table ring faults
    show Flows _ _ (exec (EventLoop.listen fd) w.loop).2.backend.inner.ready _
    rw [ready]
    exact flows
  | @log w level message hw ih =>
    obtain ⟨recording, before, owned⟩ := hw.reached.unrefused hr h0
      (Reached.start.step (.log level message)) accepted
    have spared := spares_writeLog level message w.loop
    have flows := (ih before).fulfilled recording owned.lends
      (sends_writeLog level message w.loop).fulfils (accepted.trans before.symm) (by simp) rfl
      spared.connections spared.ring spared.faults
    show Flows _ _ (exec (writeLog level message) w.loop).2.backend.inner.ready _
    rw [Spares.ready spared]
    exact flows
  | @turn w hw ih =>
    obtain ⟨-, before, -⟩ := hw.reached.unrefused hr h0 Reached.start.turn accepted
    exact Flows.turn hr h0 hw.reached (ih before) accepted

/-- The group for connections has room for a message, and nothing has been counted. -/
theorem roomy_of_new {backend : Journal Recorder} {pool : SlotPool} {rings : List BufferQueue}
    {handler : Handler (σ × List Call)} {state : σ × List Call} {settings : Settings}
    (h : EventLoop.new backend pool rings handler state settings = .ok l) :
    headerSize < l.ring.entrySize ∧ l.counters = .zero := by
  obtain ⟨-, roomy, e⟩ := eq_of_new h
  refine ⟨roomy, ?_⟩
  rw [e]

theorem flows_start {group entries : UInt16} {size : Nat} (hs : Streaming [] start)
    (hq : start.ring = BufferQueue.new group entries size)
    (roomy : headerSize ≤ start.ring.entrySize)
    (hc : start.connections = .empty) (hb : start.counters.faults = 0)
    (hp : start.backend.inner.ready = []) :
    Flows (fun _ => none) [] start.backend.inner.ready start := by
  rw [hp]
  have table : ∀ d, start.connections.state? d = none := by
    rw [hc]
    exact fun _ => rfl
  refine ⟨⟨hs, genuine_nil, ?_, ?_, roomy, by simp, by simp, by simp, .nil, .nil, by simp,
    fun _ => Nat.le_refl _, by simp, fun _ => Nat.le_refl _, fun d => ?_⟩, hb, by simp, by simp,
    by simp, by simp⟩
  · rw [hq, List.filterMap_nil, List.append_nil]
    exact BufferQueue.nodup_waiting_new group entries size
  · rw [hq]
    exact fun id hid => BufferQueue.lt_of_mem_waiting_new hid
  · rw [table]
    simp

/-- On a new pool and new groups, along every run among kernel and peers in which all pushes are
accepted: for every connection the bytes that were handed to the handler, then those in buffers
whose completions are posted, then those in the queue of its socket, are all that the peer has sent,
in order; no completion is taken for malformed; and where the descriptor of a connection is closed,
its peer had ended and all that it had sent had been handed over. -/
theorem sent_bytes_arrive_in_order {pool : SlotPool} {rings : List BufferQueue}
    {handler : Handler σ} {state : σ} {settings : Settings} {granted entrySize entries : Nat}
    (hp : SlotPool.new granted entrySize entries = .ok pool)
    (hn : EventLoop.new (.of .new) pool rings handler.recording (state, []) settings = .ok start)
    (hr : ∀ r ∈ rings, ∃ group number size, r = BufferQueue.new group number size)
    (hw : Runs start w) (accepted : w.loop.backend.refusals = 0) :
    (∀ d s, w.sockets d = some s →
      handed d s.since w.history ++ undispatched w.loop.ring d w.posted ++ s.queue = s.sent) ∧
    w.loop.counters.faults = 0 ∧
    ∀ d s a o b, w.sockets d = some s → w.history = a ++ o :: b → s.since ≤ a.length →
      .close d ∈ o.pushed.map (·.operation) →
      s.finished = true ∧ handed d s.since (a ++ [o]) = s.sent := by
  obtain ⟨recording, unrefused⟩ := recording_of_new hn
  obtain ⟨group, number, size, ring⟩ := hr _ (ring_mem_of_new hn)
  obtain ⟨roomy, counters⟩ := roomy_of_new hn
  obtain ⟨backend, -, -, -, table⟩ := new_eq_ok hn
  have atRest : BufferSource.AtRest start.ring := by
    rw [ring]
    exact BufferQueue.atRest_new group number size
  have streaming := streaming_start table (by rw [backend]; rfl) atRest
  have begins := flows_start streaming ring (Nat.le_of_lt roomy) table (by rw [counters]; rfl)
    (by rw [backend]; rfl)
  have flows := hw.flows recording (owned_of_new hp hn) begins (accepted.trans unrefused.symm)
  refine ⟨flows.whole, flows.faults, fun d s a o b hd e since closes => ?_⟩
  obtain ⟨submission, member, operation⟩ := List.mem_map.mp closes
  refine flows.closed d s a o b hd e since (List.mem_filterMap.mpr ⟨submission, member, ?_⟩)
  rw [Submission.control?, operation]
  rfl

/-- A new loop over two slots and one buffer with room for four bytes. -/
def lone : Watched Recorder BufferQueue Unit :=
  (EventLoop.new (.of .new) twoSlots [BufferQueue.new 0 1 20]
    (ReplyMode.handler .echo).recording ((), []) .default).toOption.get rfl

theorem new_lone : EventLoop.new (.of .new) twoSlots [BufferQueue.new 0 1 20]
    (ReplyMode.handler .echo).recording ((), []) .default = .ok lone := rfl

/-- Descriptor 5 has been accepted. -/
def connected : World Unit :=
  ((((World.begun lone).listened 3).withSocket 5 ⟨[], [], false, 1⟩).post
    (.accepted 3 5 true)).turned

/-- Its peer has sent six bytes. -/
def beforeBurst : World Unit :=
  connected.withSocket 5 ⟨[1, 2, 3, 4, 5, 6], [1, 2, 3, 4, 5, 6], false, 1⟩

/-- The kernel receives four of them into the buffer. -/
def fourBytes : Completion × BufferQueue :=
  (KernelSide.receive 5 [1, 2, 3, 4] false true beforeBurst.loop.ring).get (by decide +kernel)

def withinBurst : World Unit :=
  ((beforeBurst.withRing fourBytes.2).withSocket 5
    ⟨[1, 2, 3, 4, 5, 6], [5, 6], false, 1⟩).post fourBytes.1

/-- It finds no buffer for the others, and a turn goes by. -/
def afterBurst : World Unit :=
  (withinBurst.post ⟨.onDescriptor 5 .receive, -noBufferSpace, 0⟩).turned

theorem runs_beforeBurst : Runs lone beforeBurst := by
  have listened := (Runs.start : Runs lone _).listen 3
  have accepted : Runs lone connected := (listened.move (.connect 3 5 true (by decide)
    (by decide +kernel) (by decide +kernel))).turn
  have socket : connected.sockets 5 = some ⟨[], [], false, 1⟩ := by simp [connected]
  exact accepted.move (.send [1, 2, 3, 4, 5, 6] false socket rfl)

theorem runs_afterBurst : Runs lone afterBurst := by
  have socket : beforeBurst.sockets 5 =
      some ⟨[1, 2, 3, 4, 5, 6], [1, 2, 3, 4, 5, 6], false, 1⟩ := by simp [beforeBurst]
  have picked : KernelSide.receive 5 [1, 2, 3, 4] false true beforeBurst.loop.ring =
      some (fourBytes.1, fourBytes.2) := by
    rw [Prod.eta, fourBytes, Option.some_get]
  have received : Runs lone withinBurst := by
    refine runs_beforeBurst.move (.receive (d := 5) ?_ socket
      (rfl : _ = ([1, 2, 3, 4] : Bytes) ++ [5, 6]) (by simp) ?_ picked ?_) <;> decide +kernel
  have socket' : withinBurst.sockets 5 = some ⟨[1, 2, 3, 4, 5, 6], [5, 6], false, 1⟩ := by
    simp [withinBurst]
  have none_waits : KernelSide.select withinBurst.loop.ring = none :=
    Option.isNone_iff_eq_none.mp (by decide +kernel)
  have listens : withinBurst.Listens 5 := by decide +kernel
  exact (received.move (.starve listens socket' none_waits)).turn

theorem sent_bytes_arrive_in_order_after_burst : Runs lone afterBurst ∧
    armed .receive 5 afterBurst.history = 1 ∧ handed 5 1 afterBurst.history = [1, 2, 3, 4] ∧
    handed 5 1 afterBurst.history ++ undispatched afterBurst.loop.ring 5 afterBurst.posted ++
      [5, 6] = [1, 2, 3, 4, 5, 6] ∧ afterBurst.loop.counters.faults = 0 := by
  have groups : ∀ r ∈ [BufferQueue.new 0 1 20], ∃ group number size,
      r = BufferQueue.new group number size :=
    fun r hr => ⟨0, 1, 20, List.mem_singleton.mp hr⟩
  have socket : afterBurst.sockets 5 = some ⟨[1, 2, 3, 4, 5, 6], [5, 6], false, 1⟩ := by
    simp [afterBurst, withinBurst]
  obtain ⟨whole, faults, -⟩ := sent_bytes_arrive_in_order new_twoSlots new_lone groups
    runs_afterBurst (by decide +kernel)
  have arrived := whole 5 _ socket
  exact ⟨runs_afterBurst, by decide +kernel, by decide +kernel, arrived, faults⟩

end EventLoop

end RingServer
