import RingServer.BufferQueue
import RingServer.Proofs.Loop.Dispatch

/-!
Runs of the event loop and what can be seen of them. A `Journal` is a backend that notes what is
pushed to it; a `Watched` loop works on one, and its handler notes its calls. `Reached start h l`
says that a run from `start` leads to `l`, where the history `h` lists for each step which
completion it dispatched, what it pushed and which calls it made. Turns are such runs
(`Reached.turn`).

A relation `T` between the loop before a step, what the step did and the loop after it holds along
the dispatch of every completion if it holds of the parts (`Allows (Traced T)`), and an invariant
that such steps preserve holds wherever a run leads (`Reached.invariant`).
-/

namespace RingServer

open Text (Bytes)

/-- A backend and what was pushed to it. -/
structure Journal (β : Type) where
  inner : β
  /-- The submissions that were accepted, in order. -/
  pushed : List Submission
  /-- How many were not accepted. -/
  refusals : Nat

namespace Journal

variable {β : Type} [Backend β]

omit [Backend β] in
/-- A backend to which nothing has been pushed. -/
def of (inner : β) : Journal β := ⟨inner, [], 0⟩

def push (memory : Memory) (s : Submission) (j : Journal β) : Except Fault Unit × Journal β :=
  match Backend.push memory s j.inner with
  | (.ok (), inner) => (.ok (), ⟨inner, j.pushed ++ [s], j.refusals⟩)
  | (.error e, inner) => (.error e, ⟨inner, j.pushed, j.refusals + 1⟩)

instance : Backend (Journal β) where
  push := push
  flush memory j :=
    ((Backend.flush memory j.inner).1, { j with inner := (Backend.flush memory j.inner).2 })
  wait memory n j :=
    ((Backend.wait memory n j.inner).1, { j with inner := (Backend.wait memory n j.inner).2 })
  drain j := ((Backend.drain j.inner).1, { j with inner := (Backend.drain j.inner).2 })
  pending j := Backend.pending j.inner

end Journal

/-- A call of the handler. -/
abbrev Call := Descriptor × Bytes

/-- A loop whose pushes and calls are noted. -/
abbrev Watched (β ρ σ : Type) := EventLoop (Journal β) ρ (σ × List Call)

/-- A step of a run. -/
structure Occurrence where
  /-- The completion that was dispatched, if one was. -/
  completion : Option Completion
  /-- The remote address of a descriptor at that time. -/
  peerOf : Descriptor → Option SocketAddress
  pushed : List Submission
  calls : List Call

namespace EventLoop

variable {β ρ σ α : Type}

/-- The loops differ at most in what neither pushes, calls, owns nor tracks anything: the kernel,
the clock and the network go on, a batch is submitted, something is counted or told. -/
structure Idle (l m : Watched β ρ σ) : Prop where
  pushed : m.backend.pushed = l.backend.pushed
  refusals : m.backend.refusals = l.backend.refusals
  pool : m.pool = l.pool
  handler : m.handler = l.handler
  handlerState : m.handlerState = l.handlerState
  connections : m.connections = l.connections

/-- What was done between two loops of a run. -/
def seen (c : Option Completion) (l m : Watched β ρ σ) : Occurrence where
  completion := c
  peerOf := l.peerOf
  pushed := m.backend.pushed.drop l.backend.pushed.length
  calls := m.handlerState.2.drop l.handlerState.2.length

section

variable [Backend β] [BufferSource ρ]

/-- The operations of a loop, a turn by its dispatches, with what they did. -/
inductive Takes (l : Watched β ρ σ) : Occurrence → Watched β ρ σ → Prop
  | listen (fd : Descriptor) :
    Takes l (seen none l (exec (listen fd) l).2) (exec (listen fd) l).2
  | log (level : Level) (message : String) :
    Takes l (seen none l (exec (writeLog level message) l).2) (exec (writeLog level message) l).2
  | dispatch (c : Completion) :
    Takes l (seen (some c) l (exec (dispatch c) l).2) (exec (dispatch c) l).2

/-- A run from `start` leads to a loop, and this is its history. -/
inductive Reached (start : Watched β ρ σ) : List Occurrence → Watched β ρ σ → Prop
  | start : Reached start [] start
  | step {h : List Occurrence} {l m : Watched β ρ σ} {o : Occurrence} :
    Reached start h l → Takes l o m → Reached start (h ++ [o]) m
  | idle {h : List Occurrence} {l m : Watched β ρ σ} :
    Reached start h l → Idle l m → Reached start h m

omit [Backend β] in
/-- A loop that is made has one of the rings to receive with, and nothing has happened to it. -/
theorem eq_of_new {backend : β} {pool : SlotPool} {rings : List ρ} {handler : Handler σ} {state : σ}
    {settings : Settings} {l : EventLoop β ρ σ}
    (h : EventLoop.new backend pool rings handler state settings = .ok l) :
    l.ring ∈ rings ∧ Envelope.headerSize < BufferSource.entrySize l.ring ∧
      l = {
        backend, pool, handler
        ring := l.ring
        spareRings := rings.eraseP fun r => BufferSource.group r == settings.receiveGroup
        handlerState := state
        connections := .empty
        listener := none
        accessLog := settings.accessLog
        counters := .zero
        events := #[]
        clock := fun _ => ⟨0⟩
        readings := 0
        peerOf := fun _ => none } := by
  unfold EventLoop.new at h
  simp only [bind, Except.bind] at h
  split at h
  next found =>
    split at h
    · cases h
    next roomy =>
      cases h
      exact ⟨List.mem_of_find?_eq_some found, Nat.lt_of_not_le roomy, rfl⟩
  · cases h

omit [Backend β] in
theorem new_eq_ok {backend : β} {pool : SlotPool} {rings : List ρ} {handler : Handler σ} {state : σ}
    {settings : Settings} {l : EventLoop β ρ σ}
    (h : EventLoop.new backend pool rings handler state settings = .ok l) :
    l.backend = backend ∧ l.pool = pool ∧ l.handler = handler ∧ l.handlerState = state ∧
      l.connections = .empty := by
  obtain ⟨-, -, e⟩ := eq_of_new h
  rw [e]
  exact ⟨rfl, rfl, rfl, rfl, rfl⟩

/-! ## Turns -/

/-- The first part of a turn: the completions that are ready once it has waited. -/
def collect : LoopM β ρ σ (List Completion) := do
  let outcome ← modifyGet fun l =>
    let (outcome, backend) := Backend.wait l.pool.memory 1 l.backend
    (outcome, { l with backend })
  let _ ← liftExcept outcome
  modifyGet fun l =>
    let (batch, backend) := Backend.drain l.backend
    (batch, { l with backend })

/-- The last part of a turn. -/
def conclude (batch : List Completion) : LoopM β ρ σ Nat := do
  flush
  count fun n =>
    { n with turns := n.turns + 1, completions := n.completions + .ofNat batch.length }
  return batch.length

/-- What the dispatch of a batch does; a fault ends it. -/
def occurrences : List Completion → Watched β ρ σ → List Occurrence
  | [], _ => []
  | c :: batch, l =>
    match exec (dispatch c) l with
    | (.ok _, m) => seen (some c) l m :: occurrences batch m
    | (.error _, m) => [seen (some c) l m]

/-- What a turn does. -/
def turnOccurrences (l : Watched β ρ σ) : List Occurrence :=
  match exec collect l with
  | (.ok batch, m) => occurrences batch m
  | (.error _, _) => []

theorem turnOccurrences_of_single {c : Completion} {l m : Watched β ρ σ}
    (hc : exec collect l = (.ok [c], m)) :
    turnOccurrences l = [seen (some c) m (exec (dispatch c) m).2] := by
  rw [turnOccurrences, hc]
  simp only [occurrences]
  rcases exec (dispatch c) m with ⟨e | a, n⟩ <;> rfl

omit [BufferSource ρ] in
/-- Only the backend changes while a turn waits. -/
theorem Keeps.collect {R : StepRelation β ρ σ} (hR : Composable R) (fails : ∀ l x, R l x l)
    (wait : ∀ l : EventLoop β ρ σ,
      R l none { l with backend := (Backend.wait l.pool.memory 1 l.backend).2 })
    (drain : ∀ l : EventLoop β ρ σ, R l none { l with backend := (Backend.drain l.backend).2 }) :
    Keeps R EventLoop.collect := by
  refine Keeps.bind hR wait fun outcome => Keeps.bind hR (fun l => ?_) fun _ => drain
  rw [Ends, exec_liftExcept]
  exact fails l _

omit [BufferSource ρ] in
/-- Only the backend and the counters change at the end of a turn. -/
theorem Keeps.conclude {R : StepRelation β ρ σ} (hR : Composable R)
    (flush : ∀ (l : EventLoop β ρ σ) x,
      R l x { l with backend := (Backend.flush l.pool.memory l.backend).2 })
    (count : ∀ (l : EventLoop β ρ σ) n, R l none { l with counters := n })
    (batch : List Completion) : Keeps R (EventLoop.conclude batch) :=
  Keeps.bind hR (Keeps.flush flush) fun _ =>
    Keeps.bind hR (fun l => count l _) fun _ => Keeps.pure hR _

theorem turn_eq : (turn : LoopM β ρ σ Nat) =
    collect >>= fun batch => batch.forM dispatch >>= fun _ => conclude batch := by
  simp only [turn, collect, conclude, bind_assoc]

end

theorem Idle.refl (l : Watched β ρ σ) : Idle l l := ⟨rfl, rfl, rfl, rfl, rfl, rfl⟩

theorem Idle.trans {l m n : Watched β ρ σ} (h : Idle l m) (h' : Idle m n) : Idle l n where
  pushed := h'.pushed.trans h.pushed
  refusals := h'.refusals.trans h.refusals
  pool := h'.pool.trans h.pool
  handler := h'.handler.trans h.handler
  handlerState := h'.handlerState.trans h.handlerState
  connections := h'.connections.trans h.connections

theorem Aside.idle {l m : Watched β ρ σ} (h : Aside l m) : Idle l m := by
  rw [h]
  exact ⟨rfl, rfl, rfl, rfl, rfl, rfl⟩

theorem idle_composable : Composable fun (l : Watched β ρ σ) _ m => Idle l m :=
  ⟨Idle.refl, Idle.trans⟩

section

variable [Backend β]

theorem idle_flush : Keeps (fun (l : Watched β ρ σ) _ m => Idle l m) flush :=
  Keeps.flush fun _ _ => ⟨rfl, rfl, rfl, rfl, rfl, rfl⟩

theorem idle_collect : Keeps (fun (l : Watched β ρ σ) _ m => Idle l m) collect :=
  Keeps.collect idle_composable (fun l _ => Idle.refl l) (fun _ => ⟨rfl, rfl, rfl, rfl, rfl, rfl⟩)
    fun _ => ⟨rfl, rfl, rfl, rfl, rfl, rfl⟩

theorem idle_conclude (batch : List Completion) :
    Keeps (fun (l : Watched β ρ σ) _ m => Idle l m) (conclude batch) :=
  Keeps.conclude idle_composable (fun _ _ => ⟨rfl, rfl, rfl, rfl, rfl, rfl⟩)
    (fun _ _ => ⟨rfl, rfl, rfl, rfl, rfl, rfl⟩) batch

end

variable {start l m : Watched β ρ σ} {h : List Occurrence}

section

variable [Backend β] [BufferSource ρ]

theorem Reached.batch (hr : Reached start h l) (batch : List Completion) :
    Reached start (h ++ occurrences batch l) (exec (batch.forM dispatch) l).2 := by
  induction batch generalizing h l with
  | nil =>
    rw [occurrences, List.append_nil]
    exact hr
  | cons c batch ih =>
    have first := hr.step (.dispatch c)
    show Reached start _ (exec (dispatch c >>= fun _ =>
      batch.forM dispatch) l).2
    rcases hc : exec (dispatch c) l with ⟨e | a, m⟩
    · rw [occurrences, exec_bind_error hc, hc]
      rw [hc] at first
      exact first
    · rw [occurrences, exec_bind_ok hc, hc]
      rw [hc] at first
      have rest := ih first
      rwa [List.append_assoc] at rest

/-- A turn either ends while it waits, or it dispatches a batch and submits what the dispatches
queued, unless one of them was a fault. -/
theorem turn_cases (l : Watched β ρ σ) :
    (∃ e m, exec collect l = (.error e, m) ∧ turnOccurrences l = [] ∧ (exec turn l).2 = m) ∨
    ∃ batch m, exec collect l = (.ok batch, m) ∧ turnOccurrences l = occurrences batch m ∧
      ((exec turn l).2 = (exec (batch.forM dispatch) m).2 ∨
        (exec turn l).2 = (exec (conclude batch) (exec (batch.forM dispatch) m).2).2) := by
  rw [turn_eq, turnOccurrences]
  rcases hc : exec collect l with ⟨e | batch, m⟩
  · exact Or.inl ⟨e, m, rfl, rfl, by rw [exec_bind_error hc]⟩
  · refine Or.inr ⟨batch, m, rfl, rfl, ?_⟩
    rw [exec_bind_ok hc]
    rcases hd : exec (batch.forM dispatch) m with ⟨e | a, k⟩
    · exact Or.inl (by rw [exec_bind_error hd])
    · exact Or.inr (by rw [exec_bind_ok hd])

/-- What every dispatch keeps, and the beginning and the end of a turn, a turn keeps. -/
theorem turn_induction {P : Watched β ρ σ → Prop} (hl : P l)
    (collected : ∀ l, P l → P (exec collect l).2)
    (dispatched : ∀ c l, P l → P (exec (dispatch c) l).2)
    (concluded : ∀ batch l, P l → P (exec (conclude batch) l).2) : P (exec turn l).2 := by
  have through : ∀ (batch : List Completion) l, P l → P (exec (batch.forM dispatch) l).2 := by
    intro batch
    induction batch with
    | nil => exact fun _ h => h
    | cons c batch ih =>
      intro l h
      have first := dispatched c l h
      show P (exec (dispatch c >>= fun _ => batch.forM dispatch) l).2
      rcases hc : exec (dispatch c) l with ⟨e | a, m⟩
      · rw [exec_bind_error hc]
        rwa [hc] at first
      · rw [exec_bind_ok hc]
        rw [hc] at first
        exact ih m first
  have ready := collected l hl
  rcases turn_cases l with ⟨e, m, hc, -, ended⟩ | ⟨batch, m, hc, -, ended⟩
  · rw [hc] at ready
    rwa [ended]
  · rw [hc] at ready
    rcases ended with ended | ended
    · rw [ended]
      exact through batch m ready
    · rw [ended]
      exact concluded batch _ (through batch m ready)

/-- A turn is part of a run, however it ends. -/
theorem Reached.turn (hr : Reached start h l) :
    Reached start (h ++ turnOccurrences l) (exec turn l).2 := by
  have ready := idle_collect l
  rcases turn_cases l with ⟨e, m, hc, quiet, ended⟩ | ⟨batch, m, hc, happened, ended⟩
  · rw [quiet, ended, List.append_nil]
    exact hr.idle (ready.to_exec hc)
  · have dispatched := (hr.idle (ready.to_exec hc)).batch batch
    rw [happened]
    rcases ended with ended | ended
    · rw [ended]
      exact dispatched
    · rw [ended]
      exact dispatched.idle (idle_conclude batch _)

/-- What is submitted at the end of a turn is no push. -/
theorem refusals_turn {batch : List Completion} (hc : exec collect l = (.ok batch, m)) :
    (exec (batch.forM dispatch) m).2.backend.refusals = (exec turn l).2.backend.refusals := by
  rw [turn_eq, exec_bind_ok hc]
  rcases hd : exec (batch.forM dispatch) m with ⟨e | a, n⟩
  · rw [exec_bind_error hd]
  · rw [exec_bind_ok hd, (idle_conclude batch n).refusals]

end

/-! ## What a step adds -/

/-- A relation between the loop before a step, what it pushed, the calls it made, the fault that
ended it, if one did, and the loop after it. -/
abbrev TraceRelation (β ρ σ : Type) :=
  List Submission → List Call → StepRelation (Journal β) ρ (σ × List Call)

/-- The handler notes its calls. -/
def Recording (l : Watched β ρ σ) : Prop := ∃ handler : Handler σ, l.handler = handler.recording

theorem recording_of_new [BufferSource ρ] {backend : β} {pool : SlotPool} {rings : List ρ}
    {handler : Handler σ} {state : σ} {settings : Settings}
    (hn : EventLoop.new (.of backend) pool rings handler.recording (state, [])
      settings = .ok start) :
    Recording start ∧ start.backend.refusals = 0 := by
  obtain ⟨hb, -, hh, -⟩ := new_eq_ok hn
  exact ⟨⟨handler, hh⟩, by rw [hb]; rfl⟩

/-- What is new in the journal and among the calls. -/
structure Adds (ps : List Submission) (cs : List Call) (l m : Watched β ρ σ) : Prop where
  handler : m.handler = l.handler
  journal : m.backend.pushed = l.backend.pushed ++ ps
  calls : m.handlerState.2 = l.handlerState.2 ++ cs
  refusals : l.backend.refusals ≤ m.backend.refusals

/-- A step only adds to what was pushed and called. If all its pushes were accepted, `T` holds of
what it added. -/
def Traced (T : TraceRelation β ρ σ) : StepRelation (Journal β) ρ (σ × List Call) := fun l x m =>
  Recording l → ∃ ps cs, Adds ps cs l m ∧
    (m.backend.refusals = l.backend.refusals → T ps cs l x m)

/-- A trace relation that holds of idling and passes through an intermediate loop. -/
structure Chains (T : TraceRelation β ρ σ) : Prop where
  idle : ∀ {l m}, Idle l m → T [] [] l none m
  after : ∀ {ps cs l x m n}, T ps cs l x m → Idle m n → T ps cs l x n
  trans : ∀ {ps cs qs ds l m x n}, T ps cs l none m → T qs ds m x n → T (ps ++ qs) (cs ++ ds) l x n

theorem Adds.of_idle (hi : Idle l m) : Adds [] [] l m where
  handler := hi.handler
  journal := by rw [hi.pushed, List.append_nil]
  calls := by rw [hi.handlerState, List.append_nil]
  refusals := Nat.le_of_eq hi.refusals.symm

theorem Adds.trans {n : Watched β ρ σ} {ps qs : List Submission} {cs ds : List Call}
    (h : Adds ps cs l m) (h' : Adds qs ds m n) : Adds (ps ++ qs) (cs ++ ds) l n where
  handler := h'.handler.trans h.handler
  journal := by rw [h'.journal, h.journal, List.append_assoc]
  calls := by rw [h'.calls, h.calls, List.append_assoc]
  refusals := Nat.le_trans h.refusals h'.refusals

/-- Only the journal, the calls and the handler matter of the loop before. -/
theorem Adds.of_eq {ps : List Submission} {cs : List Call} {k : Watched β ρ σ}
    (h : Adds ps cs k m) (hh : k.handler = l.handler) (hb : k.backend = l.backend)
    (hs : k.handlerState = l.handlerState) : Adds ps cs l m where
  handler := h.handler.trans hh
  journal := by rw [h.journal, hb]
  calls := by rw [h.calls, hs]
  refusals := by
    rw [← hb]
    exact h.refusals

theorem Adds.recording {ps : List Submission} {cs : List Call} (h : Adds ps cs l m)
    (hl : Recording l) : Recording m := by
  obtain ⟨handler, e⟩ := hl
  exact ⟨handler, h.handler.trans e⟩

theorem Adds.seen_eq {ps : List Submission} {cs : List Call} (h : Adds ps cs l m)
    (c : Option Completion) : seen c l m = ⟨c, l.peerOf, ps, cs⟩ := by
  rw [seen, h.journal, h.calls, List.drop_left, List.drop_left]

variable {T : TraceRelation β ρ σ}

theorem Chains.composable (hT : Chains T) : Composable (Traced T) where
  refl := fun l _ => ⟨[], [], .of_idle (Idle.refl l), fun _ => hT.idle (Idle.refl l)⟩
  trans := by
    intro l m n x first second hl
    obtain ⟨ps, cs, added, kept⟩ := first hl
    obtain ⟨qs, ds, added', kept'⟩ := second (added.recording hl)
    refine ⟨ps ++ qs, cs ++ ds, added.trans added', fun he => ?_⟩
    have hm := added.refusals
    have hn := added'.refusals
    exact hT.trans (kept (by omega)) (kept' (by omega))

theorem Chains.traced_after (hT : Chains T) {l m n : Watched β ρ σ} {x : Option Fault}
    (h : Traced T l x m) (hi : Idle m n) : Traced T l x n := by
  intro hl
  obtain ⟨ps, cs, added, kept⟩ := h hl
  have added' := added.trans (Adds.of_idle hi)
  rw [List.append_nil, List.append_nil] at added'
  exact ⟨ps, cs, added', fun he => hT.after (kept (by rw [← he, hi.refusals])) hi⟩

/-- A push that is accepted is noted, one that is refused is counted. -/
theorem submit_cases [Backend β] (tag : Tag) (operation : Operation) (l : Watched β ρ σ) :
    (∃ inner, exec (submit tag operation) l = (.ok (), { l with backend :=
      ⟨inner, l.backend.pushed ++ [⟨tag, operation⟩], l.backend.refusals⟩ })) ∨
    ∃ e inner, exec (submit tag operation) l = (.error e, { l with backend :=
      ⟨inner, l.backend.pushed, l.backend.refusals + 1⟩ }) := by
  have pushes : Backend.push l.pool.memory ⟨tag, operation⟩ l.backend =
    Journal.push l.pool.memory ⟨tag, operation⟩ l.backend := rfl
  rw [exec_submit, pushes, Journal.push]
  rcases Backend.push l.pool.memory ⟨tag, operation⟩ l.backend.inner with ⟨e | a, inner⟩
  · exact Or.inr ⟨e, inner, rfl⟩
  · exact Or.inl ⟨inner, rfl⟩

theorem Adds.refused (l : Watched β ρ σ) (inner : β) : Adds [] [] l { l with backend :=
    ⟨inner, l.backend.pushed, l.backend.refusals + 1⟩ } where
  handler := rfl
  journal := (List.append_nil _).symm
  calls := (List.append_nil _).symm
  refusals := Nat.le_succ _

theorem Adds.pushed (l : Watched β ρ σ) (inner : β) (s : Submission) : Adds [s] [] l { l with
    backend := ⟨inner, l.backend.pushed ++ [s], l.backend.refusals⟩ } where
  handler := rfl
  journal := rfl
  calls := (List.append_nil _).symm
  refusals := Nat.le_refl _

/-- A push right after a change of the table. -/
theorem traced_submit [Backend β] {tag : Tag} {operation : Operation} {t : ConnectionTable}
    (h : ∀ inner, T [⟨tag, operation⟩] [] l none { l with
      connections := t
      backend := ⟨inner, l.backend.pushed ++ [⟨tag, operation⟩], l.backend.refusals⟩ }) :
    Traced T l (fault? (exec (submit tag operation) { l with connections := t }).1)
      (exec (submit tag operation) { l with connections := t }).2 := by
  intro _
  rcases submit_cases tag operation { l with connections := t } with
    ⟨inner, e⟩ | ⟨fault, inner, e⟩
  · rw [e]
    exact ⟨_, _, (Adds.pushed _ inner _).of_eq rfl rfl rfl, fun _ => h inner⟩
  · rw [e]
    exact ⟨_, _, (Adds.refused _ inner).of_eq rfl rfl rfl,
      fun he => absurd he (Nat.succ_ne_self _)⟩

/-- A call of the handler is noted. -/
theorem traced_call {fd : Descriptor} {payload : Bytes}
    (h : T [] [(fd, payload)] l none
      { l with handlerState := (l.handler.respond l.handlerState fd payload).2 }) :
    Traced T l none { l with handlerState := (l.handler.respond l.handlerState fd payload).2 } := by
  rintro ⟨handler, e⟩
  refine ⟨[], [(fd, payload)], ⟨rfl, (List.append_nil _).symm, ?_, Nat.le_refl _⟩, fun _ => h⟩
  rw [e]
  rfl

/-! ## Invariants of runs -/

/-- The loop after the change with which a step begins, if it is a dispatch. -/
def begun (c : Option Completion) (l : Watched β ρ σ) : Watched β ρ σ :=
  c.elim l fun c => prepared c l

/-- A step begins with the table, if with anything. -/
theorem begun_eq (c : Option Completion) (l : Watched β ρ σ) :
    begun c l = { l with connections := (begun c l).connections } := by
  cases c with
  | none => rfl
  | some c => exact prepared_eq c l

section

variable [Backend β] [BufferSource ρ]

/-- What an invariant of histories and loops has to survive. -/
structure Survives (T : TraceRelation β ρ σ) (Inv : List Occurrence → Watched β ρ σ → Prop) :
    Prop where
  idle : ∀ {h l m}, Inv h l → Idle l m → Inv h m
  step : ∀ {h l m} (c : Option Completion) {ps cs x}, Inv h l →
    c.bind (·.tag.opcode?) ≠ some .writeFixed → Recording l → Takes l ⟨c, l.peerOf, ps, cs⟩ m →
    Adds ps cs l m → T ps cs (begun c l) x m → Inv (h ++ [⟨c, l.peerOf, ps, cs⟩]) m
  released : ∀ {h l m} (c : Completion) {x}, Inv h l → c.tag.opcode? = some .writeFixed →
    exec (dispatch c) l = (x, m) → Inv (h ++ [⟨some c, l.peerOf, [], []⟩]) m

/-- The completion of a fixed write changes nothing but the pool. -/
theorem idle_released {c : Completion} {x : Except Fault Unit}
    (hw : c.tag.opcode? = some .writeFixed) (he : exec (dispatch c) l = (x, m)) :
    ∃ pool, Idle { l with pool := pool } m := by
  by_cases hd : c.tag.descriptor.toNat ≤ FreeList.maxSlots
  · obtain ⟨n, ha, e⟩ := exec_dispatch_writeFixed (l := l) hw hd
    have hi := ha.idle
    rw [he] at e
    generalize l.pool.release c.tag.descriptor.toUInt16 = released at e
    rcases released with f | pool
    · cases e
      exact ⟨l.pool, ha.idle⟩
    · cases e
      exact ⟨pool, hi.pushed, hi.refusals, rfl, hi.handler, hi.handlerState, hi.connections⟩
  · rw [exec_dispatch_writeFixed_of_lt hw (by omega)] at he
    cases he
    exact ⟨l.pool, Idle.refl l⟩

theorem traced_listen (hT : Chains T) (hA : Allows (Traced T)) (fd : Descriptor)
    (l : Watched β ρ σ) : ∃ x, Traced T l x (exec (listen fd) l).2 := by
  have rest : Keeps (fun (l : Watched β ρ σ) _ m => Idle l m)
      (flush >>= fun _ => emit .info "accepting connections" [("fd", toString fd)]) :=
    Keeps.bind idle_composable idle_flush fun _ => fun _ => ⟨rfl, rfl, rfl, rfl, rfl, rfl⟩
  have noted : Idle l { l with listener := some fd } := ⟨rfl, rfl, rfl, rfl, rfl, rfl⟩
  have first := hT.traced_after (hT.composable.refl l) noted
  unfold listen
  rw [exec_bind_ok (exec_modify _ l)]
  rcases ha : exec (armAccept fd) { l with listener := some fd } with ⟨e | a, n⟩
  · have armed := hT.composable.trans first ((hA.armAccept fd _).to_exec ha)
    rw [exec_bind_error ha]
    exact ⟨_, armed⟩
  · have armed := hT.composable.trans first ((hA.armAccept fd _).to_exec ha)
    rw [exec_bind_ok ha]
    exact ⟨_, hT.traced_after armed (rest n)⟩

variable {Inv : List Occurrence → Watched β ρ σ → Prop}

/-- What survives every step holds wherever a run leads, as long as all pushes are accepted. -/
theorem Reached.invariant (hT : Chains T) (hA : Allows (Traced T)) (hI : Survives T Inv)
    (hs : Recording start) (h0 : Inv [] start) (hr : Reached start h l) :
    Recording l ∧ start.backend.refusals ≤ l.backend.refusals ∧
      (l.backend.refusals = start.backend.refusals → Inv h l) := by
  induction hr with
  | start => exact ⟨hs, Nat.le_refl _, fun _ => h0⟩
  | @step h l m o hr taken ih =>
    obtain ⟨recording, le, inv⟩ := ih
    -- A step that is no completion of a fixed write, from what is known of its parts.
    have traced_step : ∀ (c : Option Completion) {x}, o = seen c l m →
        c.bind (·.tag.opcode?) ≠ some .writeFixed → Traced T (begun c l) x m →
        Recording m ∧ start.backend.refusals ≤ m.backend.refusals ∧
          (m.backend.refusals = start.backend.refusals → Inv (h ++ [o]) m) := by
      intro c x ho hw traced
      have begins : Recording (begun c l) := by
        rw [begun_eq]
        exact recording
      obtain ⟨ps, cs, added, kept⟩ := traced begins
      have added' := added.of_eq (l := l) (by rw [begun_eq]) (by rw [begun_eq]) (by rw [begun_eq])
      have hle := added'.refusals
      rw [ho, added'.seen_eq] at taken
      refine ⟨added'.recording recording, by omega, fun he => ?_⟩
      rw [ho, added'.seen_eq]
      refine hI.step c (inv (by omega)) hw recording taken added' (kept ?_)
      rw [begun_eq]
      show m.backend.refusals = l.backend.refusals
      omega
    cases taken with
    | listen fd =>
      obtain ⟨x, traced⟩ := traced_listen hT hA fd l
      exact traced_step none rfl (by simp) traced
    | log level message => exact traced_step none rfl (by simp) (hA.log level message l)
    | dispatch c =>
      by_cases hw : c.tag.opcode? = some .writeFixed
      · rcases he : exec (EventLoop.dispatch c) l with ⟨x, m⟩
        obtain ⟨pool, hi⟩ := idle_released hw he
        have added : Adds [] [] l m := (Adds.of_idle hi).of_eq rfl rfl rfl
        have same : m.backend.refusals = l.backend.refusals := hi.refusals
        rw [added.seen_eq]
        refine ⟨added.recording recording, ?_, fun hn => ?_⟩
        · show start.backend.refusals ≤ m.backend.refusals
          rw [same]
          exact le
        · exact hI.released c (inv (same.symm.trans hn)) hw he
      · exact traced_step (some c) rfl hw (dispatch_ends hA c l hw)
  | idle hr hi ih =>
    refine ⟨(Adds.of_idle hi).recording ih.1, ?_, fun he => hI.idle (ih.2.2 ?_) hi⟩
    · rw [hi.refusals]
      exact ih.2.1
    · rw [← hi.refusals]
      exact he

end

/-- A place in a history that has grown by one step is the new place or was there before. -/
theorem append_singleton_eq {h a b : List α} {o x : α} (e : h ++ [o] = a ++ x :: b) :
    (a = h ∧ x = o ∧ b = []) ∨ ∃ b', b = b' ++ [o] ∧ h = a ++ x :: b' := by
  rcases List.eq_nil_or_concat b with rfl | ⟨b', y, rfl⟩
  · obtain ⟨rfl, e'⟩ := List.append_inj' e rfl
    cases e'
    exact Or.inl ⟨rfl, rfl, rfl⟩
  · rw [List.concat_eq_append, ← List.cons_append, ← List.append_assoc] at e
    obtain ⟨rfl, e'⟩ := List.append_inj' e rfl
    cases e'
    exact Or.inr ⟨b', by simp, rfl⟩

/-! ## A loop without a kernel -/

/-- A new pool of two slots. -/
def twoSlots : SlotPool := (SlotPool.new 1024 64 2).toOption.get rfl

/-- A new loop over two slots and four buffers that returns what it receives. -/
def echoing : Watched Recorder BufferQueue Unit :=
  (EventLoop.new (.of .new) twoSlots [BufferQueue.new 0 4 64]
    (ReplyMode.handler .echo).recording ((), []) .default).toOption.get rfl

theorem new_twoSlots : SlotPool.new 1024 64 2 = .ok twoSlots := rfl

theorem new_echoing : EventLoop.new (.of .new) twoSlots [BufferQueue.new 0 4 64]
    (ReplyMode.handler .echo).recording ((), []) .default = .ok echoing := rfl

/-- The completions are ready to be taken. -/
def ready (batch : List Completion) (l : Watched Recorder BufferQueue Unit) :
    Watched Recorder BufferQueue Unit :=
  { l with backend := { l.backend with inner := { l.backend.inner with ready := batch } } }

theorem idle_ready (batch : List Completion) (l : Watched Recorder BufferQueue Unit) :
    Idle l (ready batch l) :=
  ⟨rfl, rfl, rfl, rfl, rfl, rfl⟩

end EventLoop

end RingServer
