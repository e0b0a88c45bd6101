import Mathlib.Data.List.Forall2
import RingServer.Proofs.Loop.Attempts

/-!
What fixed writes send, along every run. A `Posting` is a step of a run with the letters that it
occasions and what it tries to push; `Posted start ps l` says that a run leads to `l` with these
postings. Along a run the fixed writes carry the letters of their own steps, in order, and the bytes
of each stand unchanged in its slot until a completion brings that slot back (`Upheld`). The replies
among the letters are those of the handler to its calls (`fixed_writes_carry_letters`).
-/

namespace RingServer

open Text (Bytes)

/-- A step of a run, with what it was to send from slots and what it tried to push. -/
structure Posting where
  occurrence : Occurrence
  clock : Nat → Instant
  /-- The first reading of the clock that the step could take. -/
  reading : Nat
  letters : List Letter
  attempts : List Attempt

namespace Posting

/-- The step as it would be, had no push been refused. -/
def tried (p : Posting) : Occurrence :=
  { p.occurrence with pushed := p.attempts.map (·.submission) }

/-- What the step tried: fixed writes that carry its letters, each within its slot, and nothing
after an attempt that was refused. -/
structure Sound (size : Nat) (p : Posting) : Prop where
  pushed : p.occurrence.pushed = (p.attempts.filter (·.accepted)).map (·.submission)
  last : ∀ a ∈ p.attempts.dropLast, a.accepted = true
  fits : ∀ a ∈ p.attempts, a.Fits size
  carried : size < UInt32.size →
    ∃ n, Matches size p.clock p.reading (p.attempts.filter (·.slot?.isSome)) p.letters n

end Posting

namespace EventLoop

variable {β ρ σ : Type}

/-- What is to be done about a completion, if its buffer can be taken. -/
def planned [BufferSource ρ] (c : Completion) (l : EventLoop β ρ σ) : List Deed :=
  match (grasp c l.ring).1 with
  | .ok buffer => plan c buffer { l with ring := (grasp c l.ring).2 }
  | .error _ => []

/-- What was done and tried between two loops of a run. -/
def posted (c : Option Completion) (letters : List Letter) (l m : Watched (Register β) ρ σ) :
    Posting where
  occurrence := seen c l m
  clock := l.clock
  reading := l.readings
  letters := letters
  attempts := m.backend.inner.attempts.drop l.backend.inner.attempts.length

section

variable [Backend β] [BufferSource ρ]

/-- A run from `start` leads to a loop, and these are its postings. -/
inductive Posted (start : Watched (Register β) ρ σ) :
    List Posting → Watched (Register β) ρ σ → Prop
  | start : Posted start [] start
  | listen {ps : List Posting} {l : Watched (Register β) ρ σ} (fd : Descriptor) :
    Posted start ps l →
    Posted start (ps ++ [posted none [] l (exec (listen fd) l).2]) (exec (listen fd) l).2
  | log {ps : List Posting} {l : Watched (Register β) ρ σ} (level : Level) (message : String) :
    Posted start ps l →
    Posted start (ps ++ [posted none [.line level message] l (exec (writeLog level message) l).2])
      (exec (writeLog level message) l).2
  | dispatch {ps : List Posting} {l : Watched (Register β) ρ σ} (c : Completion) :
    Posted start ps l →
    Posted start (ps ++ [posted (some c) (lettersOf l.handler l.handlerState (planned c l)) l
      (exec (dispatch c) l).2]) (exec (dispatch c) l).2
  | idle {ps : List Posting} {l m : Watched (Register β) ρ σ} : Posted start ps l → Idle l m →
    m.backend.inner.attempts = l.backend.inner.attempts → m.listener = l.listener →
    Posted start ps m

variable {start l m k : Watched (Register β) ρ σ} {ps : List Posting} {flying : List UInt16}
  {c : Option Completion} {cs : List (Opcode × Descriptor)} {ls : List Letter}
  {as : List Attempt} {x : Option Fault} {size : Nat}

/-! ## Steps -/

omit [Backend β] [BufferSource ρ] in
/-- What is not tried changes neither connections nor the listener, and no setting. -/
structure Rests (l : Watched (Register β) ρ σ) (_ : Option Fault) (m : Watched (Register β) ρ σ) :
    Prop extends Untried l m where
  connections : m.connections = l.connections
  listener : m.listener = l.listener
  accessLog : m.accessLog = l.accessLog

omit [Backend β] [BufferSource ρ] in
theorem Rests.idle (h : Rests l x m) : Idle l m :=
  ⟨h.pushed, h.refusals, h.pool, h.handler, h.handlerState, h.connections⟩

omit [Backend β] [BufferSource ρ] in
theorem rests_composable :
    Composable (Rests : StepRelation (Journal (Register β)) ρ (σ × List Call)) where
  refl l := ⟨.refl l, rfl, rfl, rfl⟩
  trans h h' := ⟨⟨h'.handler.trans h.handler, h'.handlerState.trans h.handlerState,
    h'.clock.trans h.clock, h'.readings.trans h.readings, h'.attempts.trans h.attempts,
    h'.pushed.trans h.pushed, h'.refusals.trans h.refusals, h'.pool.trans h.pool⟩,
    h'.connections.trans h.connections, h'.listener.trans h.listener,
    h'.accessLog.trans h.accessLog⟩

omit [Backend β] [BufferSource ρ] in
theorem rests_emit (level : Level) (message : String) (fields : List (String × String)) :
    Keeps (Rests : StepRelation (Journal (Register β)) ρ (σ × List Call))
      (emit level message fields) :=
  fun _ => ⟨⟨rfl, rfl, rfl, rfl, rfl, rfl, rfl, rfl⟩, rfl, rfl, rfl⟩

omit [BufferSource ρ] in
theorem rests_flush :
    Keeps (Rests : StepRelation (Journal (Register β)) ρ (σ × List Call)) flush :=
  Keeps.flush fun _ _ => ⟨⟨rfl, rfl, rfl, rfl, rfl, rfl, rfl, rfl⟩, rfl, rfl, rfl⟩

omit [BufferSource ρ] in
theorem rests_collect :
    Keeps (Rests : StepRelation (Journal (Register β)) ρ (σ × List Call)) collect :=
  Keeps.collect rests_composable (fun l _ => ⟨.refl l, rfl, rfl, rfl⟩)
    (fun _ => ⟨⟨rfl, rfl, rfl, rfl, rfl, rfl, rfl, rfl⟩, rfl, rfl, rfl⟩)
    fun _ => ⟨⟨rfl, rfl, rfl, rfl, rfl, rfl, rfl, rfl⟩, rfl, rfl, rfl⟩

omit [BufferSource ρ] in
theorem rests_conclude (batch : List Completion) :
    Keeps (Rests : StepRelation (Journal (Register β)) ρ (σ × List Call)) (conclude batch) :=
  Keeps.conclude rests_composable
    (fun _ _ => ⟨⟨rfl, rfl, rfl, rfl, rfl, rfl, rfl, rfl⟩, rfl, rfl, rfl⟩)
    (fun _ _ => ⟨⟨rfl, rfl, rfl, rfl, rfl, rfl, rfl, rfl⟩, rfl, rfl, rfl⟩) batch

omit [Backend β] [BufferSource ρ] in
theorem posted_attempts (h : m.backend.inner.attempts = l.backend.inner.attempts ++ as) :
    (posted c ls l m).attempts = as := by
  rw [posted, h, List.drop_left]

/-- A dispatch tries what is planned, up to the first push that is refused. -/
theorem dispatch_tried {c : Completion} (hw : c.tag.opcode? ≠ some .writeFixed)
    (hl : l.pool.Lends flying) : ∃ done as x, Tried flying (planned c l) done as
      { l with ring := (grasp c l.ring).2 } x (exec (dispatch c) l).2 := by
  rcases dispatch_performs hw l with ⟨e, hg, he⟩ | ⟨buffer, hg, performs⟩
  · rw [he, planned, hg]
    exact ⟨[], [], none, tried_nil hl⟩
  · rw [planned, hg]
    obtain ⟨done, as, tried⟩ := performs.tries hl
    exact ⟨done, as, _, tried⟩

/-- The completion of a fixed write takes its slot back, if it was lent, and changes nothing
else. -/
theorem dispatch_released {c : Completion} (hw : c.tag.opcode? = some .writeFixed)
    (hl : l.pool.Lends flying) :
    ∃ pool, pool.Lends (flying.filter fun i => !c.ends i) ∧ pool.memory = l.pool.memory ∧
      pool.entrySize = l.pool.entrySize ∧
      Aside { l with pool := pool } (exec (dispatch c) l).2 := by
  -- A tag that names no slot in flight.
  have passes : (∀ i ∈ flying, c.ends i = false) → flying.filter (fun i => !c.ends i) = flying := by
    intro h
    rw [List.filter_eq_self]
    intro i hi
    rw [h i hi]
    rfl
  by_cases hd : c.tag.descriptor.toNat ≤ FreeList.maxSlots
  · have named := (toUInt32_toUInt16 hd).symm
    obtain ⟨n, aside, e⟩ := exec_dispatch_writeFixed (l := l) hw hd
    by_cases member : c.tag.descriptor.toUInt16 ∈ flying
    · obtain ⟨pool, hp, -, lends⟩ := hl.release member
      obtain ⟨memory, entrySize⟩ := SlotPool.release_eq_ok hp
      have fewer : flying.filter (fun i => !c.ends i) =
          flying.filter (· ≠ c.tag.descriptor.toUInt16) := by
        apply List.filter_congr
        intro i _
        simp [← ends_iff hw named]
      rw [hp] at e
      rw [e, fewer]
      refine ⟨pool, lends, memory, entrySize, ?_⟩
      rw [aside]
      rfl
    · rw [hl.release_of_not_mem member] at e
      rw [e, passes fun i hi => ?_]
      · exact ⟨l.pool, hl, rfl, rfl, aside⟩
      · rw [Bool.eq_false_iff, ne_eq, ends_iff hw named]
        exact fun same => member (same ▸ hi)
  · rw [exec_dispatch_writeFixed_of_lt hw (by omega), passes fun i _ => ?_]
    · exact ⟨l.pool, hl, rfl, rfl, rfl⟩
    · have other : c.tag.descriptor ≠ i.toUInt32 := by
        intro same
        rw [same] at hd
        exact hd (toNat_toUInt32_le i)
      simp [Completion.ends, other]

/-- Listening notes the descriptor, and tries to arm an accept. -/
theorem tries_listen (fd : Descriptor) (hl : l.pool.Lends flying) :
    ∃ as x, Tries flying [(.accept, fd)] [] as l x (exec (listen fd) l).2 ∧
      (exec (listen fd) l).2.connections = l.connections ∧
      (exec (listen fd) l).2.listener = some fd ∧
      (exec (listen fd) l).2.accessLog = l.accessLog := by
  have noted : Untried l (heeded [.armAccept fd] { l with listener := some fd }) :=
    ⟨rfl, rfl, rfl, rfl, rfl, rfl, rfl, rfl⟩
  obtain ⟨as, tried⟩ := (Deed.armAccept fd).tries (l := { l with listener := some fd }) hl
  unfold listen
  rw [exec_bind_ok (exec_modify _ l)]
  rcases ha : exec (armAccept fd) { l with listener := some fd } with ⟨e | a, n⟩
  · have left := Deed.leaves (d := .armAccept fd) ha
    rw [show exec (Deed.armAccept fd).run _ = _ from ha] at tried
    rw [exec_bind_error ha]
    exact ⟨as, _, tried.before noted, left.connections, left.listener, left.accessLog⟩
  · have left := Deed.leaves (d := .armAccept fd) ha
    rw [show exec (Deed.armAccept fd).run _ = _ from ha] at tried
    rw [exec_bind_ok ha]
    have rests := rests_flush.bind rests_composable (fun _ =>
      rests_emit .info "accepting connections" [("fd", toString fd)]) n
    exact ⟨as, _, (tried.before noted).after rests.toUntried,
      rests.connections.trans left.connections, rests.listener.trans left.listener,
      rests.accessLog.trans left.accessLog⟩

/-! ## Along a run -/

omit [Backend β] [BufferSource ρ]

/-- The slots that the kernel owns are those of the fixed writes that were tried and not completed
since, and what these would send stands as it was when they were tried. -/
structure Upheld (size : Nat) (ps : List Posting) (l : Watched (Register β) ρ σ) : Prop where
  entrySize : l.pool.entrySize = size
  lends : l.pool.Lends (inFlight (ps.map Posting.tried))
  attempts : l.backend.inner.attempts = ps.flatMap (·.attempts)
  pushed : l.backend.pushed = ((ps.flatMap (·.attempts)).filter (·.accepted)).map (·.submission)
  refusals : l.backend.refusals = ((ps.flatMap (·.attempts)).filter (!·.accepted)).length
  sound : ∀ p ∈ ps, p.Sound size
  standing : ∀ a p b w i, ps = a ++ p :: b → w ∈ p.attempts → w.slot? = some i →
    (∀ q ∈ b, q.occurrence.completion.any (·.ends i) = false) →
    i ∈ inFlight (ps.map Posting.tried) ∧ w.submission.bytes l.pool.memory = w.bytes

/-- Nothing has been tried on a new loop. -/
theorem upheld_of_new [BufferSource ρ] {backend : β} {pool : SlotPool} {memory : Memory}
    {rings : List ρ} {handler : Handler (σ × List Call)} {state : σ × List Call}
    {settings : Settings} {granted entrySize entries : Nat}
    (hp : SlotPool.new granted entrySize entries = .ok pool)
    (hn : EventLoop.new (.of (.of backend)) { pool with memory := memory } rings handler state
      settings = .ok start) : Upheld entrySize [] start := by
  obtain ⟨hb, he, -⟩ := new_eq_ok hn
  refine ⟨?_, ?_, ?_, ?_, ?_, by simp, fun a p b w i e => ?_⟩
  · rw [he]
    exact (SlotPool.entrySize_of_new hp : pool.entrySize = entrySize)
  · rw [he]
    exact (SlotPool.new_eq_ok hp).2.of_free_eq rfl
  · rw [hb]
    rfl
  · rw [hb]
    rfl
  · rw [hb]
    rfl
  · cases a <;> cases e

theorem Upheld.idle (hu : Upheld size ps l) (hi : Idle l m)
    (ha : m.backend.inner.attempts = l.backend.inner.attempts) : Upheld size ps m := by
  refine ⟨?_, ?_, ha.trans hu.attempts, hi.pushed.trans hu.pushed, hi.refusals.trans hu.refusals,
    hu.sound, ?_⟩
  · rw [hi.pool]
    exact hu.entrySize
  · rw [hi.pool]
    exact hu.lends
  · rw [hi.pool]
    exact hu.standing

theorem inFlight_tried (ps : List Posting) (p : Posting) :
    inFlight ((ps ++ [p]).map Posting.tried) =
      (inFlight (ps.map Posting.tried)).filter
          (fun i => !p.occurrence.completion.any (·.ends i)) ++
        p.attempts.filterMap (·.slot?) := by
  rw [List.map_append, List.map_singleton, inFlight_append]
  show _ ++ (p.attempts.map (·.submission)).filterMap (·.slot?) = _
  rw [List.filterMap_map]
  rfl

/-- A step that completes no fixed write. -/
theorem Upheld.step {rs : List Letter} (hu : Upheld size ps l)
    (ht : Tries (inFlight (ps.map Posting.tried)) cs rs as k x m) (hls : rs <+: ls)
    (hc : ∀ i, c.any (·.ends i) = false) (pool : k.pool = l.pool) (backend : k.backend = l.backend)
    (clock : k.clock = l.clock) (readings : k.readings = l.readings) :
    Upheld size (ps ++ [posted c ls l m]) m := by
  have attempts : (posted c ls l m).attempts = as := posted_attempts (by rw [ht.attempts, backend])
  have passes := ht.passes
  rw [pool] at passes
  have more : inFlight ((ps ++ [posted c ls l m]).map Posting.tried) =
      inFlight (ps.map Posting.tried) ++ as.filterMap (·.slot?) := by
    rw [inFlight_tried, attempts]
    show (inFlight (ps.map Posting.tried)).filter (fun i => !c.any (·.ends i)) ++ _ = _
    simp [hc]
  have all : (ps ++ [posted c ls l m]).flatMap (·.attempts) = ps.flatMap (·.attempts) ++ as := by
    rw [List.flatMap_append, List.flatMap_singleton, attempts]
  refine ⟨passes.size.trans hu.entrySize, by rw [more]; exact passes.lends, ?_, ?_, ?_, ?_, ?_⟩
  · rw [all, ht.attempts, backend, hu.attempts]
  · rw [all, ht.pushed, backend, hu.pushed, List.filter_append, List.map_append]
  · rw [all, ht.refusals, backend, hu.refusals, List.filter_append, List.length_append]
  · intro p hp
    rcases List.mem_append.mp hp with hp | hp
    · exact hu.sound p hp
    rw [List.mem_singleton.mp hp]
    refine ⟨?_, by rw [attempts]; exact ht.last, ?_, fun small => ?_⟩
    · show m.backend.pushed.drop l.backend.pushed.length = _
      rw [attempts, ht.pushed, backend, List.drop_left]
    · rw [attempts, ← hu.entrySize]
      exact passes.fits
    · obtain ⟨rest, rfl⟩ := hls
      have carried := ht.carried (by rw [pool, hu.entrySize]; exact small)
      rw [pool, clock, readings, hu.entrySize] at carried
      rw [attempts]
      exact ⟨_, carried.weaken rest⟩
  · intro a p b w i e hw hi uncompleted
    rw [more]
    rcases append_singleton_eq e with ⟨rfl, rfl, rfl⟩ | ⟨b', rfl, rfl⟩
    · rw [attempts] at hw
      exact ⟨List.mem_append_right _ (List.mem_filterMap.mpr ⟨w, hw, hi⟩), passes.bytes w hw⟩
    · obtain ⟨member, bytes⟩ := hu.standing a p b' w i rfl hw hi fun q hq =>
        uncompleted q (List.mem_append_left _ hq)
      refine ⟨List.mem_append_left _ member, ?_⟩
      rw [← bytes]
      refine ((hu.sound p (by simp)).fits w hw).bytes_congr fun j hj b hl hb => ?_
      rw [hi] at hj
      cases hj
      have place : l.pool.offset i = i.toNat * size := by rw [SlotPool.offset, hu.entrySize]
      exact passes.kept i member b (by rw [place]; exact hl)
        (by rw [place, hu.entrySize]; exact hb)

/-- The completion of a fixed write. -/
theorem Upheld.released {c : Completion} {pool : SlotPool} (hu : Upheld size ps l)
    (hl : pool.Lends ((inFlight (ps.map Posting.tried)).filter fun i => !c.ends i))
    (hm : pool.memory = l.pool.memory) (hs : pool.entrySize = l.pool.entrySize)
    (ha : Aside { l with pool := pool } m) : Upheld size (ps ++ [posted (some c) ls l m]) m := by
  have backend : m.backend = l.backend := by rw [ha]
  have same : m.pool = pool := by rw [ha]
  have attempts : (posted (some c) ls l m).attempts = [] :=
    posted_attempts (by rw [backend, List.append_nil])
  have fewer : inFlight ((ps ++ [posted (some c) ls l m]).map Posting.tried) =
      (inFlight (ps.map Posting.tried)).filter fun i => !c.ends i := by
    rw [inFlight_tried, attempts, List.filterMap_nil, List.append_nil]
    rfl
  have all : (ps ++ [posted (some c) ls l m]).flatMap (·.attempts) = ps.flatMap (·.attempts) := by
    rw [List.flatMap_append, List.flatMap_singleton, attempts, List.append_nil]
  refine ⟨by rw [same, hs, hu.entrySize], by rw [fewer, same]; exact hl, ?_, ?_, ?_, ?_, ?_⟩
  · rw [all, backend, hu.attempts]
  · rw [all, backend, hu.pushed]
  · rw [all, backend, hu.refusals]
  · intro p hp
    rcases List.mem_append.mp hp with hp | hp
    · exact hu.sound p hp
    rw [List.mem_singleton.mp hp]
    refine ⟨?_, ?_, ?_, fun _ => ⟨l.readings, ?_⟩⟩
    · show m.backend.pushed.drop l.backend.pushed.length = _
      rw [attempts, backend, List.drop_length]
      rfl
    · simp [attempts]
    · simp [attempts]
    · rw [attempts]
      exact .nothing ls
  · intro a p b w i e hw hi uncompleted
    rw [fewer, same, hm]
    rcases append_singleton_eq e with ⟨rfl, rfl, rfl⟩ | ⟨b', rfl, rfl⟩
    · rw [attempts] at hw
      cases hw
    · obtain ⟨member, bytes⟩ := hu.standing a p b' w i rfl hw hi fun q hq =>
        uncompleted q (List.mem_append_left _ hq)
      refine ⟨List.mem_filter.mpr ⟨member, ?_⟩, bytes⟩
      have passes : c.ends i = false := uncompleted _ (List.mem_append_right _ List.mem_cons_self)
      rw [passes]
      rfl

theorem lettersOf_begins {done ds : List Deed} (handler : Handler σ) (s : σ) (h : done <+: ds) :
    lettersOf handler s done <+: lettersOf handler s ds := by
  obtain ⟨rest, rfl⟩ := h
  rw [lettersOf_append]
  exact List.prefix_append _ _

variable [Backend β] [BufferSource ρ]

/-- Whatever is refused, this holds wherever a run leads. -/
theorem Posted.upheld (h0 : Upheld size [] start) (hp : Posted start ps l) : Upheld size ps l := by
  induction hp with
  | start => exact h0
  | listen fd _ ih =>
    obtain ⟨as, x, tried, -⟩ := tries_listen fd ih.lends
    exact ih.step tried (List.prefix_refl _) (fun _ => rfl) rfl rfl rfl rfl
  | log level message _ ih =>
    obtain ⟨as, tried, -⟩ := tries_writeLog level message ih.lends
    exact ih.step tried (List.prefix_refl _) (fun _ => rfl) rfl rfl rfl rfl
  | @dispatch ps l c _ ih =>
    by_cases hw : c.tag.opcode? = some .writeFixed
    · obtain ⟨pool, lends, memory, entrySize, aside⟩ := dispatch_released hw ih.lends
      exact ih.released lends memory entrySize aside
    · obtain ⟨done, as, x, tried⟩ := dispatch_tried hw ih.lends
      have passes : ∀ i, (some c).any (·.ends i) = false := ends_eq_false (c := some c) hw
      exact ih.step tried.tries (lettersOf_begins _ _ tried.begins) passes rfl rfl rfl rfl
  | idle _ hi ha _ ih => exact ih.idle hi ha

/-- A turn is part of a run, however it ends. -/
theorem Posted.turn (hp : Posted start ps l) : ∃ qs, Posted start (ps ++ qs) (exec turn l).2 := by
  have rested : ∀ {l m : Watched (Register β) ρ σ} {x : Option Fault}, Rests l x m →
      (∃ qs, Posted start (ps ++ qs) l) → ∃ qs, Posted start (ps ++ qs) m := by
    rintro l m x rests ⟨qs, run⟩
    exact ⟨qs, run.idle rests.idle rests.attempts rests.listener⟩
  refine turn_induction ⟨[], by rwa [List.append_nil]⟩ (fun l => rested (rests_collect l)) ?_
    fun batch l => rested (rests_conclude batch l)
  rintro c l ⟨qs, run⟩
  exact ⟨_, by simpa using run.dispatch c⟩

end

/-! ## Replies -/

/-- The copied replies of a handler to a series of calls. -/
def repliesTo (handler : Handler σ) : σ → List Call → List Letter
  | _, [] => []
  | s, c :: cs => replied handler s c.1 c.2 ++ repliesTo handler (handler.respond s c.1 c.2).2 cs

/-- The state in which a series of calls leaves a handler. -/
def stateAfter (handler : Handler σ) (s : σ) (cs : List Call) : σ :=
  cs.foldl (fun s c => (handler.respond s c.1 c.2).2) s

theorem repliesTo_append (handler : Handler σ) (s : σ) (cs ds : List Call) :
    repliesTo handler s (cs ++ ds) =
      repliesTo handler s cs ++ repliesTo handler (stateAfter handler s cs) ds := by
  induction cs generalizing s with
  | nil => rfl
  | cons c cs ih =>
    rw [List.cons_append, repliesTo, ih, ← List.append_assoc]
    rfl

/-- A handler that copies what it receives. -/
theorem repliesTo_echo {handler : Handler σ}
    (h : ∀ s fd payload, (handler.respond s fd payload).1 = .copied payload) (s : σ)
    (cs : List Call) : repliesTo handler s cs = cs.map fun c => .reply c.1 c.2 := by
  induction cs generalizing s with
  | nil => rfl
  | cons c cs ih =>
    rw [repliesTo, ih, replied, h]
    rfl

theorem filter_isReply_replied (handler : Handler σ) (s : σ) (fd : Descriptor) (payload : Bytes) :
    (replied handler s fd payload).filter Letter.isReply = replied handler s fd payload := by
  unfold replied
  split <;> rfl

/-- The replies that deeds occasion, and the state in which they leave a handler that notes its
calls. -/
theorem replies_lettersOf (handler : Handler σ) (ds : List Deed) (s : σ × List Call) :
    (lettersOf handler.recording s ds).filter Letter.isReply =
        repliesTo handler s.1 (ds.filterMap Deed.call?) ∧
      ds.foldl (Deed.onHandler handler.recording) s =
        (stateAfter handler s.1 (ds.filterMap Deed.call?), s.2 ++ ds.filterMap Deed.call?) := by
  induction ds generalizing s with
  | nil => exact ⟨rfl, by simp [stateAfter]⟩
  | cons d ds ih =>
    obtain ⟨replies, state⟩ := ih (d.onHandler handler.recording s)
    rw [lettersOf, List.filter_append, replies, List.foldl_cons, state]
    cases d with
    | answer fd payload =>
      rw [show Deed.letters handler.recording s (.answer fd payload) =
        replied handler s.1 fd payload from rfl, filter_isReply_replied]
      refine ⟨rfl, ?_⟩
      simp [Deed.onHandler, Handler.recording, Deed.call?, stateAfter]
    | track _ | forget _ | tally _ _ | armAccept _ | armReceive _ | shutDown _ | close _
    | recycle _ | blame | log _ => exact ⟨rfl, rfl⟩

/-- The replies among the letters of a run are those of the handler to its calls. -/
structure Answered (handler : Handler σ) (state : σ) (ps : List Posting)
    (l : Watched (Register β) ρ σ) : Prop where
  recording : l.handler = handler.recording
  settled : l.handlerState.1 = stateAfter handler state l.handlerState.2
  replies : (ps.flatMap (·.letters)).filter Letter.isReply =
    repliesTo handler state l.handlerState.2

variable {handler : Handler σ} {state : σ} {start l m k : Watched (Register β) ρ σ}
  {ps : List Posting} {c : Option Completion} {ls : List Letter}

/-- A step that calls no handler. -/
theorem Answered.uncalled (ha : Answered handler state ps l) (hh : m.handler = l.handler)
    (hs : m.handlerState = l.handlerState) (hls : ls.filter Letter.isReply = []) :
    Answered handler state (ps ++ [posted c ls l m]) m := by
  refine ⟨hh.trans ha.recording, by rw [hs]; exact ha.settled, ?_⟩
  rw [List.flatMap_append, List.filter_append, List.flatMap_singleton, hs, ← ha.replies]
  show _ ++ ls.filter Letter.isReply = _
  rw [hls, List.append_nil]

/-- A step that does deeds. -/
theorem Answered.done {ds : List Deed} (ha : Answered handler state ps l)
    (hh : m.handler = l.handler)
    (hs : m.handlerState = ds.foldl (Deed.onHandler l.handler) l.handlerState) :
    Answered handler state (ps ++ [posted c (lettersOf l.handler l.handlerState ds) l m]) m := by
  obtain ⟨replies, after⟩ := replies_lettersOf handler ds l.handlerState
  rw [ha.recording, after] at hs
  refine ⟨hh.trans ha.recording, ?_, ?_⟩
  · rw [hs, ha.settled]
    exact (List.foldl_append ..).symm
  · rw [List.flatMap_append, List.filter_append, List.flatMap_singleton, hs, repliesTo_append,
      ← ha.replies, ← ha.settled, ← replies, ← ha.recording]
    rfl

variable [Backend β] [BufferSource ρ]

omit [Backend β] in
theorem planned_writeFixed {c : Completion} (hw : c.tag.opcode? = some .writeFixed) :
    planned c l = [] := by
  have untaken : grasp c l.ring = (.ok none, l.ring) := if_neg (by simp [hw])
  rw [planned, untaken]
  show plan c none _ = []
  unfold plan
  rw [hw]

omit [Backend β] [BufferSource ρ] in
/-- Nothing was refused, neither before nor in the step. -/
theorem Tries.unrefused {flying : List UInt16} {cs : List (Opcode × Descriptor)}
    {as : List Attempt} {x : Option Fault} (h : Tries flying cs ls as l x m)
    (accepted : m.backend.refusals = 0) :
    l.backend.refusals = 0 ∧ ∀ a ∈ as, a.accepted = true := by
  rw [h.refusals] at accepted
  refine ⟨by omega, fun a ha => ?_⟩
  have none_refused : as.filter (!·.accepted) = [] := List.eq_nil_of_length_eq_zero (by omega)
  simpa using List.filter_eq_nil_iff.mp none_refused a ha

/-- As long as all pushes are accepted, all calls are answered. -/
theorem Posted.answered (h0 : Upheld size [] start) (ha : Answered handler state [] start)
    (hp : Posted start ps l) (accepted : l.backend.refusals = 0) : Answered handler state ps l := by
  induction hp with
  | start => exact ha
  | listen fd hp ih =>
    obtain ⟨as, x, tried, -⟩ := tries_listen fd (hp.upheld h0).lends
    exact (ih (tried.unrefused accepted).1).uncalled tried.handler tried.handlerState rfl
  | log level message hp ih =>
    obtain ⟨as, tried, -⟩ := tries_writeLog level message (hp.upheld h0).lends
    exact (ih (tried.unrefused accepted).1).uncalled tried.handler tried.handlerState rfl
  | @dispatch ps l c hp ih =>
    by_cases hw : c.tag.opcode? = some .writeFixed
    · obtain ⟨pool, -, -, -, aside⟩ := dispatch_released hw (hp.upheld h0).lends
      have idle := aside.idle
      rw [planned_writeFixed hw]
      exact (ih (idle.refusals.symm.trans accepted)).uncalled idle.handler idle.handlerState rfl
    · obtain ⟨done, as, x, tried⟩ := dispatch_tried hw (hp.upheld h0).lends
      obtain ⟨before, all⟩ := tried.tries.unrefused accepted
      have whole := tried.whole all
      subst whole
      exact (ih before).done tried.tries.handler tried.tries.handlerState
  | idle hp hi _ _ ih =>
    obtain ⟨recording, settled, replies⟩ := ih (hi.refusals.symm.trans accepted)
    rw [← hi.handler] at recording
    rw [← hi.handlerState] at settled replies
    exact ⟨recording, settled, replies⟩

/-- The attempts of a run, less those that send from no slot. -/
def fixedWrites (ps : List Posting) : List Attempt :=
  (ps.flatMap (·.attempts)).filter (·.slot?.isSome)

omit [Backend β] [BufferSource ρ] in
theorem matches_sublist {clock : Nat → Instant} {j n : Nat} {as : List Attempt}
    (h : Matches size clock j as ls n) : ∃ sent, sent.Sublist ls ∧
      List.Forall₂ (fun w letter => ∃ now, w.Carries size now letter) as sent := by
  induction h with
  | nil => exact ⟨[], List.Sublist.refl _, .nil⟩
  | dropped _ ih =>
    obtain ⟨sent, sub, all⟩ := ih
    exact ⟨sent, sub.cons _, all⟩
  | carried first _ ih =>
    obtain ⟨sent, sub, all⟩ := ih
    exact ⟨_ :: sent, sub.cons_cons _, .cons ⟨_, first⟩ all⟩

omit [Backend β] [BufferSource ρ] in
/-- The fixed writes of a run carry letters of the run, in order. -/
theorem carried_in_order (small : size < UInt32.size) (h : ∀ p ∈ ps, p.Sound size) :
    ∃ sent, sent.Sublist (ps.flatMap (·.letters)) ∧
      List.Forall₂ (fun w letter => ∃ now, w.Carries size now letter) (fixedWrites ps) sent := by
  induction ps with
  | nil => exact ⟨[], List.Sublist.refl _, .nil⟩
  | cons p ps ih =>
    obtain ⟨n, first⟩ := (h p List.mem_cons_self).carried small
    obtain ⟨sent, sub, all⟩ := matches_sublist first
    obtain ⟨sent', sub', all'⟩ := ih fun q hq => h q (List.mem_cons_of_mem _ hq)
    refine ⟨sent ++ sent', sub.append sub', ?_⟩
    rw [fixedWrites, List.flatMap_cons, List.filter_append]
    exact List.rel_append all all'

/-- On a new pool of slots that a length of 32 bits can measure, whatever was in its memory, along
every run in which all pushes are accepted: what is pushed in a step carries the letters of that
step, in order, each from the start of the slot that its tag names and cut to the size of a slot;
so do the fixed writes of the whole run; the replies among the letters are those of the handler to
its calls, and what was received if the handler copies that; and until a completion brings its slot
back, a fixed write still sends what it was pushed with. -/
theorem fixed_writes_carry_letters {backend : β} {pool : SlotPool} {memory : Memory}
    {rings : List ρ} {settings : Settings} {granted entrySize entries : Nat}
    (hp : SlotPool.new granted entrySize entries = .ok pool) (small : entrySize < UInt32.size)
    (hn : EventLoop.new (.of (.of backend)) { pool with memory := memory } rings handler.recording
      (state, []) settings = .ok start)
    (hr : Posted start ps l) (accepted : l.backend.refusals = 0) :
    l.backend.pushed = (ps.flatMap (·.attempts)).map (·.submission) ∧
    (∀ p ∈ ps, ∃ n,
      Matches entrySize p.clock p.reading (p.attempts.filter (·.slot?.isSome)) p.letters n) ∧
    (∃ sent, sent.Sublist (ps.flatMap (·.letters)) ∧
      List.Forall₂ (fun w letter => ∃ now, w.Carries entrySize now letter) (fixedWrites ps) sent) ∧
    (ps.flatMap (·.letters)).filter Letter.isReply = repliesTo handler state l.handlerState.2 ∧
    ((∀ s fd payload, (handler.respond s fd payload).1 = .copied payload) →
      repliesTo handler state l.handlerState.2 =
        l.handlerState.2.map fun c => .reply c.1 c.2) ∧
    ∀ a p b w i, ps = a ++ p :: b → w ∈ p.attempts → w.slot? = some i →
      (∀ q ∈ b, q.occurrence.completion.any (·.ends i) = false) →
      w.submission.bytes l.pool.memory = w.bytes := by
  obtain ⟨-, -, hh, hs, -⟩ := new_eq_ok hn
  have begins := upheld_of_new hp hn
  have upheld := hr.upheld begins
  have answered := hr.answered begins ⟨hh, by rw [hs]; rfl, by rw [hs]; rfl⟩ accepted
  have all : (ps.flatMap (·.attempts)).filter (·.accepted) = ps.flatMap (·.attempts) := by
    have none_refused := upheld.refusals.symm.trans accepted
    rw [List.filter_eq_self]
    intro a ha
    simpa using List.filter_eq_nil_iff.mp (List.eq_nil_of_length_eq_zero none_refused) a ha
  refine ⟨by rw [upheld.pushed, all], fun p hp => (upheld.sound p hp).carried small,
    carried_in_order small upheld.sound, answered.replies, fun echo => repliesTo_echo echo _ _,
    fun a p b w i e hw hi uncompleted => (upheld.standing a p b w i e hw hi uncompleted).2⟩

/-- A new loop over two slots that are not blank, which keeps no access log and returns what it
receives. -/
def noting : Watched (Register Recorder) BufferQueue Unit :=
  (EventLoop.new (.of (.of .new)) { twoSlots with memory := Memory.blank.write 0 [7, 7, 7] }
    [BufferQueue.new 0 4 64] (ReplyMode.handler .echo).recording ((), [])
    { Settings.default with accessLog := false }).toOption.get rfl

theorem new_noting : EventLoop.new (.of (.of .new))
    { twoSlots with memory := Memory.blank.write 0 [7, 7, 7] } [BufferQueue.new 0 4 64]
    (ReplyMode.handler .echo).recording ((), []) { Settings.default with accessLog := false } =
      .ok noting := rfl

/-- The kernel has received two bytes for descriptor 5. -/
def greeting : Completion × BufferQueue :=
  (KernelSide.receive 5 [0x68, 0x69] false true (BufferQueue.new 0 4 64)).get rfl

/-- Descriptor 5 has been accepted, and the two bytes are there. -/
def beforeReply : Watched (Register Recorder) BufferQueue Unit :=
  { (exec (dispatch (.accepted 3 5 true)) noting).2 with ring := greeting.2 }

/-- They have been returned. -/
def afterReply : Watched (Register Recorder) BufferQueue Unit :=
  (exec (dispatch greeting.1) beforeReply).2

theorem fixed_writes_carry_letters_after_reply : ∃ ps p, Posted noting (ps ++ [p]) afterReply ∧
    ((ps ++ [p]).flatMap (·.letters)).filter Letter.isReply = [.reply 5 [0x68, 0x69]] ∧
    p.attempts.map (·.bytes) = [[0x68, 0x69]] ∧
    ∀ w ∈ p.attempts, ∀ i, w.slot? = some i →
      w.submission.bytes afterReply.pool.memory = w.bytes := by
  have accepted := (Posted.start : Posted noting [] noting).dispatch (.accepted 3 5 true)
  have arrived : Posted noting _ beforeReply := accepted.idle ⟨rfl, rfl, rfl, rfl, rfl, rfl⟩ rfl rfl
  have hr : Posted noting _ afterReply := arrived.dispatch greeting.1
  obtain ⟨-, -, -, replies, -, standing⟩ :=
    fixed_writes_carry_letters new_twoSlots (by decide) new_noting hr (by decide +kernel)
  refine ⟨_, _, hr, ?_, by decide +kernel, fun w hw i hi => ?_⟩
  · rw [replies]
    decide +kernel
  · exact standing _ _ [] w i rfl hw hi (by simp)

end EventLoop

end RingServer
