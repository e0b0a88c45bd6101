import RingServer.Proofs.Loop.Letters
import RingServer.Proofs.Loop.Blind
import Mathlib.Algebra.Order.Ring.Nat

/-!
How completions are cut into batches does not matter. On a backend that takes whatever it is given
(`Obliging`), a series of turns (`Turns`) does to the loop what dispatching all its completions one
after the other does to it, without a turn (`Turns.settle`): a dispatch is blind to the kernel, and
between its dispatches a turn changes nothing but that and two counters. So two series with the same
completions end alike, whatever each turn finds ready.
-/

namespace RingServer.EventLoop

variable {β ρ σ : Type}

/-- In such a state the backend takes what it is given, and a flush leaves nothing pending. -/
structure Obliging [Backend β] (good : β → Prop) : Prop where
  push : ∀ {b} memory s, good b →
    (Backend.push memory s b).1 = .ok () ∧ good (Backend.push memory s b).2
  flush : ∀ {b} memory, good b → (∃ n, (Backend.flush memory b).1 = .ok n) ∧
    good (Backend.flush memory b).2 ∧ Backend.pending (Backend.flush memory b).2 = 0
  wait : ∀ {b} memory n, good b →
    (∃ k, (Backend.wait memory n b).1 = .ok k) ∧ good (Backend.wait memory n b).2
  drain : ∀ {b}, good b → good (Backend.drain b).2

/-- Both backends take what they are given, and have been given the same. -/
structure Twins (good : β → Prop) (b b' : Journal (Register β)) : Prop where
  left : good b.inner.inner
  right : good b'.inner.inner
  pushed : b'.pushed = b.pushed
  refusals : b'.refusals = b.refusals
  attempts : b'.inner.attempts = b.inner.attempts

/-- The backend with another kernel behind it. -/
def replaced (j : Journal (Register β)) (b : β) : Journal (Register β) :=
  { j with inner := { j.inner with inner := b } }

variable {good : β → Prop} {b b' : Journal (Register β)}

theorem Twins.refl (h : good b.inner.inner) : Twins good b b := ⟨h, h, rfl, rfl, rfl⟩

theorem Twins.replaced (h : Twins good b b') {k : β} (hk : good k) :
    Twins good b (replaced b' k) :=
  ⟨h.left, hk, h.pushed, h.refusals, h.attempts⟩

section

variable [Backend β]

/-- What is pushed to twins is taken by both, and noted alike. -/
theorem answers_twins (obliging : Obliging good) : Answers (Twins good) := by
  intro memory s b b' h
  have push : ∀ j : Journal (Register β), good j.inner.inner →
      Backend.push memory s j = (.ok (), ⟨⟨(Backend.push memory s j.inner.inner).2,
        j.inner.attempts ++ [⟨s, s.bytes memory, true⟩]⟩, j.pushed ++ [s], j.refusals⟩) := by
    intro j hj
    have taken := (obliging.push memory s hj).1
    change Journal.push memory s j = _
    have e : Backend.push memory s j.inner = Register.push memory s j.inner := rfl
    rw [Journal.push, e, Register.push, taken]
    rfl
  rw [push b h.left, push b' h.right]
  refine ⟨rfl, (obliging.push memory s h.left).2, (obliging.push memory s h.right).2, ?_,
    h.refusals, ?_⟩
  · exact congrArg (· ++ [s]) h.pushed
  · exact congrArg (· ++ [_]) h.attempts

/-! ## One turn -/

variable {l m r : Watched (Register β) ρ σ} {turns completions : UInt64} {batch : List Completion}

theorem Obliging.exec_collect (obliging : Obliging good) (hl : good l.backend.inner.inner) :
    ∃ batch k, good k ∧
      exec collect l = (.ok batch, { l with backend := replaced l.backend k }) := by
  obtain ⟨⟨n, hn⟩, hw⟩ := obliging.wait l.pool.memory 1 hl
  have hn' : (Backend.wait l.pool.memory 1 l.backend).1 = .ok n := hn
  let waited := (Backend.wait l.pool.memory 1 l.backend.inner.inner).2
  refine ⟨(Backend.drain waited).1, (Backend.drain waited).2, obliging.drain hw, ?_⟩
  unfold collect
  rw [exec_bind_ok (exec_modifyGet _ l)]
  simp only [hn']
  rw [exec_bind_ok (exec_liftExcept _ _), exec_modifyGet]
  rfl

theorem Obliging.exec_conclude (obliging : Obliging good) (hl : good l.backend.inner.inner)
    (batch : List Completion) : ∃ k, good k ∧ Backend.pending k = 0 ∧
      exec (conclude batch) l = (.ok batch.length, swap (replaced l.backend k)
        (l.counters.turns + 1) (l.counters.completions + .ofNat batch.length) l) := by
  obtain ⟨⟨n, hn⟩, hf, empty⟩ := obliging.flush l.pool.memory hl
  have hn' : (Backend.flush l.pool.memory l.backend).1 = .ok n := hn
  refine ⟨_, hf, empty, ?_⟩
  have e := exec_flush l
  rw [hn'] at e
  unfold conclude
  rw [exec_bind_ok e, exec_bind_ok (exec_count _ _)]
  rfl

variable [BufferSource ρ]

/-- Twins go through the same dispatches. -/
theorem occurrences_swap (obliging : Obliging good) (hb : Twins good r.backend b)
    (batch : List Completion) :
    occurrences batch (swap b turns completions r) = occurrences batch r := by
  induction batch generalizing r b with
  | nil => rfl
  | cons c batch ih =>
    obtain ⟨b', hb', e⟩ := blind_dispatch (answers_twins obliging) c r b turns completions hb
    have same : ∀ m : Watched (Register β) ρ σ, Twins good m.backend b' →
        seen (some c) (swap b turns completions r) (swap b' turns completions m) =
          seen (some c) r m := by
      intro m hm
      simp only [seen, swap, hb.pushed, hm.pushed]
    rcases hd : exec (dispatch c) r with ⟨x | a, m⟩
    · rw [hd] at e hb'
      rw [occurrences, occurrences, hd, e]
      simp only [same m hb']
    · rw [hd] at e hb'
      rw [occurrences, occurrences, hd, e]
      simp only [same m hb', ih hb']

/-- A turn whose batch meets no fault does what its dispatches do, counts itself and its batch, and
leaves nothing pending. -/
theorem exec_turn (obliging : Obliging good) (hb : Twins good r.backend b)
    (hc : ∃ n, exec collect (swap b turns completions r) = (.ok batch, n))
    (done : exec (batch.forM dispatch) r = (.ok (), m)) :
    ∃ b', Twins good m.backend b' ∧ Backend.pending b' = 0 ∧
      exec turn (swap b turns completions r) =
        (.ok batch.length, swap b' (turns + 1) (completions + .ofNat batch.length) m) ∧
      turnOccurrences (swap b turns completions r) = occurrences batch r := by
  obtain ⟨batch', k, hk, collected⟩ :=
    obliging.exec_collect (l := swap b turns completions r) hb.right
  obtain ⟨n, hn⟩ := hc
  cases collected.symm.trans hn
  have hb' : Twins good r.backend (replaced b k) := hb.replaced hk
  have collected' : exec collect (swap b turns completions r) =
      (.ok batch, swap (replaced b k) turns completions r) := collected
  obtain ⟨b₁, hb₁, dispatched⟩ := Blind.forM (blind_dispatch (answers_twins obliging)) batch r
    (replaced b k) turns completions hb'
  rw [done] at dispatched hb₁
  obtain ⟨k₁, hk₁, empty, concluded⟩ :=
    obliging.exec_conclude (l := swap b₁ turns completions m) hb₁.right batch
  refine ⟨replaced b₁ k₁, hb₁.replaced hk₁, empty, ?_, ?_⟩
  · rw [turn_eq, exec_bind_ok collected', exec_bind_ok dispatched, concluded]
    rfl
  · rw [turnOccurrences, collected']
    exact occurrences_swap obliging hb' batch

/-! ## A series of turns -/

/-- What can be seen of a turn. -/
structure TurnReport where
  batch : List Completion
  answer : Except Fault Nat
  occurrences : List Occurrence
  pending : Nat

/-- The report of the turn that a loop is about to take. -/
def reportOf (batch : List Completion) (l : Watched (Register β) ρ σ) : TurnReport where
  batch
  answer := (exec turn l).1
  occurrences := turnOccurrences l
  pending := Backend.pending (exec turn l).2.backend

/-- One turn after the other. Before each of them the kernel may do what it likes, as long as the
loop can go on working with it. -/
inductive Turns (good : β → Prop) :
    Watched (Register β) ρ σ → List TurnReport → Watched (Register β) ρ σ → Prop
  | nil {l : Watched (Register β) ρ σ} : Turns good l [] l
  | cons {l k m : Watched (Register β) ρ σ} {b : β} {batch : List Completion}
    {reports : List TurnReport} :
    good b → k = { l with backend := replaced l.backend b } →
    (∃ n, exec collect k = (.ok batch, n)) → Turns good (exec turn k).2 reports m →
    Turns good l (reportOf batch k :: reports) m

variable {reports : List TurnReport} {start n : Watched (Register β) ρ σ}

theorem occurrences_append {as bs : List Completion} {l k : Watched β ρ σ}
    (h : exec (as.forM dispatch) l = (.ok (), k)) :
    occurrences (as ++ bs) l = occurrences as l ++ occurrences bs k := by
  induction as generalizing l with
  | nil =>
    cases h
    rfl
  | cons c as ih =>
    have first : exec (dispatch c >>= fun _ => as.forM dispatch) l = (.ok (), k) := h
    rw [List.cons_append, occurrences, occurrences]
    rcases he : exec (dispatch c) l with ⟨e | x, m⟩
    · rw [exec_bind_error he] at first
      cases first
    · rw [exec_bind_ok he] at first
      simp only [ih first, List.cons_append]

/-- Along a series of turns the loop stays what the dispatches alone make of it. -/
theorem Turns.settle (obliging : Obliging good) (ht : Turns good l reports n)
    (e : l = swap b turns completions r) (hb : Twins good r.backend b)
    (done : exec ((reports.flatMap (·.batch)).forM dispatch) r = (.ok (), m)) :
    (∃ b', Twins good m.backend b' ∧ n = swap b' (turns + .ofNat reports.length)
      (completions + .ofNat (reports.flatMap (·.batch)).length) m) ∧
    (∀ t ∈ reports, t.answer = .ok t.batch.length ∧ t.pending = 0) ∧
    reports.flatMap (·.occurrences) = occurrences (reports.flatMap (·.batch)) r := by
  induction ht generalizing b turns completions r with
  | nil =>
    cases done
    refine ⟨⟨b, hb, ?_⟩, nofun, rfl⟩
    rw [e]
    simp
  | @cons l k _ b₀ batch reports hk ek hc rest ih =>
    rw [List.flatMap_cons] at done ⊢
    obtain ⟨r₁, dispatched, done⟩ := exec_forM_append done
    have ek' : k = swap (replaced b b₀) turns completions r := by
      rw [ek, e]
      rfl
    rw [ek'] at hc
    obtain ⟨b₁, hb₁, empty, taken, told⟩ := exec_turn obliging (hb.replaced hk) hc dispatched
    rw [← ek'] at taken told
    obtain ⟨⟨b₂, hb₂, last⟩, answered, occurred⟩ := ih (by rw [taken]) hb₁ done
    refine ⟨⟨b₂, hb₂, ?_⟩, ?_, ?_⟩
    · rw [last]
      simp only [List.length_cons, List.length_append, UInt64.ofNat_add]
      congr 1
      · rw [UInt64.add_assoc, UInt64.add_comm 1]
        rfl
      · rw [UInt64.add_assoc]
        rfl
    · refine List.forall_mem_cons.mpr ⟨⟨?_, ?_⟩, answered⟩
      · exact congrArg Prod.fst taken
      · change Backend.pending (exec turn k).2.backend = 0
        rw [taken]
        exact empty
    · rw [List.flatMap_cons, occurred, occurrences_append dispatched]
      exact congrArg (· ++ _) told

theorem map_completion_occurrences {cs : List Completion} {l m : Watched β ρ σ}
    (h : exec (cs.forM dispatch) l = (.ok (), m)) :
    (occurrences cs l).map (·.completion) = cs.map some := by
  induction cs generalizing l with
  | nil => rfl
  | cons c cs ih =>
    have first : exec (dispatch c >>= fun _ => cs.forM dispatch) l = (.ok (), m) := h
    rw [occurrences]
    rcases he : exec (dispatch c) l with ⟨e | x, k⟩
    · rw [exec_bind_error he] at first
      cases first
    · rw [exec_bind_ok he] at first
      simp only [List.map_cons, ih first]
      rfl

/-- On a backend that takes whatever it is given, completions whose dispatch meets no fault may be
cut into the batches of any series of turns. Each turn answers with the size of its batch and leaves
nothing pending, and together they dispatch each completion once and in order. Two such series make
the same calls, push the same submissions with the same bytes, and end in loops that are equal but
for their backends and the number of turns. -/
theorem batching_is_transparent (obliging : Obliging good) {cs : List Completion}
    (hg : good start.backend.inner.inner)
    (done : exec (cs.forM dispatch) start = (.ok (), m))
    (ht : Turns good start reports n) (cut : reports.flatMap (·.batch) = cs)
    {reports' : List TurnReport} {n' : Watched (Register β) ρ σ}
    (ht' : Turns good start reports' n') (cut' : reports'.flatMap (·.batch) = cs) :
    (∀ t ∈ reports, t.answer = .ok t.batch.length ∧ t.pending = 0) ∧
    (reports.map (·.batch.length)).sum = cs.length ∧
    (reports.flatMap (·.occurrences)).map (·.completion) = cs.map some ∧
    reports.flatMap (·.occurrences) = reports'.flatMap (·.occurrences) ∧
    n.handlerState = n'.handlerState ∧
    n.backend.pushed = n'.backend.pushed ∧
    n.backend.inner.attempts = n'.backend.inner.attempts ∧
    n.counters.turns = start.counters.turns + .ofNat reports.length ∧
    n = { n' with
      backend := n.backend
      counters := { n'.counters with turns := n.counters.turns } } := by
  have same : start = swap start.backend start.counters.turns start.counters.completions start :=
    rfl
  subst cut
  obtain ⟨⟨b, hb, e⟩, answered, occurred⟩ := ht.settle obliging same (.refl hg) done
  have done' := done
  rw [← cut'] at done'
  obtain ⟨⟨b', hb', e'⟩, -, occurred'⟩ := ht'.settle obliging same (.refl hg) done'
  rw [cut'] at e' occurred'
  refine ⟨answered, ?_, ?_, occurred.trans occurred'.symm, ?_, ?_, ?_, ?_, ?_⟩
  · exact List.length_flatMap.symm
  · rw [occurred]
    exact map_completion_occurrences done
  · rw [e, e']
    rfl
  · rw [e, e']
    exact hb.pushed.trans hb'.pushed.symm
  · rw [e, e']
    exact hb.attempts.trans hb'.attempts.symm
  · rw [e]
    rfl
  · rw [e, e']
    rfl

end

/-! ## A backend without a kernel -/

/-- A recorder without a limit takes what it is given. -/
theorem obliging_recorder : Obliging fun r : Recorder => r.limit = none where
  push := by
    intro r memory s hr
    have e : Backend.push memory s r = r.push s := rfl
    rw [e, Recorder.push, hr]
    exact ⟨rfl, rfl⟩
  flush _ hr := ⟨⟨_, rfl⟩, hr, rfl⟩
  wait _ _ hr := ⟨⟨_, rfl⟩, hr⟩
  drain hr := hr

/-- It drains whatever batches are put into it. -/
theorem exists_turns_recorder [BufferSource ρ] (batches : List (List Completion))
    (l : Watched (Register Recorder) ρ σ) :
    ∃ reports n, Turns (fun r : Recorder => r.limit = none) l reports n ∧
      reports.map (·.batch) = batches := by
  induction batches generalizing l with
  | nil => exact ⟨[], l, .nil, rfl⟩
  | cons batch batches ih =>
    let r : Recorder := { Recorder.new with ready := batch }
    let k := { l with backend := replaced l.backend r }
    obtain ⟨reports, n, ht, cut⟩ := ih (exec turn k).2
    exact ⟨reportOf batch k :: reports, n, .cons (b := r) rfl rfl ⟨_, rfl⟩ ht, by rw [← cut]; rfl⟩

/-- A message that is returned and a connection that is accepted, in one turn or in three, the
second of which finds nothing. -/
theorem batching_is_transparent_in_three_turns :
    let cs := [greeting.1, .accepted 3 6 true]
    beforeReply.backend.inner.inner.limit = none ∧
    (exec (cs.forM dispatch) beforeReply).1 = .ok () ∧
    ∃ reports n reports' n', Turns (fun r : Recorder => r.limit = none) beforeReply reports n ∧
      Turns (fun r : Recorder => r.limit = none) beforeReply reports' n' ∧
      reports.map (·.batch) = [cs] ∧ reports'.map (·.batch) = [[cs[0]], [], [cs[1]]] ∧
      n.backend.pushed = n'.backend.pushed ∧ n.handlerState = n'.handlerState ∧
      n.pool.owner? 1 = n'.pool.owner? 1 ∧ n.connections.rows = n'.connections.rows := by
  intro cs
  have hg : beforeReply.backend.inner.inner.limit = none := by decide +kernel
  have ok : (exec (cs.forM dispatch) beforeReply).1 = .ok () := by decide +kernel
  have done := exec_of_ok ok
  obtain ⟨reports, n, ht, one⟩ := exists_turns_recorder [cs] beforeReply
  obtain ⟨reports', n', ht', three⟩ := exists_turns_recorder [[cs[0]], [], [cs[1]]] beforeReply
  have cut : reports.flatMap (·.batch) = cs := by rw [List.flatMap_def, one]; rfl
  have cut' : reports'.flatMap (·.batch) = cs := by rw [List.flatMap_def, three]; rfl
  obtain ⟨-, -, -, -, calls, pushed, -, -, same⟩ :=
    batching_is_transparent obliging_recorder hg done ht cut ht' cut'
  refine ⟨hg, ok, reports, n, reports', n', ht, ht', one, three, pushed, calls, ?_, ?_⟩
  · rw [same]
  · rw [same]

end RingServer.EventLoop
