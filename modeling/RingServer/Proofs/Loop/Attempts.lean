import RingServer.Proofs.LogLine
import RingServer.Proofs.SlotPool
import RingServer.Proofs.Loop.Effects

/-!
What a loop tries to push, and what becomes of it. A `Register` notes every attempt to push, refused
or not, with the bytes that the submission would send at that time. Whatever becomes of its
attempts, a step leaves the bytes alone that the kernel had been lent before, and what it has tried
to send stands in slots that it has lent for it (`SlotPool.Passes`). The fixed writes that it tries
carry the letters that its deeds occasion, in their order, less those for which no slot was free
(`Performs.tries`). It ends with the first attempt that is refused.
-/

namespace RingServer

open Text (Bytes)

/-- An attempt to push a submission. -/
structure Attempt where
  submission : Submission
  /-- What the submission would send at that time. -/
  bytes : Bytes
  accepted : Bool

namespace Attempt

def slot? (a : Attempt) : Option UInt16 := a.submission.slot?

def control? (a : Attempt) : Option (Opcode × Descriptor) := a.submission.control?

/-- A fixed write stays within the slot that its tag names. -/
def Fits (size : Nat) (a : Attempt) : Prop :=
  ∀ i, a.slot? = some i → ∃ fd length, length.toNat ≤ size ∧
    a.submission = ⟨.onSlot i, .writeFixed fd ⟨i, i.toNat * size, length⟩⟩

/-- What a fixed write would send depends on nothing but its slot. -/
theorem Fits.bytes_congr {size : Nat} {a : Attempt} {m n : Memory} (hf : a.Fits size)
    (h : ∀ i, a.slot? = some i → ∀ b, i.toNat * size ≤ b → b < i.toNat * size + size →
      n.get b = m.get b) : a.submission.bytes n = a.submission.bytes m := by
  cases hs : a.slot? with
  | none =>
    rw [slot?, Submission.slot?] at hs
    unfold Submission.bytes
    split at hs
    · cases hs
    · split <;> simp_all
  | some i =>
    obtain ⟨fd, length, hl, e⟩ := hf i hs
    rw [e]
    apply List.map_congr_left
    intro k hk
    have hk : k < length.toNat := List.mem_range.mp hk
    exact h i hs (i.toNat * size + k) (Nat.le_add_right _ _) (by omega)

end Attempt

/-- A backend and the attempts to push to it. -/
structure Register (β : Type) where
  inner : β
  attempts : List Attempt

namespace Register

variable {β : Type}

def of (inner : β) : Register β := ⟨inner, []⟩

variable [Backend β]

def push (memory : Memory) (s : Submission) (r : Register β) : Except Fault Unit × Register β :=
  ((Backend.push memory s r.inner).1, ⟨(Backend.push memory s r.inner).2,
    r.attempts ++ [⟨s, s.bytes memory, (Backend.push memory s r.inner).1.isOk⟩]⟩)

instance : Backend (Register β) where
  push := push
  flush memory r :=
    ((Backend.flush memory r.inner).1, { r with inner := (Backend.flush memory r.inner).2 })
  wait memory n r :=
    ((Backend.wait memory n r.inner).1, { r with inner := (Backend.wait memory n r.inner).2 })
  drain r := ((Backend.drain r.inner).1, { r with inner := (Backend.drain r.inner).2 })
  pending r := Backend.pending r.inner

end Register

/-! ## Slots -/

namespace SlotPool

/-- A step that starts with the kernel owning the slots of `flying` lends the slots of its attempts
besides, leaves the bytes of the former alone, and leaves in the latter what the attempts would
send. -/
structure Passes (flying : List UInt16) (as : List Attempt) (p q : SlotPool) : Prop where
  lends : q.Lends (flying ++ as.filterMap (·.slot?))
  capacity : q.capacity = p.capacity
  size : q.entrySize = p.entrySize
  fits : ∀ a ∈ as, a.Fits p.entrySize
  kept : ∀ i ∈ flying, ∀ b, p.offset i ≤ b → b < p.offset i + p.entrySize →
    q.memory.get b = p.memory.get b
  bytes : ∀ a ∈ as, a.submission.bytes q.memory = a.bytes

variable {flying : List UInt16} {as bs : List Attempt} {p q r : SlotPool}

theorem Passes.refl (h : p.Lends flying) : Passes flying [] p p := by
  refine ⟨?_, rfl, rfl, by simp, fun _ _ _ _ _ => rfl, by simp⟩
  simpa using h

theorem Passes.trans (h : Passes flying as p q)
    (h' : Passes (flying ++ as.filterMap (·.slot?)) bs q r) : Passes flying (as ++ bs) p r := by
  have place : ∀ i, q.offset i = p.offset i := fun i => congrArg (i.toNat * ·) h.size
  refine ⟨?_, h'.capacity.trans h.capacity, h'.size.trans h.size, fun a ha => ?_,
    fun i hi b hl hu => ?_, fun a ha => ?_⟩
  · rw [List.filterMap_append, ← List.append_assoc]
    exact h'.lends
  · rcases List.mem_append.mp ha with ha | ha
    · exact h.fits a ha
    · exact h.size ▸ h'.fits a ha
  · rw [h'.kept i (List.mem_append_left _ hi) b (by rw [place]; exact hl)
      (by rw [place, h.size]; exact hu)]
    exact h.kept i hi b hl hu
  · rcases List.mem_append.mp ha with ha | ha
    · rw [← h.bytes a ha]
      refine (h.fits a ha).bytes_congr fun i hi b hl hu => ?_
      have lent : i ∈ flying ++ as.filterMap (·.slot?) :=
        List.mem_append_right _ (List.mem_filterMap.mpr ⟨a, ha, hi⟩)
      exact h'.kept i lent b (by rw [place]; exact hl) (by rw [place, h.size]; exact hu)
    · exact h'.bytes a ha

/-- A push of what is no fixed write. -/
theorem Passes.of_slot?_eq_none {a : Attempt} (h : p.Lends flying) (ha : a.slot? = none)
    (hb : a.submission.bytes p.memory = a.bytes) : Passes flying [a] p p := by
  refine ⟨by simpa [ha] using h, rfl, rfl, fun b hm i hi => ?_, fun _ _ _ _ _ => rfl,
    fun b hm => ?_⟩
  · rw [List.mem_singleton.mp hm, ha] at hi
    cases hi
  · rw [List.mem_singleton.mp hm]
    exact hb

/-- A slot that has been acquired and filled can be lent, and its fixed write sends what it was
filled with. -/
theorem Lends.send {slot : Slot} {taken filled : SlotPool} {content : Bytes}
    (hl : p.Lends flying) (ha : p.acquire = (some slot, taken)) (hc : content.length ≤ p.entrySize)
    (hf : filled = ⟨p.entrySize, p.memory.write (p.offset slot.index) content, taken.free⟩) :
    ∃ loan lent, filled.lend slot content.length = .ok (loan, lent) ∧
      loan = ⟨slot.index, p.offset slot.index, .ofNat content.length⟩ ∧
      (∀ fd accepted, Passes flying [⟨⟨.onSlot slot.index, .writeFixed fd loan⟩,
        lent.memory.read loan.offset loan.length.toNat, accepted⟩] p lent) ∧
      (p.entrySize < UInt32.size → loan.length.toNat = content.length ∧
        lent.memory.read loan.offset loan.length.toNat = content) := by
  rcases hl.acquire with e | ⟨slot', taken', e, hnot, hcap, hh⟩
  · rw [e] at ha
    cases ha
  rw [ha] at e
  cases e
  have held : Holds filled flying slot.index := hh.of_free_eq (by rw [hf])
  have capacity : filled.capacity = p.capacity := by
    rw [← hcap, hf]
    rfl
  obtain ⟨loan, lent, he, -, hcap', lends⟩ := held.lend hnot content.length
  obtain ⟨hloan, memory, size⟩ := lend_eq_ok he
  rw [hf] at hloan memory size
  have room : min content.length p.entrySize = content.length := Nat.min_eq_left hc
  simp only [room] at hloan
  have place : offset ⟨p.entrySize, p.memory.write (p.offset slot.index) content, taken.free⟩
      slot.index = p.offset slot.index := rfl
  rw [place] at hloan
  refine ⟨loan, lent, he, hloan, fun fd accepted => ?_, fun small => ?_⟩
  · refine ⟨by rw [hloan]; exact lends, hcap'.trans capacity, size, fun a hm i hi => ?_,
      fun i hi b hb hb' => ?_, fun a hm => ?_⟩
    · rw [List.mem_singleton.mp hm] at hi ⊢
      rw [hloan] at hi ⊢
      cases hi
      refine ⟨fd, .ofNat content.length, Nat.le_trans ?_ hc, rfl⟩
      rw [UInt32.toNat_ofNat']
      exact Nat.mod_le _ _
    · rw [memory]
      apply Memory.get_write_outside
      have apart := p.offset_disjoint (fun e => hnot (e ▸ hi) : i ≠ slot.index)
      omega
    · rw [List.mem_singleton.mp hm]
      rfl
  · have fits : (UInt32.ofNat content.length).toNat = content.length :=
      UInt32.toNat_ofNat_of_lt' (Nat.lt_of_le_of_lt hc small)
    rw [hloan, memory]
    simp only [fits]
    exact ⟨trivial, Memory.read_write_self _ _ _⟩

end SlotPool

/-! ## Letters -/

/-- What is to be sent from a slot. -/
inductive Letter
  | line (level : Level) (message : String)
  | reply (fd : Descriptor) (bytes : Bytes)
  deriving DecidableEq

namespace Letter

/-- Where it goes. -/
def address : Letter → Descriptor
  | line _ _ => standardError
  | reply fd _ => fd

/-- What there is to read in a slot that it was written to. -/
def content (size : Nat) (slot : UInt16) (now : Instant) : Letter → Bytes
  | line level message => LogLine.line size slot level now message
  | reply _ bytes => bytes.take size

def isReply : Letter → Bool
  | line _ _ => false
  | reply _ _ => true

/-- A log line is dated. -/
def readings : Letter → Nat
  | line _ _ => 1
  | reply _ _ => 0

theorem length_content_le (size : Nat) (slot : UInt16) (now : Instant) (letter : Letter) :
    (letter.content size slot now).length ≤ size := by
  cases letter with
  | line level message => exact LogLine.length_line_le
  | reply fd bytes => exact List.length_take_le _ _

end Letter

/-- The attempt is a fixed write that sends the letter from the start of a slot of its own. -/
def Attempt.Carries (size : Nat) (now : Instant) (letter : Letter) (a : Attempt) : Prop :=
  ∃ i length, a.submission = ⟨.onSlot i, .writeFixed letter.address ⟨i, i.toNat * size, length⟩⟩ ∧
    length.toNat = (letter.content size i now).length ∧ a.bytes = letter.content size i now

/-- The attempts carry letters of the list, in order, each line dated by the next reading of the
clock. Others may have been dropped. -/
inductive Matches (size : Nat) (clock : Nat → Instant) :
    Nat → List Attempt → List Letter → Nat → Prop
  | nil {k : Nat} : Matches size clock k [] [] k
  | dropped {k n : Nat} {as : List Attempt} {ls : List Letter} {letter : Letter} :
    Matches size clock k as ls n → Matches size clock k as (letter :: ls) n
  | carried {k n : Nat} {a : Attempt} {as : List Attempt} {letter : Letter} {ls : List Letter} :
    a.Carries size (clock k) letter → Matches size clock (k + letter.readings) as ls n →
    Matches size clock k (a :: as) (letter :: ls) n

namespace Matches

variable {size k n j : Nat} {clock : Nat → Instant} {as bs : List Attempt} {ls rs : List Letter}

theorem append (h : Matches size clock k as ls n) (h' : Matches size clock n bs rs j) :
    Matches size clock k (as ++ bs) (ls ++ rs) j := by
  induction h with
  | nil => exact h'
  | dropped _ ih => exact .dropped (ih h')
  | carried first _ ih => exact .carried first (ih h')

/-- All letters may have been dropped. -/
theorem nothing (ls : List Letter) : Matches size clock k [] ls k := by
  induction ls with
  | nil => exact .nil
  | cons letter ls ih => exact .dropped ih

theorem weaken (h : Matches size clock k as ls n) (rs : List Letter) :
    Matches size clock k as (ls ++ rs) n := by
  have more := h.append (nothing rs)
  rwa [List.append_nil] at more

theorem carries_mem (h : Matches size clock k as ls n) :
    ∀ a ∈ as, ∃ letter ∈ ls, ∃ now, a.Carries size now letter := by
  induction h with
  | nil => simp
  | dropped _ ih =>
    intro a ha
    obtain ⟨letter, hm, carries⟩ := ih a ha
    exact ⟨letter, List.mem_cons_of_mem _ hm, carries⟩
  | carried first _ ih =>
    intro a ha
    rcases List.mem_cons.mp ha with rfl | ha
    · exact ⟨_, List.mem_cons_self, _, first⟩
    · obtain ⟨letter, hm, carries⟩ := ih a ha
      exact ⟨letter, List.mem_cons_of_mem _ hm, carries⟩

end Matches

namespace EventLoop

variable {β ρ σ : Type}

/-- The copied reply of a handler to a message. -/
def replied (handler : Handler σ) (s : σ) (fd : Descriptor) (payload : Bytes) : List Letter :=
  match (handler.respond s fd payload).1 with
  | .copied bytes => [.reply fd bytes]
  | .fixed _ | .nothing => []

/-- What a deed occasions to be sent from a slot. -/
def Deed.letters (handler : Handler σ) (s : σ) : Deed → List Letter
  | log message => [.line .info message]
  | answer fd payload => replied handler s fd payload
  | track _ | forget _ | tally _ _ | armAccept _ | armReceive _ | shutDown _ | close _ | recycle _
  | blame => []

/-- What becomes of the state of the handler. -/
def Deed.onHandler (handler : Handler σ) (s : σ) : Deed → σ
  | answer fd payload => (handler.respond s fd payload).2
  | track _ | forget _ | tally _ _ | armAccept _ | armReceive _ | shutDown _ | close _ | recycle _
  | blame | log _ => s

def lettersOf (handler : Handler σ) : σ → List Deed → List Letter
  | _, [] => []
  | s, d :: ds => d.letters handler s ++ lettersOf handler (d.onHandler handler s) ds

theorem lettersOf_append (handler : Handler σ) (s : σ) (ds es : List Deed) :
    lettersOf handler s (ds ++ es) = lettersOf handler s ds ++
      lettersOf handler (ds.foldl (Deed.onHandler handler) s) es := by
  induction ds generalizing s with
  | nil => rfl
  | cons d ds ih =>
    rw [List.cons_append, lettersOf, ih, ← List.append_assoc]
    rfl

/-! ## Steps -/

/-- What a step that starts with the kernel owning the slots of `flying` tries to push: its
controls, and letters from slots that it lends. It ends with the first attempt that is refused. -/
structure Tries (flying : List UInt16) (controls : List (Opcode × Descriptor))
    (letters : List Letter) (as : List Attempt) (l : Watched (Register β) ρ σ) (x : Option Fault)
    (m : Watched (Register β) ρ σ) : Prop where
  handler : m.handler = l.handler
  handlerState : m.handlerState = l.handlerState
  clock : m.clock = l.clock
  attempts : m.backend.inner.attempts = l.backend.inner.attempts ++ as
  pushed : m.backend.pushed = l.backend.pushed ++ (as.filter (·.accepted)).map (·.submission)
  refusals : m.backend.refusals = l.backend.refusals + (as.filter (!·.accepted)).length
  all : x = none ↔ ∀ a ∈ as, a.accepted = true
  last : ∀ a ∈ as.dropLast, a.accepted = true
  controls : as.filterMap (·.control?) = controls
  passes : SlotPool.Passes flying as l.pool m.pool
  carried : l.pool.entrySize < UInt32.size →
    Matches l.pool.entrySize l.clock l.readings (as.filter (·.slot?.isSome)) letters m.readings

variable {flying : List UInt16} {cs ds : List (Opcode × Descriptor)} {ls rs : List Letter}
  {as bs : List Attempt} {l m n : Watched (Register β) ρ σ} {x : Option Fault}

/-- Loops that differ in nothing that matters to what is tried. -/
structure Untried (l m : Watched (Register β) ρ σ) : Prop where
  handler : m.handler = l.handler
  handlerState : m.handlerState = l.handlerState
  clock : m.clock = l.clock
  readings : m.readings = l.readings
  attempts : m.backend.inner.attempts = l.backend.inner.attempts
  pushed : m.backend.pushed = l.backend.pushed
  refusals : m.backend.refusals = l.backend.refusals
  pool : m.pool = l.pool

theorem Untried.refl (l : Watched (Register β) ρ σ) : Untried l l :=
  ⟨rfl, rfl, rfl, rfl, rfl, rfl, rfl, rfl⟩

theorem Untried.of_ring (h : m = { l with ring := m.ring }) : Untried l m := by
  rw [h]
  exact ⟨rfl, rfl, rfl, rfl, rfl, rfl, rfl, rfl⟩

theorem Quiet.untried (h : Quiet l m) : Untried l m := by
  rw [h.1]
  exact ⟨rfl, rfl, rfl, rfl, rfl, rfl, rfl, rfl⟩

theorem Untried.tries (h : Untried l m) (hl : l.pool.Lends flying) (ls : List Letter) :
    Tries flying [] ls [] l none m where
  handler := h.handler
  handlerState := h.handlerState
  clock := h.clock
  attempts := by rw [h.attempts, List.append_nil]
  pushed := by
    rw [h.pushed]
    exact (List.append_nil _).symm
  refusals := h.refusals
  all := by simp
  last := by simp
  controls := rfl
  passes := by
    rw [h.pool]
    exact .refl hl
  carried _ := by
    rw [h.readings]
    exact .nothing ls

theorem Tries.trans (h : Tries flying cs ls as l none m)
    (h' : Tries (flying ++ as.filterMap (·.slot?)) ds rs bs m x n) :
    Tries flying (cs ++ ds) (ls ++ rs) (as ++ bs) l x n where
  handler := h'.handler.trans h.handler
  handlerState := h'.handlerState.trans h.handlerState
  clock := h'.clock.trans h.clock
  attempts := by rw [h'.attempts, h.attempts, List.append_assoc]
  pushed := by rw [h'.pushed, h.pushed, List.filter_append, List.map_append, List.append_assoc]
  refusals := by
    rw [h'.refusals, h.refusals, List.filter_append, List.length_append, Nat.add_assoc]
  all := by
    rw [h'.all]
    constructor
    · intro accepted a ha
      rcases List.mem_append.mp ha with ha | ha
      · exact h.all.mp rfl a ha
      · exact accepted a ha
    · exact fun accepted a ha => accepted a (List.mem_append_right _ ha)
  last a ha := by
    rcases List.eq_nil_or_concat bs with rfl | ⟨bs, b, rfl⟩
    · rw [List.append_nil] at ha
      exact h.all.mp rfl a (List.dropLast_subset _ ha)
    · rw [List.concat_eq_append, ← List.append_assoc, List.dropLast_concat] at ha
      rcases List.mem_append.mp ha with ha | ha
      · exact h.all.mp rfl a ha
      · exact h'.last a (by simpa using ha)
  controls := by rw [List.filterMap_append, h.controls, h'.controls]
  passes := h.passes.trans h'.passes
  carried small := by
    have second := h'.carried (by rw [h.passes.size]; exact small)
    rw [h.passes.size, h.clock] at second
    rw [List.filter_append]
    exact (h.carried small).append second

section

variable [Backend β]

/-- An attempt is noted, and ends a step if it is refused. -/
theorem exec_submit_noted (tag : Tag) (operation : Operation) (l : Watched (Register β) ρ σ) :
    ∃ x inner accepted, exec (submit tag operation) l = (x, { l with backend :=
      ⟨⟨inner, l.backend.inner.attempts ++ [⟨⟨tag, operation⟩,
          Submission.bytes l.pool.memory ⟨tag, operation⟩, accepted⟩]⟩,
        l.backend.pushed ++ if accepted then [⟨tag, operation⟩] else [],
        l.backend.refusals + if accepted then 0 else 1⟩ }) ∧
      (fault? x = none ↔ accepted = true) := by
  have pushes : Backend.push l.pool.memory ⟨tag, operation⟩ l.backend =
    Journal.push l.pool.memory ⟨tag, operation⟩ l.backend := rfl
  have notes : Backend.push l.pool.memory ⟨tag, operation⟩ l.backend.inner =
    Register.push l.pool.memory ⟨tag, operation⟩ l.backend.inner := rfl
  rw [exec_submit, pushes, Journal.push, notes, Register.push]
  rcases Backend.push l.pool.memory ⟨tag, operation⟩ l.backend.inner.inner with ⟨e | a, inner⟩
  · exact ⟨.error e, inner, false, by simp [Except.isOk, Except.toBool], by simp [fault?]⟩
  · exact ⟨.ok (), inner, true, by simp [Except.isOk, Except.toBool], by simp [fault?]⟩

/-- One attempt, from a loop that differs from the one before at most in the pool and in what does
not matter. -/
theorem tries_submit {k : Watched (Register β) ρ σ} {tag : Tag} {operation : Operation}
    (ls : List Letter) (handler : l.handler = k.handler)
    (handlerState : l.handlerState = k.handlerState) (clock : l.clock = k.clock)
    (backend : l.backend = k.backend)
    (passes : ∀ accepted, SlotPool.Passes flying [⟨⟨tag, operation⟩,
      Submission.bytes l.pool.memory ⟨tag, operation⟩, accepted⟩] k.pool l.pool)
    (carried : k.pool.entrySize < UInt32.size → ∀ accepted, Matches k.pool.entrySize k.clock
      k.readings ([⟨⟨tag, operation⟩, Submission.bytes l.pool.memory ⟨tag, operation⟩,
        accepted⟩].filter fun a : Attempt => a.slot?.isSome) ls l.readings) :
    ∃ accepted, Tries flying operation.control?.toList ls
      [⟨⟨tag, operation⟩, Submission.bytes l.pool.memory ⟨tag, operation⟩, accepted⟩] k
      (fault? (exec (submit tag operation) l).1) (exec (submit tag operation) l).2 := by
  obtain ⟨x, inner, accepted, e, ok⟩ := exec_submit_noted tag operation l
  rw [e]
  refine ⟨accepted, handler, handlerState, clock, ?_, ?_, ?_, ?_, ?_, ?_, passes accepted,
    fun small => carried small accepted⟩
  · rw [backend]
  · rw [backend]
    cases accepted <;> rfl
  · rw [backend]
    cases accepted <;> rfl
  · rw [ok]
    simp
  · simp
  · rw [List.filterMap_cons, List.filterMap_nil, Attempt.control?, Submission.control?]
    cases operation.control? <;> rfl

/-- What is no fixed write is no letter. -/
theorem tries_submit_unslotted (tag : Tag) (operation : Operation) (hl : l.pool.Lends flying)
    (hs : Submission.slot? ⟨tag, operation⟩ = none) (ls : List Letter) :
    ∃ as, Tries flying operation.control?.toList ls as l
      (fault? (exec (submit tag operation) l).1) (exec (submit tag operation) l).2 := by
  have unslotted : ∀ accepted, [(⟨⟨tag, operation⟩, Submission.bytes l.pool.memory ⟨tag, operation⟩,
      accepted⟩ : Attempt)].filter (·.slot?.isSome) = [] := by
    simp [Attempt.slot?, hs]
  have passes : ∀ accepted, SlotPool.Passes flying [⟨⟨tag, operation⟩,
      Submission.bytes l.pool.memory ⟨tag, operation⟩, accepted⟩] l.pool l.pool :=
    fun accepted => .of_slot?_eq_none hl hs rfl
  obtain ⟨accepted, tried⟩ := tries_submit ls rfl rfl rfl rfl passes fun _ accepted => by
      rw [unslotted]
      exact .nothing ls
  exact ⟨_, tried⟩

omit [Backend β] in
theorem Tries.after (h : Tries flying cs ls as l x m) (hu : Untried m n) :
    Tries flying cs ls as l x n where
  handler := hu.handler.trans h.handler
  handlerState := hu.handlerState.trans h.handlerState
  clock := hu.clock.trans h.clock
  attempts := hu.attempts.trans h.attempts
  pushed := hu.pushed.trans h.pushed
  refusals := hu.refusals.trans h.refusals
  all := h.all
  last := h.last
  controls := h.controls
  passes := hu.pool ▸ h.passes
  carried small := hu.readings ▸ h.carried small

omit [Backend β] in
theorem Tries.before (h : Tries flying cs ls as m x n) (hu : Untried l m) :
    Tries flying cs ls as l x n where
  handler := h.handler.trans hu.handler
  handlerState := h.handlerState.trans hu.handlerState
  clock := h.clock.trans hu.clock
  attempts := hu.attempts ▸ h.attempts
  pushed := hu.pushed ▸ h.pushed
  refusals := hu.refusals ▸ h.refusals
  all := h.all
  last := h.last
  controls := h.controls
  passes := hu.pool ▸ h.passes
  carried small := by
    rw [← hu.pool, ← hu.clock, ← hu.readings]
    exact h.carried (hu.pool ▸ small)

/-- A letter in a slot of its own is sent. -/
theorem tries_sendSlot {k : Watched (Register β) ρ σ} {slot : Slot} {taken : SlotPool}
    (letter : Letter) {content : Bytes} {f : Counters → Counters} (hl : k.pool.Lends flying)
    (ha : k.pool.acquire = (some slot, taken))
    (hc : content = letter.content k.pool.entrySize slot.index (k.clock k.readings))
    (hp : l.pool = ⟨k.pool.entrySize, k.pool.memory.write (k.pool.offset slot.index) content,
      taken.free⟩)
    (handler : l.handler = k.handler) (handlerState : l.handlerState = k.handlerState)
    (clock : l.clock = k.clock)
    (backend : l.backend = k.backend)
    (readings : l.readings = k.readings + letter.readings) :
    ∃ a, a.slot? = some slot.index ∧ Tries flying [] [letter] [a] k
      (fault? (exec (sendSlot letter.address slot content.length >>= fun _ => count f) l).1)
      (exec (sendSlot letter.address slot content.length >>= fun _ => count f) l).2 := by
  obtain ⟨loan, lent, he, hloan, passes, reads⟩ :=
    hl.send ha (hc ▸ letter.length_content_le _ _ _) hp
  have lends := exec_lendSlot slot content.length l
  rw [he] at lends
  have tried := tries_submit (l := { l with pool := lent }) [letter] handler handlerState clock
    backend (passes letter.address) fun small accepted => by
      obtain ⟨length, bytes⟩ := reads small
      show Matches _ _ _ [_] [letter] l.readings
      rw [readings]
      refine .carried ⟨slot.index, loan.length, ?_, hc ▸ length, hc ▸ bytes⟩ .nil
      rw [hloan]
      rfl
  have own : slot.index = loan.index := by rw [hloan]
  rw [own] at tried
  obtain ⟨accepted, tried⟩ := tried
  refine ⟨⟨⟨.onSlot loan.index, .writeFixed letter.address loan⟩,
    lent.memory.read loan.offset loan.length.toNat, accepted⟩, congrArg some own.symm, ?_⟩
  unfold sendSlot
  rw [bind_assoc, exec_bind_ok lends]
  rcases hs : exec (submit (.onSlot loan.index) (.writeFixed letter.address loan))
      { l with pool := lent } with ⟨e | a, n⟩
  · rw [hs] at tried
    rw [exec_bind_error hs]
    exact tried
  · rw [hs] at tried
    rw [exec_bind_ok hs]
    exact tried.after ⟨rfl, rfl, rfl, rfl, rfl, rfl, rfl, rfl⟩

/-- A line is dropped for want of a slot, and for nothing else. -/
theorem tries_writeLog (level : Level) (message : String) (hl : l.pool.Lends flying) :
    ∃ as, Tries flying [] [.line level message] as l (fault? (exec (writeLog level message) l).1)
        (exec (writeLog level message) l).2 ∧
      (as.filter (·.slot?.isSome) = [] ↔ l.pool.available = 0) := by
  have exhausted := hl.acquire_eq_none_iff
  unfold writeLog acquireSlot
  rw [exec_bind_ok (exec_modifyGet _ l)]
  rcases ha : l.pool.acquire with ⟨_ | slot, taken⟩
  · rcases hl.acquire with e | ⟨_, _, e, -⟩
    · rw [ha] at e exhausted
      cases e
      refine ⟨[], Untried.tries ?_ hl _, by simpa using exhausted⟩
      exact ⟨rfl, rfl, rfl, rfl, rfl, rfl, rfl, rfl⟩
    · rw [ha] at e
      cases e
  · have one : ∀ {x : Option Fault} {m : Watched (Register β) ρ σ},
        (∃ a, a.slot? = some slot.index ∧ Tries flying [] [.line level message] [a] l x m) →
        ∃ as, Tries flying [] [.line level message] as l x m ∧
          (as.filter (·.slot?.isSome) = [] ↔ l.pool.available = 0) := by
      rintro x m ⟨a, own, tried⟩
      rw [ha] at exhausted
      exact ⟨[a], tried, by simpa [own] using exhausted⟩
    apply one
    show ∃ a, _ ∧ Tries _ _ _ _ l (fault? (exec (readClock >>= _) _).1)
      (exec (readClock >>= _) _).2
    unfold readClock
    rw [exec_bind_ok (exec_modifyGet _ _), exec_bind_ok (exec_modifyGet _ _)]
    obtain ⟨memory, size⟩ := SlotPool.acquire_eq ha
    simp only [LogLine.format_eq]
    refine tries_sendSlot (.line level message) hl ha ?_ ?_ rfl rfl rfl rfl rfl
    · rw [size]
      rfl
    · simp only [memory, size, SlotPool.offset]

theorem tries_queueReply (fd : Descriptor) (reply : Reply) (hl : l.pool.Lends flying) :
    ∃ as, Tries flying [] (match reply with
        | .copied bytes => [.reply fd bytes]
        | .fixed _ | .nothing => []) as l (fault? (exec (queueReply fd reply) l).1)
      (exec (queueReply fd reply) l).2 := by
  cases reply with
  | nothing => exact ⟨[], (Untried.refl l).tries hl _⟩
  | fixed bytes =>
    obtain ⟨as, tried⟩ :=
      tries_submit_unslotted (.onDescriptor fd .send) (.sending fd bytes) hl rfl []
    show ∃ as, Tries _ _ _ as l (fault? (exec (submit _ _ >>= fun _ => countReply) l).1)
      (exec (submit _ _ >>= fun _ => countReply) l).2
    rcases hs : exec (submit (.onDescriptor fd .send) (.sending fd bytes)) l with ⟨e | a, n⟩
    · rw [hs] at tried
      rw [exec_bind_error hs]
      exact ⟨as, tried⟩
    · rw [hs] at tried
      rw [exec_bind_ok hs]
      exact ⟨as, tried.after ⟨rfl, rfl, rfl, rfl, rfl, rfl, rfl, rfl⟩⟩
  | copied bytes =>
    unfold queueReply acquireSlot
    rw [exec_bind_ok (exec_modifyGet _ l)]
    rcases ha : l.pool.acquire with ⟨_ | slot, taken⟩
    · rcases hl.acquire with e | ⟨_, _, e, -⟩
      · rw [ha] at e
        cases e
        refine ⟨[], Untried.tries ?_ hl _⟩
        exact ⟨rfl, rfl, rfl, rfl, rfl, rfl, rfl, rfl⟩
      · rw [ha] at e
        cases e
    · obtain ⟨memory, size⟩ := SlotPool.acquire_eq ha
      have sent : min bytes.length taken.entrySize = (bytes.take l.pool.entrySize).length := by
        rw [List.length_take, size, Nat.min_comm]
      show ∃ as, Tries _ _ _ as l (fault? (exec (get >>= _) _).1) (exec (get >>= _) _).2
      rw [exec_bind_ok (exec_get _), exec_bind_ok (exec_modify _ _)]
      simp only [sent]
      -- A reply that is cut is told first.
      have sending : ∀ n : Watched (Register β) ρ σ,
          n.pool = ⟨l.pool.entrySize, l.pool.memory.write (l.pool.offset slot.index)
            (bytes.take l.pool.entrySize), taken.free⟩ → n.handler = l.handler →
          n.handlerState = l.handlerState → n.clock = l.clock → n.backend = l.backend →
          n.readings = l.readings →
          ∃ as, Tries flying [] [.reply fd bytes] as l
            (fault? (exec (sendSlot fd slot (bytes.take l.pool.entrySize).length >>= fun _ =>
              countReply) n).1)
            (exec (sendSlot fd slot (bytes.take l.pool.entrySize).length >>= fun _ =>
              countReply) n).2 := by
        intro n hp hh hs hc hb hr
        obtain ⟨a, -, tried⟩ := tries_sendSlot (.reply fd bytes) hl ha rfl hp hh hs hc hb hr
        exact ⟨[a], tried⟩
      have filled : SlotPool.write taken slot 0 bytes = ⟨l.pool.entrySize,
          l.pool.memory.write (l.pool.offset slot.index) (bytes.take l.pool.entrySize),
          taken.free⟩ := by
        unfold SlotPool.write
        rw [Nat.add_zero, Nat.sub_zero]
        simp only [memory, size, SlotPool.offset]
      split
      · rw [exec_bind_ok (exec_count _ _), exec_bind_ok (exec_emit _ _ _ _)]
        exact sending _ filled rfl rfl rfl rfl rfl
      · exact sending _ filled rfl rfl rfl rfl rfl

/-! ## Deeds -/

/-- The loop with its handler in the state that deeds leave it in. -/
def heeded (ds : List Deed) (l : EventLoop β ρ σ) : EventLoop β ρ σ :=
  { l with handlerState := ds.foldl (Deed.onHandler l.handler) l.handlerState }

/-- A deed tries what it is to push, whatever becomes of it. -/
theorem Deed.tries [BufferSource ρ] (d : Deed) (hl : l.pool.Lends flying) :
    ∃ as, Tries flying d.control?.toList (d.letters l.handler l.handlerState) as (heeded [d] l)
      (fault? (exec d.run l).1) (exec d.run l).2 := by
  cases d with
  | track fd | forget fd | tally fd n | recycle b | blame =>
    refine ⟨[], Untried.tries ?_ hl _⟩
    exact ⟨rfl, rfl, rfl, rfl, rfl, rfl, rfl, rfl⟩
  | armAccept fd => exact tries_submit_unslotted (.onDescriptor fd .accept) (.accept fd) hl rfl []
  | armReceive fd =>
    show ∃ as, Tries _ _ _ as l (fault? (exec (EventLoop.armReceive fd) l).1)
      (exec (EventLoop.armReceive fd) l).2
    unfold EventLoop.armReceive
    rw [exec_bind_ok (exec_get l)]
    exact tries_submit_unslotted (.onDescriptor fd .receive) (.receive fd _) hl rfl []
  | shutDown fd =>
    rw [Deed.run, exec_bind_ok (exec_modify _ l)]
    obtain ⟨as, tried⟩ := tries_submit_unslotted (.onDescriptor fd .shutdown) (.shutdown fd)
      (l := { l with connections := (Deed.shutDown fd).onTable l.peerOf l.connections }) hl rfl []
    exact ⟨as, tried.before ⟨rfl, rfl, rfl, rfl, rfl, rfl, rfl, rfl⟩⟩
  | close fd =>
    rw [Deed.run, exec_bind_ok (exec_modify _ l)]
    obtain ⟨as, tried⟩ := tries_submit_unslotted (.onDescriptor fd .close) (.close fd)
      (l := { l with connections := (Deed.close fd).onTable l.peerOf l.connections }) hl rfl []
    exact ⟨as, tried.before ⟨rfl, rfl, rfl, rfl, rfl, rfl, rfl, rfl⟩⟩
  | log message =>
    obtain ⟨as, tried, -⟩ := tries_writeLog .info message hl
    exact ⟨as, tried⟩
  | answer fd payload =>
    show ∃ as, Tries _ _ _ as _ (fault? (exec (EventLoop.answer fd payload) l).1)
      (exec (EventLoop.answer fd payload) l).2
    rw [exec_answer]
    exact tries_queueReply fd (l.handler.respond l.handlerState fd payload).1 hl

omit [Backend β] in
/-- The state of the handler does not matter. -/
theorem Tries.restate (h : Tries flying cs ls as l x m) (s : σ × List Call) :
    Tries flying cs ls as { l with handlerState := s } x { m with handlerState := s } :=
  ⟨h.handler, rfl, h.clock, h.attempts, h.pushed, h.refusals, h.all, h.last, h.controls,
    h.passes, h.carried⟩

/-- The deeds that have been tried: all of them, unless the last was a fault. -/
structure Tried [BufferSource ρ] (flying : List UInt16) (ds done : List Deed) (as : List Attempt)
    (l : Watched (Register β) ρ σ) (x : Option Fault) (m : Watched (Register β) ρ σ) : Prop where
  begins : done <+: ds
  some : done = [] → ds = []
  whole : (∀ a ∈ as, a.accepted = true) → done = ds
  tries : Tries flying (done.filterMap Deed.control?) (lettersOf l.handler l.handlerState done) as
    (heeded done l) x m
  connections : m.connections = done.foldl (Deed.onTable l.peerOf) l.connections
  listener : m.listener = l.listener

omit [Backend β] in
theorem heeded_cons {d : Deed} (done : List Deed) (hh : m.handler = l.handler)
    (hs : m.handlerState = d.onHandler l.handler l.handlerState) :
    heeded done m = { m with handlerState := (heeded (d :: done) l).handlerState } := by
  unfold heeded
  rw [List.foldl_cons, ← hs, ← hh]

omit [Backend β] in
theorem tried_nil [BufferSource ρ] (hl : l.pool.Lends flying) :
    Tried flying [] [] [] l none l :=
  ⟨List.prefix_refl _, fun _ => rfl, fun _ => rfl, (Untried.refl _).tries hl _, rfl, rfl⟩

omit [Backend β] in
theorem Tried.of_quiet [BufferSource ρ] {ds done : List Deed}
    (h : Tried flying ds done as m x n) (hq : Quiet l m) : Tried flying ds done as l x n := by
  obtain ⟨e, -⟩ := hq
  have same : Untried (heeded done l) (heeded done m) := by
    rw [e]
    exact ⟨rfl, rfl, rfl, rfl, rfl, rfl, rfl, rfl⟩
  have letters : lettersOf m.handler m.handlerState done =
      lettersOf l.handler l.handlerState done := by
    rw [e]
  refine ⟨h.begins, h.some, h.whole, letters ▸ h.tries.before same, ?_, ?_⟩
  · rw [h.connections, e]
  · rw [h.listener, e]

omit [Backend β] in
theorem control?_cons (d : Deed) (ds : List Deed) :
    (d :: ds).filterMap Deed.control? = d.control?.toList ++ ds.filterMap Deed.control? := by
  rw [List.filterMap_cons]
  cases d.control? <;> rfl

/-- A deed that is no fault comes before the others. -/
theorem Tried.cons [BufferSource ρ] {d : Deed} {ds done : List Deed}
    (first : Tries flying d.control?.toList (d.letters l.handler l.handlerState) as (heeded [d] l)
      none m) (left : d.Leaves l m)
    (h : Tried (flying ++ as.filterMap (·.slot?)) ds done bs m x n) :
    Tried flying (d :: ds) (d :: done) (as ++ bs) l x n := by
  have state : m.handlerState = d.onHandler l.handler l.handlerState := first.handlerState
  refine ⟨List.cons_prefix_cons.mpr ⟨rfl, h.begins⟩, by simp,
    fun accepted => congrArg (d :: ·) (h.whole fun a ha => accepted a (List.mem_append_right _ ha)),
    ?_, ?_, h.listener.trans left.listener⟩
  · have letters : lettersOf m.handler m.handlerState done =
        lettersOf l.handler (d.onHandler l.handler l.handlerState) done := by
      rw [left.handler, state]
    have second := h.tries
    rw [heeded_cons done left.handler state, letters] at second
    rw [control?_cons]
    exact (first.restate _).trans second
  · rw [h.connections, left.connections, left.peerOf]
    rfl

/-- Deeds are tried in their order, up to the first that is a fault. -/
theorem Performs.tries [BufferSource ρ] {ds : List Deed} (h : Performs ds l x m)
    (hl : l.pool.Lends flying) : ∃ done as, Tried flying ds done as l x m := by
  induction h generalizing flying with
  | @nil l m hq => exact ⟨[], [], (tried_nil (by rw [hq.1]; exact hl)).of_quiet hq⟩
  | @deed d ds l k n m x hq run _ ih =>
    have lends : k.pool.Lends flying := by
      rw [hq.1]
      exact hl
    obtain ⟨as, first⟩ := d.tries lends
    rw [run] at first
    obtain ⟨done, bs, tried⟩ := ih first.passes.lends
    exact ⟨d :: done, as ++ bs, (tried.cons first (Deed.leaves run)).of_quiet hq⟩
  | @fault d ds l k n m e hq run tidy =>
    have lends : k.pool.Lends flying := by
      rw [hq.1]
      exact hl
    obtain ⟨as, first⟩ := d.tries lends
    rw [run] at first
    have left := Deed.leaves run
    refine ⟨[d], as, Tried.of_quiet ⟨?_, by simp, fun accepted => ?_, ?_, ?_, ?_⟩ hq⟩
    · exact List.cons_prefix_cons.mpr ⟨rfl, List.nil_prefix⟩
    · cases first.all.mpr accepted
    · rw [control?_cons, lettersOf, lettersOf, List.filterMap_nil, List.append_nil, List.append_nil]
      exact first.after (.of_ring tidy)
    · rw [tidy]
      exact left.connections
    · rw [tidy]
      exact left.listener

end

end EventLoop

end RingServer
