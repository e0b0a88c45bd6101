import RingServer.Proofs.Message
import RingServer.Proofs.Requests

/-!
A plain queue stands in for a shared ring. Both are buffer groups, and whoever uses one can only
receive into it, take buffers and give them back (`BufferRequest`); `Traffic` is a group with the
buffers that are under way. What ties a queue to a ring is `Alike`: the queue lists the entries
between the head and the tail of the ring, the ledgers are the same, and so are the buffers, byte by
byte. Every request that a user may make keeps it, however far the positions of the ring wrap
(`Alike.perform`).
-/

namespace RingServer

open Text (Bytes)
open BufferRing (bufferAddress entryBytes)

/-- What the kernel and the application do with a buffer group. -/
inductive BufferRequest
  | receive (fd : Descriptor) (payload : Bytes) (truncated more : Bool)
  | receiveRaw (fd : Descriptor) (bytes : Bytes) (result : Int32) (more : Bool)
  | take (id : UInt16) (length : Nat)
  | recycle (b : ReceivedBuffer)

inductive BufferAnswer
  /-- The completion of a receive, unless no buffer waited. -/
  | received (c : Option Completion)
  | taken (outcome : Except Fault ReceivedBuffer)
  | recycled
  deriving DecidableEq

/-- The answer to a request, and who has how many buffers then. -/
structure BufferReport where
  answer : BufferAnswer
  visible : Nat
  held : Nat
  deriving DecidableEq

/-- A buffer group with the buffers that are under way. -/
structure Traffic (ρ : Type) where
  source : ρ
  /-- Buffers that a completion named, not taken yet. -/
  picked : List UInt16
  /-- Buffers with the application. -/
  held : List ReceivedBuffer

namespace Traffic

variable {ρ : Type} [BufferSource ρ] [KernelSide ρ]

def start (source : ρ) : Traffic ρ := ⟨source, [], []⟩

def afterReceive (t : Traffic ρ) : Option (Completion × ρ) → BufferAnswer × Traffic ρ
  | none => (.received none, t)
  | some (c, source) => (.received (some c), ⟨source, t.picked ++ c.bufferId?.toList, t.held⟩)

def afterTake (id : UInt16) (t : Traffic ρ) :
    Except Fault ReceivedBuffer × ρ → BufferAnswer × Traffic ρ
  | (.ok b, source) => (.taken (.ok b), ⟨source, t.picked.erase id, t.held ++ [b]⟩)
  | (.error fault, source) => (.taken (.error fault), ⟨source, t.picked, t.held⟩)

def answer (t : Traffic ρ) : BufferRequest → BufferAnswer × Traffic ρ
  | .receive fd payload truncated more =>
    t.afterReceive (KernelSide.receive fd payload truncated more t.source)
  | .receiveRaw fd bytes result more =>
    t.afterReceive (KernelSide.receiveRaw fd bytes result more t.source)
  | .take id length => t.afterTake id (BufferSource.take id length t.source)
  | .recycle b => (.recycled, ⟨BufferSource.recycle b t.source, t.picked, t.held.erase b⟩)

def perform (r : BufferRequest) (t : Traffic ρ) : BufferReport × Traffic ρ :=
  let (answer, u) := t.answer r
  (⟨answer, BufferSource.visible u.source, BufferSource.held u.source⟩, u)

/-- What may be asked: no more than a buffer holds is stored in one, a buffer that still waits is
not taken, and what is given back is in hand. To take what is in hand already, or what does not
exist, is allowed. -/
def Permits : BufferRequest → Traffic ρ → Prop
  | .receive .., t => Envelope.headerSize ≤ BufferSource.entrySize t.source
  | .receiveRaw _ bytes _ _, t => bytes.length ≤ BufferSource.entrySize t.source
  | .take id _, t =>
    id ∈ t.picked ∨ BufferSource.entries t.source ≤ id.toNat ∨ id ∈ t.held.map (·.id)
  | .recycle b, t => b ∈ t.held

instance : ∀ (r : BufferRequest) (t : Traffic ρ), Decidable (Permits r t)
  | .receive .., _ => inferInstanceAs (Decidable (_ ≤ _))
  | .receiveRaw .., _ => inferInstanceAs (Decidable (_ ≤ _))
  | .take .., _ => inferInstanceAs (Decidable (_ ∨ _ ∨ _))
  | .recycle _, _ => inferInstanceAs (Decidable (_ ∈ _))

end Traffic

namespace KernelSide

variable {ρ : Type} [BufferSource ρ] [KernelSide ρ] {r s : ρ} {id : UInt16}

theorem receive_of_none (h : select r = none) (fd : Descriptor) (payload : Bytes)
    (truncated more : Bool) : receive fd payload truncated more r = none := by
  rw [receive, h]
  rfl

theorem receive_of_some (h : select r = some (id, s)) (fd : Descriptor) (payload : Bytes)
    (truncated more : Bool) : receive fd payload truncated more r =
      let kept := payload.take (BufferSource.entrySize s - Envelope.headerSize)
      some (completion fd id (Int32.ofNat (Envelope.headerSize + kept.length)) more,
        fill id (Envelope.header payload.length (truncated || kept.length < payload.length) ++ kept)
          s) := by
  rw [receive, h]
  rfl

omit [BufferSource ρ] in
theorem receiveRaw_of_none (h : select r = none) (fd : Descriptor) (bytes : Bytes) (result : Int32)
    (more : Bool) : receiveRaw fd bytes result more r = none := by
  rw [receiveRaw, h]
  rfl

omit [BufferSource ρ] in
theorem receiveRaw_of_some (h : select r = some (id, s)) (fd : Descriptor) (bytes : Bytes)
    (result : Int32) (more : Bool) : receiveRaw fd bytes result more r =
      some (completion fd id result more, fill id bytes s) := by
  rw [receiveRaw, h]
  rfl

end KernelSide

namespace Traffic

open SharedRing (Circuit)
open SharedRing.Circuit (Sound)

/-- The queue of `u` is what the ring of `t` amounts to, and the same buffers are under way. -/
structure Alike (p : RingParams) (t : Traffic SharedRing) (u : Traffic BufferQueue) : Prop where
  sound : ∃ selected recycled,
    Sound p ⟨t.source, selected, t.picked, t.held, recycled⟩ u.source.waiting
  ledger : u.source.ledger = t.source.ring.ledger
  group : t.source.ring.ledger.group = p.group
  entrySize : u.source.entrySize = p.entrySize.toNat
  memory : ∀ a, t.source.ring.memory.get (p.entries.toNat * entryBytes + a) =
    u.source.memory.get a
  picked : u.picked = t.picked
  held : u.held = t.held

variable {p : RingParams} {t : Traffic SharedRing} {u : Traffic BufferQueue} {granted : Nat}

theorem alike_start (hv : p.validate = .ok ()) {ring : SharedRing}
    (h : SharedRing.new granted p = .ok ring) : Alike p (start ring)
      (start (BufferQueue.new p.group p.entries p.entrySize.toNat)) := by
  obtain ⟨-, hg⟩ := SharedRing.of_new h
  have sound := Sound.start h
  rw [SharedRing.new, BufferRing.new_eq_ok hv hg] at h
  cases h
  obtain ⟨hp, -, -⟩ := RingParams.of_validate hv
  obtain ⟨params, ledger, -, -⟩ := BufferRing.written_spec hp (Nat.le_refl _)
  refine ⟨⟨[], [], sound⟩, ledger.symm, ?_, rfl, ?_, rfl, rfl⟩
  · exact congrArg Ledger.group ledger
  · exact BufferRing.get_publish_written hp

namespace Alike

theorem params (h : Alike p t u) : t.source.ring.params = p := by
  obtain ⟨_, _, sound⟩ := h.sound
  exact sound.params

theorem visible (h : Alike p t u) :
    BufferSource.visible t.source = BufferSource.visible u.source :=
  congrArg Ledger.kernel h.ledger.symm

theorem held_eq (h : Alike p t u) : BufferSource.held t.source = BufferSource.held u.source :=
  congrArg Ledger.held h.ledger.symm

theorem entrySize_eq (h : Alike p t u) :
    BufferSource.entrySize t.source = BufferSource.entrySize u.source := by
  show t.source.ring.params.entrySize.toNat = u.source.entrySize
  rw [h.params, h.entrySize]

theorem entries_eq (h : Alike p t u) :
    BufferSource.entries t.source = BufferSource.entries u.source := by
  obtain ⟨_, _, sound⟩ := h.sound
  show t.source.ring.params.entries.toNat = u.source.ledger.entries
  rw [h.params, h.ledger]
  exact sound.entries.symm

/-- A buffer holds the same bytes on both sides. -/
theorem data_eq (h : Alike p t u) (b : ReceivedBuffer) :
    BufferSource.data t.source b = BufferSource.data u.source b := by
  show t.source.ring.memory.read (bufferAddress t.source.ring.params b.id) b.length =
    u.source.memory.read (b.id.toNat * u.source.entrySize) b.length
  rw [h.params, h.entrySize, bufferAddress]
  apply List.map_congr_left
  intro i _
  rw [Nat.add_assoc]
  exact h.memory _

/-! ## Receiving -/

/-- Both sides run dry together, and otherwise pick the same buffer. -/
theorem select (h : Alike p t u) :
    (KernelSide.select t.source = none ∧ KernelSide.select u.source = none) ∨
    ∃ id ring queue, KernelSide.select t.source = some (id, ring) ∧
      KernelSide.select u.source = some (id, queue) ∧
      Alike p ⟨ring, t.picked ++ [id], t.held⟩ ⟨queue, u.picked ++ [id], u.held⟩ := by
  obtain ⟨⟨entrySize, memory, waiting, ledger⟩, picked, held⟩ := u
  obtain ⟨selected, recycled, sound⟩ := h.sound
  have first := sound.head?_eq
  cases hs : KernelSide.select t.source with
  | none =>
    change SharedRing.select t.source = none at hs
    rw [show SharedRing.select t.source = none from hs] at first
    cases waiting with
    | nil => exact .inl ⟨rfl, rfl⟩
    | cons id rest => cases first
  | some x =>
    obtain ⟨id, ring⟩ := x
    obtain ⟨rest, rfl, next⟩ := sound.select hs
    obtain ⟨-, -, rfl⟩ := SharedRing.of_select hs
    refine .inr ⟨id, _, ⟨entrySize, memory, rest, ledger⟩, rfl, rfl, ⟨_, _, next⟩, h.ledger,
      h.group, h.entrySize, h.memory, ?_, h.held⟩
    exact congrArg (· ++ [id]) h.picked

/-- What is stored in a buffer is stored at the same place of it on both sides. -/
theorem fill (h : Alike p t u) (hp : p.entries.toNat.isPowerOfTwo) (id : UInt16) (bytes : Bytes) :
    Alike p ⟨KernelSide.fill id bytes t.source, t.picked, t.held⟩
      ⟨KernelSide.fill id bytes u.source, u.picked, u.held⟩ := by
  obtain ⟨selected, recycled, sound⟩ := h.sound
  refine ⟨⟨selected, recycled, sound.fill hp id bytes⟩, h.ledger, h.group, h.entrySize, fun a => ?_,
    h.picked, h.held⟩
  show (t.source.ring.memory.write (bufferAddress t.source.ring.params id)
      (bytes.take t.source.ring.params.entrySize.toNat)).get _ =
    (u.source.memory.write (id.toNat * u.source.entrySize) (bytes.take u.source.entrySize)).get a
  rw [h.params, h.entrySize, bufferAddress, Memory.get_write, Memory.get_write, h.memory]
  simp only [Nat.add_le_add_iff_left, Nat.add_sub_add_left]

/-- A completion that names the buffer picked is reported alike. -/
theorem afterReceive {id : UInt16} {ring : SharedRing} {queue : BufferQueue}
    (h : Alike p ⟨ring, t.picked ++ [id], t.held⟩ ⟨queue, u.picked ++ [id], u.held⟩)
    (hp : p.entries.toNat.isPowerOfTwo) {c : Completion} (hc : c.bufferId? = some id)
    (bytes : Bytes) :
    (t.afterReceive (some (c, KernelSide.fill id bytes ring))).1 =
        (u.afterReceive (some (c, KernelSide.fill id bytes queue))).1 ∧
      Alike p (t.afterReceive (some (c, KernelSide.fill id bytes ring))).2
        (u.afterReceive (some (c, KernelSide.fill id bytes queue))).2 := by
  simp only [Traffic.afterReceive, hc, Option.toList_some]
  exact ⟨trivial, h.fill hp id bytes⟩

theorem receive (h : Alike p t u) (hp : p.entries.toNat.isPowerOfTwo) (fd : Descriptor)
    (payload : Bytes) (truncated more : Bool) :
    (t.answer (.receive fd payload truncated more)).1 =
        (u.answer (.receive fd payload truncated more)).1 ∧
      Alike p (t.answer (.receive fd payload truncated more)).2
        (u.answer (.receive fd payload truncated more)).2 := by
  rcases h.select with ⟨dry, dry'⟩ | ⟨id, ring, queue, picked, picked', next⟩
  · simp only [answer, KernelSide.receive_of_none dry, KernelSide.receive_of_none dry']
    exact ⟨rfl, h⟩
  · simp only [answer, KernelSide.receive_of_some picked, KernelSide.receive_of_some picked',
      next.entrySize_eq]
    exact afterReceive next hp (Completion.bufferId?_flagsOf _ _ _ _) _

theorem receiveRaw (h : Alike p t u) (hp : p.entries.toNat.isPowerOfTwo) (fd : Descriptor)
    (bytes : Bytes) (result : Int32) (more : Bool) :
    (t.answer (.receiveRaw fd bytes result more)).1 =
        (u.answer (.receiveRaw fd bytes result more)).1 ∧
      Alike p (t.answer (.receiveRaw fd bytes result more)).2
        (u.answer (.receiveRaw fd bytes result more)).2 := by
  rcases h.select with ⟨dry, dry'⟩ | ⟨id, ring, queue, picked, picked', next⟩
  · simp only [answer, KernelSide.receiveRaw_of_none dry, KernelSide.receiveRaw_of_none dry']
    exact ⟨rfl, h⟩
  · simp only [answer, KernelSide.receiveRaw_of_some picked, KernelSide.receiveRaw_of_some picked']
    exact afterReceive next hp (Completion.bufferId?_flagsOf _ _ _ _) _

/-! ## Taking and giving back -/

/-- A buffer that was picked is taken. -/
theorem take_of_picked (h : Alike p t u) {id : UInt16} (hid : id ∈ t.picked) (length : Nat) :
    (t.answer (.take id length)).1 = .taken (.ok ⟨p.group, id, min length p.entrySize.toNat⟩) ∧
      (u.answer (.take id length)).1 = (t.answer (.take id length)).1 ∧
      Alike p (t.answer (.take id length)).2 (u.answer (.take id length)).2 := by
  obtain ⟨selected, recycled, sound⟩ := h.sound
  have kernel := sound.kernel_of_picked hid
  have taken := SharedRing.take_of_kernel length kernel
  have taken' : BufferSource.take id length u.source = _ :=
    BufferQueue.take_of_kernel length (h.ledger ▸ kernel)
  obtain ⟨b, ring, e, -, next⟩ := sound.take hid length
  cases taken.symm.trans e
  rw [h.params] at taken next
  rw [h.ledger, h.group, h.entrySize] at taken'
  simp only [answer, taken, taken', afterTake]
  refine ⟨trivial, trivial, ⟨selected, recycled, next⟩, rfl, ?_, rfl, h.memory, ?_, ?_⟩
  · exact (Ledger.group_take _ _).trans h.group
  · exact congrArg (·.erase id) h.picked
  · exact congrArg (· ++ _) h.held

/-- What the kernel does not have is refused. -/
theorem take_of_not_kernel (h : Alike p t u) {id : UInt16}
    (hid : t.source.ring.ledger.holder? id ≠ some .kernel) (length : Nat) :
    (t.answer (.take id length)).1 = .taken (.error (.bufferNotInKernel p.group id)) ∧
      (u.answer (.take id length)).1 = (t.answer (.take id length)).1 ∧
      Alike p (t.answer (.take id length)).2 (u.answer (.take id length)).2 := by
  have refused := SharedRing.take_eq_error length hid
  have refused' : BufferSource.take id length u.source = _ :=
    BufferQueue.take_eq_error length (h.ledger ▸ hid)
  rw [h.group] at refused
  rw [h.ledger, h.group] at refused'
  simp only [answer, refused, refused', afterTake]
  exact ⟨trivial, trivial, h⟩

theorem take (h : Alike p t u) {id : UInt16} {length : Nat} (hr : t.Permits (.take id length)) :
    (t.answer (.take id length)).1 = .taken (if id ∈ t.picked then
          .ok ⟨p.group, id, min length p.entrySize.toNat⟩
        else .error (.bufferNotInKernel p.group id)) ∧
      (u.answer (.take id length)).1 = (t.answer (.take id length)).1 ∧
      Alike p (t.answer (.take id length)).2 (u.answer (.take id length)).2 := by
  by_cases hid : id ∈ t.picked
  · rw [if_pos hid]
    exact h.take_of_picked hid length
  rw [if_neg hid]
  apply h.take_of_not_kernel
  obtain ⟨_, _, sound⟩ := h.sound
  rw [sound.holder?]
  rcases hr with picked | beyond | held
  · exact absurd picked hid
  · have none : ¬id.toNat < p.entries.toNat := by
      rw [← h.params]
      exact Nat.not_lt.mpr beyond
    rw [if_neg none]
    exact nofun
  · rw [if_pos held]
    split <;> exact nofun

/-- A buffer that is given back goes to the end on both sides, and what is stored stays. -/
theorem recycle (h : Alike p t u) (hp : p.entries.toNat.isPowerOfTwo) {b : ReceivedBuffer}
    (hb : b ∈ t.held) :
    (t.answer (.recycle b)).1 = (u.answer (.recycle b)).1 ∧
      Alike p (t.answer (.recycle b)).2 (u.answer (.recycle b)).2 := by
  obtain ⟨selected, recycled, sound⟩ := h.sound
  have app := sound.app_of_held hb
  have next := sound.recycle hp hb
  have given : BufferSource.recycle b u.source = _ :=
    BufferQueue.recycle_of_app (q := u.source) (h.ledger ▸ app)
  have given' : (BufferSource.recycle b t.source).ring = _ := BufferRing.recycle_of_app app
  refine ⟨rfl, ⟨selected, recycled ++ [b.id], ?_⟩, ?_, ?_, ?_, fun a => ?_, h.picked, ?_⟩
  · simp only [answer, given]
    exact next
  · simp only [answer, given, given', h.ledger]
    rfl
  · simp only [answer, given']
    exact (Ledger.group_giveBack _ _).trans h.group
  · simp only [answer, given]
    exact h.entrySize
  · have some_entry : 0 < t.source.ring.params.entries.toNat := by
      rw [h.params]
      exact Nat.pos_of_isPowerOfTwo hp
    have kept := BufferRing.get_recycle some_entry b a
    rw [h.params] at kept
    simp only [answer, given]
    exact kept.trans (h.memory a)
  · exact congrArg (·.erase b) h.held

/-! ## Any request -/

theorem permits (h : Alike p t u) (r : BufferRequest) : t.Permits r ↔ u.Permits r := by
  cases r with
  | receive fd payload truncated more => rw [Permits, Permits, h.entrySize_eq]
  | receiveRaw fd bytes result more => rw [Permits, Permits, h.entrySize_eq]
  | take id length => rw [Permits, Permits, h.entries_eq, h.picked, h.held]
  | recycle b => rw [Permits, Permits, h.held]

theorem answer (h : Alike p t u) (hp : p.entries.toNat.isPowerOfTwo) {r : BufferRequest}
    (hr : t.Permits r) :
    (t.answer r).1 = (u.answer r).1 ∧ Alike p (t.answer r).2 (u.answer r).2 := by
  cases r with
  | receive fd payload truncated more => exact h.receive hp fd payload truncated more
  | receiveRaw fd bytes result more => exact h.receiveRaw hp fd bytes result more
  | take id length =>
    obtain ⟨-, same, next⟩ := h.take hr
    exact ⟨same.symm, next⟩
  | recycle b => exact h.recycle hp hr

/-- Who has how many buffers is the same as well. -/
theorem perform (h : Alike p t u) (hp : p.entries.toNat.isPowerOfTwo) (r : BufferRequest)
    (hr : t.Permits r) :
    (perform r t).1 = (perform r u).1 ∧ Alike p (perform r t).2 (perform r u).2 := by
  obtain ⟨same, next⟩ := h.answer hp hr
  refine ⟨?_, next⟩
  simp only [Traffic.perform, same, next.visible, next.held_eq]

end Alike

open Requests (Allowed serve serve_agrees)

/-- A queue cannot be told from a ring: what may be asked of one may be asked of the other, and as
long as nothing else is asked, they pick the same buffers, run dry at the same time, hand out the
same handles or refuse with the same fault, and count alike after every request. A take succeeds
exactly if the buffer was picked, and the bytes in the hands of the application are the same. -/
theorem queue_stands_in_for_ring (hv : p.validate = .ok ())
    (hg : BufferRing.regionSize p ≤ granted) :
    ∃ ring, SharedRing.new granted p = .ok ring ∧ ∀ requests,
      let queue := BufferQueue.new p.group p.entries p.entrySize.toNat
      let run := serve Traffic.perform requests (start ring)
      let run' := serve Traffic.perform requests (start queue)
      (Allowed Traffic.perform Permits requests (start ring) ↔
        Allowed Traffic.perform Permits requests (start queue)) ∧
      (Allowed Traffic.perform Permits requests (start ring) →
        run.1 = run'.1 ∧ run.2.picked = run'.2.picked ∧ run.2.held = run'.2.held ∧
        BufferSource.visible run.2.source = BufferSource.visible run'.2.source ∧
        BufferSource.held run.2.source = BufferSource.held run'.2.source ∧
        (∀ b ∈ run.2.held,
          BufferSource.data run.2.source b = BufferSource.data run'.2.source b) ∧
        ∀ id length, run.2.Permits (.take id length) →
          (run.2.perform (.take id length)).1.answer = .taken (if id ∈ run.2.picked then
            .ok ⟨p.group, id, min length p.entrySize.toNat⟩
            else .error (.bufferNotInKernel p.group id))) := by
  obtain ⟨hp, -, -⟩ := RingParams.of_validate hv
  have built : ∃ ring, SharedRing.new granted p = .ok ring := by
    rw [SharedRing.new, BufferRing.new_eq_ok hv hg]
    exact ⟨_, rfl⟩
  obtain ⟨ring, hring⟩ := built
  refine ⟨ring, hring, fun requests => ?_⟩
  intro queue run run'
  obtain ⟨guards, answers⟩ := serve_agrees (R := Alike p) (fun h r => h.permits r)
    (fun h r hr => h.perform hp r hr) requests (alike_start hv hring)
  refine ⟨guards, fun allowed => ?_⟩
  obtain ⟨reports, after⟩ := answers allowed
  exact ⟨reports, after.picked.symm, after.held.symm, after.visible, after.held_eq,
    fun b _ => after.data_eq b, fun id length hr => (after.take hr).1⟩

/-- Both buffers of a pair are picked, and the second is taken. It cannot be taken again, nor can
one that does not exist; given back, it is the next to be picked. -/
theorem queue_stands_in_for_ring_after_return :
    RingParams.validate ⟨2, 32, 7⟩ = .ok () ∧ BufferRing.regionSize ⟨2, 32, 7⟩ ≤ 100 ∧
    ∃ ring, SharedRing.new 100 ⟨2, 32, 7⟩ = .ok ring ∧
      (serve Traffic.perform [.receiveRaw 5 [1] 1 true, .receive 5 [2, 3] false true,
        .receive 5 [] false false, .take 1 18, .take 1 18, .take 2 18, .recycle ⟨7, 1, 18⟩,
        .receiveRaw 5 [4] 1 true] (start ring)).1 =
      [⟨.received (some (KernelSide.completion 5 0 1 true)), 2, 0⟩,
        ⟨.received (some (KernelSide.completion 5 1 18 true)), 2, 0⟩,
        ⟨.received none, 2, 0⟩, ⟨.taken (.ok ⟨7, 1, 18⟩), 1, 1⟩,
        ⟨.taken (.error (.bufferNotInKernel 7 1)), 1, 1⟩,
        ⟨.taken (.error (.bufferNotInKernel 7 2)), 1, 1⟩, ⟨.recycled, 2, 0⟩,
        ⟨.received (some (KernelSide.completion 5 1 1 true)), 2, 0⟩] := by
  have fits : BufferRing.regionSize ⟨2, 32, 7⟩ ≤ 100 := by decide
  obtain ⟨ring, hring, all⟩ := queue_stands_in_for_ring rfl fits
  refine ⟨rfl, fits, ring, hring, ?_⟩
  obtain ⟨guards, answers⟩ := all _
  refine (answers (guards.mpr ?_)).1.trans ?_
  · decide
  · decide

end Traffic

end RingServer
