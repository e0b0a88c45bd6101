import RingServer.BufferUser
import RingServer.Proofs.BufferSource
import RingServer.Proofs.Requests
import Mathlib.Logic.Function.Basic

/-!
What is in the buffers of a ring. Entries, tail and buffers share one region, and yet a user finds
in each buffer what was last stored there, as if every buffer had a memory of its own
(`SeparateBuffers`): neither entries nor tail reach into the buffers, no buffer reaches into another
one (`data_fill_of_ne`) or into an entry, and the tail shares entry 0 with address, size and number
of a buffer without touching them (`separated`). Nothing is assumed about which buffers the kernel
has selected, or how often positions have wrapped.
-/

namespace RingServer

open Text (Bytes)
open Requests (serve Allowed serve_agrees)

/-- What the kernel and the application do with the contents of a ring. -/
inductive RingRequest
  | fill (id : UInt16) (bytes : Bytes)
  | take (id : UInt16) (length : Nat)
  | read (id : UInt16)
  | recycle (id : UInt16)

inductive RingAnswer
  | taken (outcome : Except Fault ReceivedBuffer)
  /-- The bytes in hand, if the buffer is in hand. -/
  | data (bytes : Option Bytes)
  | done
  deriving DecidableEq

/-- Buffers that share no memory, and the handles of those that were taken: which buffer, and how
many bytes were said to be in it. -/
structure SeparateBuffers where
  params : RingParams
  /-- The byte at a place of a buffer. -/
  contents : UInt16 → Nat → UInt8
  taken : List (UInt16 × Nat)

namespace SeparateBuffers

def new (p : RingParams) : SeparateBuffers := ⟨p, fun _ _ => 0, []⟩

def fill (id : UInt16) (bytes : Bytes) (s : SeparateBuffers) : SeparateBuffers :=
  { s with contents := Function.update s.contents id fun place =>
      bytes[place]?.getD (s.contents id place) }

/-- A buffer can be taken unless it is in hand. -/
def take (id : UInt16) (length : Nat) (s : SeparateBuffers) :
    Except Fault ReceivedBuffer × SeparateBuffers :=
  if id.toNat < s.params.entries.toNat ∧ id ∉ s.taken.map (·.1) then
    (.ok ⟨s.params.group, id, min length s.params.entrySize.toNat⟩,
      { s with taken := (id, length) :: s.taken })
  else (.error (.bufferNotInKernel s.params.group id), s)

/-- As many bytes as were said to be in the buffer, but no more than it has. -/
def read (id : UInt16) (s : SeparateBuffers) : Option Bytes :=
  (s.taken.find? fun h => h.1 = id).map fun h =>
    (List.range (min h.2 s.params.entrySize.toNat)).map (s.contents id)

def recycle (id : UInt16) (s : SeparateBuffers) : SeparateBuffers :=
  { s with taken := s.taken.filter fun h => h.1 ≠ id }

def perform : RingRequest → SeparateBuffers → RingAnswer × SeparateBuffers
  | .fill id bytes, s => (.done, s.fill id bytes)
  | .take id length, s => (.taken (s.take id length).1, (s.take id length).2)
  | .read id, s => (.data (s.read id), s)
  | .recycle id, s => (.done, s.recycle id)

/-- The kernel fills the buffers of the ring. -/
def Permits : RingRequest → SeparateBuffers → Prop
  | .fill id _, s => id.toNat < s.params.entries.toNat
  | .take .., _ | .read _, _ | .recycle _, _ => True

end SeparateBuffers

namespace BufferRing

variable {p : RingParams} {r : BufferRing} {id : UInt16} {b : ReceivedBuffer}

/-! ## Buffers, entries and tail -/

/-- Buffers do not overlap. -/
theorem bufferAddress_disjoint (p : RingParams) {i j : UInt16} (h : i ≠ j) :
    bufferAddress p i + p.entrySize.toNat ≤ bufferAddress p j ∨
      bufferAddress p j + p.entrySize.toNat ≤ bufferAddress p i := by
  have pieces := Memory.pieces_disjoint p.entrySize.toNat h
  rw [bufferAddress, bufferAddress]
  omega

theorem memory_fill (id : UInt16) (bytes : Bytes) (r : BufferRing) : (r.fill id bytes).memory =
    r.memory.write (bufferAddress r.params id) (bytes.take r.params.entrySize.toNat) := rfl

/-- What is stored in a buffer is seen there, and in no other buffer. -/
theorem get_fill (id : UInt16) (bytes : Bytes) (r : BufferRing) (j : UInt16) {place : Nat}
    (hp : place < r.params.entrySize.toNat) :
    (r.fill id bytes).memory.get (bufferAddress r.params j + place) =
      if j = id then bytes[place]?.getD (r.memory.get (bufferAddress r.params j + place))
      else r.memory.get (bufferAddress r.params j + place) := by
  rw [memory_fill]
  split
  next e =>
    rw [e, Memory.get_write, if_pos (Nat.le_add_right ..), Nat.add_sub_cancel_left,
      List.getElem?_take_of_lt hp]
  next e =>
    have apart := bufferAddress_disjoint r.params e
    have short : (bytes.take r.params.entrySize.toNat).length ≤ r.params.entrySize.toNat :=
      List.length_take_le ..
    exact Memory.get_write_outside _ _ _ _ (by omega)

theorem data_fill_of_ne (hid : id ≠ b.id) (hb : b.length ≤ r.params.entrySize.toNat)
    (bytes : Bytes) : (r.fill id bytes).data b = r.data b := by
  rw [data, data, params_fill]
  refine List.map_congr_left fun place hplace => ?_
  have inside := List.mem_range.mp hplace
  rw [get_fill id bytes r b.id (by omega), if_neg (Ne.symm hid)]

/-- What is written to one part of a ring is not seen in its other parts, `held` being the buffers
that are looked at. -/
structure Separated (r : BufferRing) (held : List ReceivedBuffer) : Prop where
  data_fill : ∀ b ∈ held, ∀ id bytes, id ≠ b.id → (r.fill id bytes).data b = r.data b
  data_recycle : ∀ b ∈ held, ∀ b', (r.recycle b').data b = r.data b
  data_append : ∀ b ∈ held, ∀ id, (r.append id).data b = r.data b
  data_publish : ∀ b ∈ held, r.publish.data b = r.data b
  entry_fill : ∀ id bytes index, (r.fill id bytes).entry index = r.entry index
  entry_publish : ∀ index, r.publish.entry index = r.entry index
  tail_fill : ∀ id bytes, (r.fill id bytes).publishedTail = r.publishedTail
  tail_append : ∀ id, (r.append id).publishedTail = r.publishedTail

theorem separated (hp : r.params.entries.toNat.isPowerOfTwo) {held : List ReceivedBuffer}
    (short : ∀ b ∈ held, b.length ≤ r.params.entrySize.toNat) : r.Separated held where
  data_fill b hb _ bytes ne := data_fill_of_ne ne (short b hb) bytes
  data_recycle b _ b' := BufferRing.data_recycle (Nat.pos_of_isPowerOfTwo hp) b' b
  data_append b _ id := BufferRing.data_append (Nat.pos_of_isPowerOfTwo hp) id b
  data_publish b _ := BufferRing.data_publish (Nat.pos_of_isPowerOfTwo hp) b
  entry_fill id bytes index := by
    have kept := BufferRing.entry_fill hp id bytes index.toNat
    rwa [UInt16.ofNat_toNat] at kept
  entry_publish := BufferRing.entry_publish r
  tail_fill := publishedTail_fill hp
  tail_append id := publishedTail_append id r

end BufferRing

/-! ## A user of a ring -/

/-- The handles in the user's hands are those of `s`, and the buffers of its ring hold the bytes of
`s`. -/
structure SeparateBuffers.Seen (p : RingParams) (u : BufferUser SharedRing) (s : SeparateBuffers) :
    Prop where
  ring : u.source.ring.params = p
  params : s.params = p
  group : u.source.ring.ledger.group = p.group
  holder? : ∀ id, u.source.ring.ledger.holder? id = if id.toNat < p.entries.toNat then
    some (if id ∈ s.taken.map (·.1) then .app else .kernel) else none
  buffers : u.buffers = s.taken.map fun h => ⟨p.group, h.1, min h.2 p.entrySize.toNat⟩
  bytes : ∀ id place, place < p.entrySize.toNat →
    u.source.ring.memory.get (BufferRing.bufferAddress p id + place) = s.contents id place

namespace BufferUser

open BufferRing (bufferAddress)

def perform : RingRequest → BufferUser SharedRing → RingAnswer × BufferUser SharedRing
  | .fill id bytes, u => (.done, { u with source := KernelSide.fill id bytes u.source })
  | .take id length, u => (.taken (u.take id length).1, (u.take id length).2)
  | .read id, u => (.data (u.data? id), u)
  | .recycle id, u => (.done, u.recycle id)

/-- The kernel fills the buffers of the ring. -/
def Permits : RingRequest → BufferUser SharedRing → Prop
  | .fill id _, u => id.toNat < BufferSource.entries u.source
  | .take .., _ | .read _, _ | .recycle _, _ => True

instance : ∀ r u, Decidable (Permits r u)
  | .fill .., _ => inferInstanceAs (Decidable (_ < _))
  | .take .., _ | .read _, _ | .recycle _, _ => inferInstanceAs (Decidable True)

end BufferUser

namespace SeparateBuffers.Seen

open BufferRing (bufferAddress)

variable {p : RingParams} {u : BufferUser SharedRing} {s : SeparateBuffers} {granted : Nat}

theorem new (hv : p.validate = .ok ()) {ring : SharedRing}
    (h : SharedRing.new granted p = .ok ring) :
    Seen p (BufferUser.new ring) (SeparateBuffers.new p) := by
  obtain ⟨-, hg⟩ := SharedRing.of_new h
  rw [SharedRing.new, BufferRing.new_eq_ok hv hg] at h
  cases h
  obtain ⟨hp, -, -⟩ := RingParams.of_validate hv
  obtain ⟨params, ledger, -, -⟩ := BufferRing.written_spec hp (Nat.le_refl _)
  refine ⟨params, rfl, congrArg Ledger.group ledger, fun id => ?_, rfl, fun id place _ => ?_⟩
  · refine (congrArg (Ledger.holder? · id) ledger).trans ?_
    rw [Ledger.holder?_new]
    rfl
  · rw [bufferAddress, Nat.add_assoc]
    exact BufferRing.get_publish_written hp _

theorem fill (h : Seen p u s) (id : UInt16) (bytes : Bytes) :
    Seen p { u with source := KernelSide.fill id bytes u.source } (s.fill id bytes) where
  ring := h.ring
  params := h.params
  group := h.group
  holder? := h.holder?
  buffers := h.buffers
  bytes j place hp := by
    have inside : place < u.source.ring.params.entrySize.toNat := h.ring ▸ hp
    have stored := BufferRing.get_fill id bytes u.source.ring j inside
    rw [h.ring, h.bytes j place hp] at stored
    refine stored.trans ?_
    show _ = Function.update s.contents id _ j place
    rw [Function.update_apply]
    split
    next e => rw [e]
    next => rfl

theorem take (h : Seen p u s) (id : UInt16) (length : Nat) :
    (u.take id length).1 = (s.take id length).1 ∧
      Seen p (u.take id length).2 (s.take id length).2 := by
  obtain ⟨source, buffers⟩ := u
  by_cases free : id.toNat < s.params.entries.toNat ∧ id ∉ s.taken.map (·.1)
  · have kernel : source.ring.ledger.holder? id = some .kernel := by
      rw [h.holder?, ← h.params, if_pos free.1, if_neg free.2]
    have taken := SharedRing.take_of_kernel length kernel
    have taken' : s.take id length = _ := if_pos free
    obtain ⟨-, -, -, holders⟩ := Ledger.take_of_kernel kernel
    rw [h.ring] at taken
    rw [h.params] at taken' free
    simp only [BufferUser.take, taken, taken']
    refine ⟨trivial, h.ring, rfl, (Ledger.group_take _ _).trans h.group, fun j => ?_,
      congrArg (_ :: ·) h.buffers, h.bytes⟩
    rw [holders j]
    split
    next e => simp only [e, free.1, List.map_cons, List.mem_cons_self, if_true]
    next e => simp only [h.holder? j, List.map_cons, List.mem_cons, e, false_or]
  · have other : source.ring.ledger.holder? id ≠ some .kernel := by
      rw [h.holder?, ← h.params]
      split
      next inside =>
        rw [if_pos (not_not.mp fun out => free ⟨inside, out⟩)]
        exact nofun
      next => exact nofun
    have refused := SharedRing.take_eq_error length other
    have refused' : s.take id length = _ := if_neg free
    rw [h.group] at refused
    rw [h.params] at refused'
    simp only [BufferUser.take, refused, refused']
    exact ⟨trivial, h⟩

theorem length_le (h : Seen p u s) {b : ReceivedBuffer} (hb : b ∈ u.buffers) :
    b.length ≤ p.entrySize.toNat := by
  rw [h.buffers, List.mem_map] at hb
  obtain ⟨x, -, rfl⟩ := hb
  exact Nat.min_le_right _ _

/-- Every buffer in hand has the bytes that were stored in it. -/
theorem data (h : Seen p u s) {b : ReceivedBuffer} (hb : b ∈ u.buffers) :
    u.source.ring.data b = (List.range b.length).map (s.contents b.id) := by
  rw [BufferRing.data, h.ring]
  refine List.map_congr_left fun place hplace => ?_
  have inside := Nat.lt_of_lt_of_le (List.mem_range.mp hplace) (h.length_le hb)
  exact h.bytes b.id place inside

theorem buffer?_eq (h : Seen p u s) (id : UInt16) : u.buffer? id =
    (s.taken.find? fun x => x.1 = id).map fun x => ⟨p.group, x.1, min x.2 p.entrySize.toNat⟩ := by
  rw [BufferUser.buffer?, h.buffers, List.find?_map]
  rfl

theorem read (h : Seen p u s) (id : UInt16) : u.data? id = s.read id := by
  rw [BufferUser.data?, h.buffer?_eq, SeparateBuffers.read, Option.map_map, h.params]
  refine Option.map_congr fun x hx => ?_
  have named : x.1 = id := by simpa using List.find?_some hx
  have inHand : ⟨p.group, x.1, min x.2 p.entrySize.toNat⟩ ∈ u.buffers := by
    rw [h.buffers]
    exact List.mem_map_of_mem (List.mem_of_find?_eq_some hx)
  rw [← named]
  exact h.data inHand

theorem mem_recycle {id j : UInt16} :
    j ∈ (s.recycle id).taken.map (·.1) ↔ j ≠ id ∧ j ∈ s.taken.map (·.1) := by
  simp only [SeparateBuffers.recycle, List.mem_map, List.mem_filter, decide_eq_true_iff]
  constructor
  · rintro ⟨x, ⟨hx, ne⟩, rfl⟩
    exact ⟨ne, x, hx, rfl⟩
  · rintro ⟨ne, x, hx, rfl⟩
    exact ⟨x, ⟨hx, ne⟩, rfl⟩

theorem holder?_giveBack (h : Seen p u s) (id j : UInt16) :
    (u.source.ring.ledger.giveBack id).2.holder? j = if j.toNat < p.entries.toNat then
      some (if j ∈ (s.recycle id).taken.map (·.1) then .app else .kernel) else none := by
  have own := h.holder? id
  have kept (ne : j ≠ id) :
      (if j ∈ (s.recycle id).taken.map (·.1) then Holder.app else Holder.kernel) =
        if j ∈ s.taken.map (·.1) then .app else .kernel :=
    if_congr (by rw [mem_recycle, and_iff_right ne]) rfl rfl
  have dropped : ¬id ∈ (s.recycle id).taken.map (·.1) := fun h => (mem_recycle.mp h).1 rfl
  by_cases app : u.source.ring.ledger.holder? id = some .app
  · rw [(Ledger.giveBack_of_app app).2.2.2]
    split
    next e =>
      subst e
      rw [app] at own
      split at own
      next inside => rw [if_pos inside, if_neg dropped]
      next => cases own
    next e => rw [h.holder? j, kept e]
  · rw [Ledger.giveBack_eq_false app, h.holder? j]
    split
    next inside =>
      by_cases e : j = id
      · subst e
        have free : j ∉ s.taken.map (·.1) := by
          intro taken
          rw [if_pos inside, if_pos taken] at own
          exact app own
        rw [if_neg free, if_neg dropped]
      · rw [kept e]
    next => rfl

/-- Whether the buffer is in hand or not, the user has no handle of it afterwards. -/
theorem recycle (h : Seen p u s) (hp : p.entries.toNat.isPowerOfTwo) (id : UInt16) :
    Seen p (u.recycle id) (s.recycle id) := by
  obtain ⟨source, buffers⟩ := u
  -- all that counts of what is given back is its number, be it in hand or not
  have handle : ∃ b : ReceivedBuffer, b.id = id ∧ BufferUser.recycle id ⟨source, buffers⟩ =
      ⟨BufferSource.recycle b source, buffers.filter fun b => b.id ≠ id⟩ := by
    refine ⟨_, ?_, rfl⟩
    rw [h.buffer?_eq]
    cases hx : s.taken.find? fun x => x.1 = id with
    | none => rfl
    | some x => simpa using List.find?_some hx
  obtain ⟨b, hb, e⟩ := handle
  have some_entry : 0 < source.ring.params.entries.toNat := by
    rw [show source.ring.params = p from h.ring]
    exact Nat.pos_of_isPowerOfTwo hp
  obtain ⟨ledger, -⟩ := BufferRing.recycle_cases b source.ring
  rw [e]
  refine ⟨(BufferRing.params_recycle b source.ring).trans h.ring, h.params, ?_, fun j => ?_, ?_,
    fun j place hplace => ?_⟩
  · exact (congrArg Ledger.group ledger).trans ((Ledger.group_giveBack _ _).trans h.group)
  · refine (congrArg (Ledger.holder? · j) ledger).trans ?_
    rw [hb]
    exact h.holder?_giveBack id j
  · show buffers.filter _ = _
    rw [show buffers = _ from h.buffers, List.filter_map]
    rfl
  · rw [bufferAddress, Nat.add_assoc, ← h.ring]
    refine (BufferRing.get_recycle some_entry b _).trans ?_
    rw [← Nat.add_assoc, h.ring]
    exact h.bytes j place hplace

theorem permits (h : Seen p u s) : ∀ request : RingRequest,
    BufferUser.Permits request u ↔ SeparateBuffers.Permits request s
  | .fill id _ => by
    show id.toNat < u.source.ring.params.entries.toNat ↔ id.toNat < s.params.entries.toNat
    rw [h.ring, h.params]
  | .take .. | .read _ | .recycle _ => Iff.rfl

theorem perform (h : Seen p u s) (hp : p.entries.toNat.isPowerOfTwo) : ∀ request : RingRequest,
    (BufferUser.perform request u).1 = (SeparateBuffers.perform request s).1 ∧
      Seen p (BufferUser.perform request u).2 (SeparateBuffers.perform request s).2
  | .fill id bytes => ⟨rfl, h.fill id bytes⟩
  | .take id length => ⟨congrArg RingAnswer.taken (h.take id length).1, (h.take id length).2⟩
  | .read id => ⟨congrArg RingAnswer.data (h.read id), h⟩
  | .recycle id => ⟨rfl, h.recycle hp id⟩

end SeparateBuffers.Seen

namespace SharedRing

/-- A valid ring can be built where its region fits. Whatever is stored in its buffers, taken, read
and given back, the answers are those of buffers that share no memory. A buffer in hand has, as far
as it was said to reach, the bytes that were stored in it last, and no write to another part of the
ring changes them; no buffer reaches into an entry or the tail, and neither do these into each
other. -/
theorem buffers_do_not_alias {granted : Nat} {p : RingParams} (hv : p.validate = .ok ())
    (hg : BufferRing.regionSize p ≤ granted) :
    ∃ ring, SharedRing.new granted p = .ok ring ∧ ∀ requests,
      Allowed BufferUser.perform BufferUser.Permits requests (BufferUser.new ring) →
        let run := serve BufferUser.perform requests (BufferUser.new ring)
        let apart := serve SeparateBuffers.perform requests (SeparateBuffers.new p)
        run.1 = apart.1 ∧
          (∀ b ∈ run.2.buffers, run.2.source.ring.data b =
            (List.range b.length).map (apart.2.contents b.id)) ∧
          run.2.source.ring.Separated run.2.buffers := by
  have built : SharedRing.new granted p = .ok _ :=
    congrArg (Except.map _) (BufferRing.new_eq_ok hv hg)
  obtain ⟨hp, -, -⟩ := RingParams.of_validate hv
  refine ⟨_, built, fun requests allowed => ?_⟩
  have alike := serve_agrees (R := SeparateBuffers.Seen p)
    (fun h => h.permits) (fun h request _ => h.perform hp request) requests
    (SeparateBuffers.Seen.new hv built)
  obtain ⟨answers, seen⟩ := alike.2 allowed
  refine ⟨answers, fun b hb => seen.data hb, BufferRing.separated ?_ fun b hb => ?_⟩
  · rw [seen.ring]
    exact hp
  · rw [seen.ring]
    exact seen.length_le hb

/-- Buffer 0 is taken with room for three bytes of which two were stored. Its neighbour is filled
beyond its end, taken and given back, and gets entry 0. -/
theorem buffers_do_not_alias_refilled :
    RingParams.validate ⟨2, 4, 7⟩ = .ok () ∧ BufferRing.regionSize ⟨2, 4, 7⟩ ≤ 100 ∧
    ∃ ring, SharedRing.new 100 ⟨2, 4, 7⟩ = .ok ring ∧
      let run := serve BufferUser.perform [.fill 0 [1, 2], .take 0 3, .fill 1 [9, 9, 9, 9, 9],
        .take 1 8, .recycle 1, .read 0, .read 1, .take 0 1] (BufferUser.new ring)
      run.1 = [.done, .taken (.ok ⟨7, 0, 3⟩), .done, .taken (.ok ⟨7, 1, 4⟩), .done,
        .data (some [1, 2, 0]), .data none, .taken (.error (.bufferNotInKernel 7 0))] ∧
      run.2.buffers = [⟨7, 0, 3⟩] ∧ run.2.source.ring.entry 0 = ⟨36, 4, 1⟩ ∧
      run.2.source.ring.publishedTail = 3 := by
  have fits : BufferRing.regionSize ⟨2, 4, 7⟩ ≤ 100 := by decide
  obtain ⟨ring, built, all⟩ := buffers_do_not_alias rfl fits
  have new := built.symm.trans (congrArg (Except.map _) (BufferRing.new_eq_ok rfl fits))
  cases new
  refine ⟨rfl, fits, _, built, (all _ ?_).1.trans ?_, ?_⟩
  · decide
  · decide
  · decide

end SharedRing

end RingServer
