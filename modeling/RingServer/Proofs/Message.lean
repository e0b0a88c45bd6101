import RingServer.Envelope
import RingServer.Proofs.BufferSource

/-!
Messages in the buffers of a plain queue. A message that the kernel receives into a buffer is read
back from it as it is (`parse?_header`), and lies there whatever is received into other buffers and
wherever the other buffers go (`Holds`).
-/

namespace RingServer

open Text (Bytes)

theorem Tag.toInt32_descriptor (fd : Descriptor) (op : Opcode) :
    (Tag.onDescriptor fd op).descriptor.toInt32 = fd := by
  rw [Tag.onDescriptor, Tag.descriptor_encode, Int32.toInt32_toUInt32]

namespace Completion

theorem toNat_flagsOf (id : UInt16) (more : Bool) :
    (flagsOf id more).toNat = id.toNat * 65536 + (if more then 3 else 1) := by
  have bound := id.toNat_lt
  have shifted : (id.toUInt32 <<< 16).toNat = id.toNat <<< 16 := by
    simp [Nat.shiftLeft_eq]
    omega
  have low : ∀ n, n < 2 ^ 16 → id.toNat <<< 16 ||| n = id.toNat * 65536 + n := by
    intro n hn
    rw [← Nat.shiftLeft_add_eq_or_of_lt hn, Nat.shiftLeft_eq]
  cases more with
  | false =>
    rw [flagsOf, UInt32.toNat_or, UInt32.toNat_or, shifted, Nat.or_comm bufferFlag.toNat]
    simp [bufferFlag, low]
  | true =>
    rw [flagsOf, UInt32.toNat_or, UInt32.toNat_or, shifted, Nat.or_comm bufferFlag.toNat,
      Nat.or_assoc]
    exact low 3 (by decide)

theorem bufferId?_flagsOf (tag : Tag) (result : Int32) (id : UInt16) (more : Bool) :
    bufferId? ⟨tag, result, flagsOf id more⟩ = some id := by
  have bound := id.toNat_lt
  have flags := toNat_flagsOf id more
  have picked : flagsOf id more &&& bufferFlag ≠ 0 := by
    intro e
    have e := congrArg UInt32.toNat e
    rw [UInt32.toNat_and, flags, bufferFlag, UInt32.toNat_one, Nat.and_one_is_mod] at e
    cases more <;> simp at e <;> omega
  have number : (flagsOf id more >>> 16).toUInt16 = id := by
    apply UInt16.toNat_inj.mp
    rw [UInt32.toNat_toUInt16, UInt32.toNat_shiftRight, flags, Nat.shiftRight_eq_div_pow]
    cases more <;> simp <;> omega
  unfold bufferId?
  rw [if_pos picked, number]

theorem hasMore_flagsOf (tag : Tag) (result : Int32) (id : UInt16) (more : Bool) :
    hasMore ⟨tag, result, flagsOf id more⟩ = more := by
  -- The bit is among the lowest two, where the number of the buffer has none.
  have low : (flagsOf id more).toNat % 2 ^ 2 = if more then 3 else 1 := by
    rw [toNat_flagsOf]
    cases more <;> simp <;> omega
  have bit : flagsOf id more &&& moreFlag = if more then moreFlag else 0 := by
    apply UInt32.toNat_inj.mp
    have small : moreFlag.toNat < 2 ^ 2 := by decide
    rw [UInt32.toNat_and, ← Nat.mod_eq_of_lt (Nat.and_lt_two_pow _ small), Nat.and_mod_two_pow,
      low]
    cases more <;> rfl
  unfold hasMore
  simp only [bit]
  cases more <;> rfl

end Completion

namespace Envelope

@[simp]
theorem length_header (length : Nat) (truncated : Bool) :
    (header length truncated).length = headerSize := by
  simp [header, headerSize]

/-- A message that is stored whole is read back as it is. -/
theorem parse?_header {payload : Bytes} (h : payload.length < UInt32.size) :
    parse? (header payload.length false ++ payload) = some ⟨payload, false⟩ := by
  have length : ofLittleEndian (littleEndian 4 payload.length) = payload.length := by
    rw [ofLittleEndian_littleEndian]
    exact Nat.mod_eq_of_lt h
  have words : ((header payload.length false ++ payload).drop 8).take 4 =
      littleEndian 4 payload.length := by
    simp [header, List.drop_append, List.take_append]
  have flags : ((header payload.length false ++ payload).drop 12).take 4 = littleEndian 4 0 := by
    simp [header, List.drop_append, List.take_append]
    rfl
  have behind : (header payload.length false ++ payload).drop headerSize = payload := by
    rw [← length_header payload.length false, List.drop_left]
  have enough : ¬ (header payload.length false ++ payload).length < headerSize := by
    simp
  unfold parse?
  rw [if_neg enough, words, flags, behind, length, List.take_length]
  rfl

end Envelope

namespace BufferQueue

open Envelope (headerSize header)

/-- The bytes that a completion brings: those behind the header in its buffer. -/
def payload (q : BufferQueue) (c : Completion) : Bytes :=
  match c.bufferId? with
  | none => []
  | some id => q.memory.read (q.bufferAddress id + headerSize) (c.result.toInt.toNat - headerSize)

/-- A whole message lies in buffer `id`. -/
structure Holds (q : BufferQueue) (id : UInt16) (message : Bytes) : Prop where
  fits : headerSize + message.length ≤ q.entrySize
  stored : q.memory.read (q.bufferAddress id) (headerSize + message.length) =
    header message.length false ++ message

variable {q r : BufferQueue} {id : UInt16} {message : Bytes}

theorem Holds.of_eq (h : q.Holds id message) (hm : r.memory = q.memory)
    (he : r.entrySize = q.entrySize) : r.Holds id message := by
  constructor
  · rw [he]
    exact h.fits
  · rw [hm, bufferAddress, he]
    exact h.stored

/-- The message is what the completion brings. -/
theorem Holds.payload_eq {c : Completion} (h : q.Holds id message) (hi : c.bufferId? = some id)
    (hr : c.result.toInt = headerSize + message.length) : q.payload c = message := by
  have length : c.result.toInt.toNat - headerSize = message.length := by omega
  have stored := h.stored
  rw [BufferRing.read_add] at stored
  unfold payload
  rw [hi]
  simp only [length]
  exact List.append_inj_right stored (by simp)

theorem holds_fill (fits : headerSize + message.length ≤ q.entrySize) :
    (q.fill id (header message.length false ++ message)).Holds id message := by
  refine ⟨fits, ?_⟩
  have length : (header message.length false ++ message).length = headerSize + message.length := by
    simp
  show (q.memory.write _ ((header message.length false ++ message).take q.entrySize)).read _ _ = _
  rw [List.take_of_length_le (length ▸ fits), ← length]
  exact Memory.read_write_self _ _ _

/-- Buffers do not overlap. -/
theorem Holds.fill {other : UInt16} (h : q.Holds id message) (ne : id ≠ other) (bytes : Bytes) :
    (q.fill other bytes).Holds id message := by
  refine ⟨h.fits, ?_⟩
  show (q.memory.write _ (bytes.take q.entrySize)).read (q.bufferAddress id) _ = _
  rw [Memory.read_write_disjoint]
  · exact h.stored
  have fits := h.fits
  have short : (bytes.take q.entrySize).length ≤ q.entrySize := List.length_take_le _ _
  have apart : id.toNat ≠ other.toNat := mt UInt16.toNat_inj.mp ne
  unfold bufferAddress
  rcases Nat.lt_or_gt_of_ne apart with lt | gt
  · have step := Nat.mul_le_mul_right q.entrySize (Nat.succ_le_of_lt lt)
    rw [Nat.succ_mul] at step
    omega
  · have step := Nat.mul_le_mul_right q.entrySize (Nat.succ_le_of_lt gt)
    rw [Nat.succ_mul] at step
    omega

/-- The kernel has picked a buffer, if any, and at most the bytes in it are different. -/
structure Picks (id : Option UInt16) (q r : BufferQueue) : Prop where
  ledger : r.ledger = q.ledger
  entrySize : r.entrySize = q.entrySize
  waiting : q.waiting = id.toList ++ r.waiting
  holds : ∀ other, id ≠ some other → ∀ message, q.Holds other message → r.Holds other message

theorem Picks.refl (q : BufferQueue) : Picks none q q := ⟨rfl, rfl, rfl, fun _ _ _ h => h⟩

/-- A message that fits is received into the buffer that has waited longest. -/
theorem of_receive {fd : Descriptor} {more : Bool} {c : Completion}
    (h : KernelSide.receive fd message false more q = some (c, r))
    (fits : headerSize + message.length ≤ q.entrySize) :
    ∃ id, q.Picks (some id) r ∧ r.Holds id message ∧
      c = KernelSide.completion fd id (Int32.ofNat (headerSize + message.length)) more := by
  unfold KernelSide.receive at h
  rcases hs : KernelSide.select q with _ | ⟨id, s⟩
  · rw [hs] at h
    cases h
  rw [hs] at h
  change q.select = some (id, s) at hs
  unfold select at hs
  split at hs
  · cases hs
  next waiting hw =>
    cases hs
    have whole : message.take (q.entrySize - headerSize) = message :=
      List.take_of_length_le (by omega)
    simp only [Option.bind_eq_bind, Option.bind_some, Option.pure_def, BufferSource.entrySize,
      whole, Nat.lt_irrefl, decide_false, Bool.or_false] at h
    cases h
    refine ⟨id, ⟨rfl, rfl, hw, fun other ne message' holds => ?_⟩, holds_fill fits, rfl⟩
    have selected : { q with waiting }.Holds other message' := holds.of_eq rfl rfl
    exact selected.fill (fun e => ne (congrArg some e.symm)) _

/-- A buffer, if there is one, is back with the kernel, and nothing else is different. -/
structure Returns (id : Option UInt16) (q r : BufferQueue) : Prop where
  memory : r.memory = q.memory
  entrySize : r.entrySize = q.entrySize
  entries : r.ledger.entries = q.ledger.entries
  waiting : r.waiting = q.waiting ++ id.toList

theorem Returns.refl (q : BufferQueue) : Returns none q q :=
  ⟨rfl, rfl, rfl, (List.append_nil _).symm⟩

/-- A buffer is taken with all that was received into it, and goes back to the kernel. -/
theorem of_take {length : Nat} {b : ReceivedBuffer} (h : q.take id length = (.ok b, r)) :
    b.id = id ∧ b.length = min length q.entrySize ∧ r.memory = q.memory ∧
      r.entrySize = q.entrySize ∧ Returns (some id) q (r.recycle b) := by
  have back := recycle_take h
  obtain ⟨-, rfl, rfl⟩ := take_eq_ok h
  refine ⟨rfl, rfl, rfl, rfl, ?_⟩
  rw [back]
  exact ⟨rfl, rfl, rfl, rfl⟩

/-- What is read from a buffer that was taken is the message in it. -/
theorem Holds.data_of_take {length : Nat} {b : ReceivedBuffer} (h : q.Holds id message)
    (hl : length = headerSize + message.length) (ht : q.take id length = (.ok b, r)) :
    r.data b = header message.length false ++ message := by
  obtain ⟨hb, read, memory, size, -⟩ := of_take ht
  rw [data, memory, bufferAddress, size, hb, read, hl, Nat.min_eq_left h.fits]
  exact h.stored

/-- In a new group every buffer waits once. -/
theorem nodup_waiting_new (group entries : UInt16) (size : Nat) :
    (new group entries size).waiting.Nodup := by
  have bound : entries.toNat < UInt16.size := entries.toNat_lt
  refine List.nodup_range.map_on fun i hi j hj e => ?_
  rw [List.mem_range] at hi hj
  have numbers := congrArg UInt16.toNat e
  rwa [UInt16.toNat_ofNat_of_lt' (by omega), UInt16.toNat_ofNat_of_lt' (by omega)] at numbers

theorem lt_of_mem_waiting_new {group entries : UInt16} {size : Nat}
    (h : id ∈ (new group entries size).waiting) :
    id.toNat < (new group entries size).ledger.entries := by
  have bound : entries.toNat < UInt16.size := entries.toNat_lt
  obtain ⟨i, hi, rfl⟩ := List.mem_map.mp h
  rw [List.mem_range] at hi
  show _ < (Array.replicate entries.toNat _).size
  rwa [Array.size_replicate, UInt16.toNat_ofNat_of_lt' (by omega)]

end BufferQueue

end RingServer
