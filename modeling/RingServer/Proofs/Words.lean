import RingServer.Proofs.Message
import Mathlib.Data.Nat.Bitwise

/-!
Tags and flags bit by bit. A tag has a descriptor in its lowest 32 bits and the number of an
operation in the eight above (`Tag.bit_encode`), and nothing else of the word counts when it is read
(`Tag.descriptor_bit`, `Tag.opcodeByte_bit`). In the flags of a completion bit 0, bit 1 and the
upper half each say one thing (`Completion.bufferId?_eq`, `Completion.hasMore_eq`). Both are read
back as they were built, and a word that says what a tag can say is built again from what was read
of it, but for the bits that do not count (`Completion.words_are_read_back`).
-/

namespace RingServer

/-! ## Operations -/

namespace Opcode

theorem mem_all (op : Opcode) : op ∈ all := by cases op <;> decide

theorem ofCode?_eq_some_iff {n : UInt8} {op : Opcode} : ofCode? n = some op ↔ op.code = n :=
  ⟨code_of_ofCode?, fun h => h ▸ ofCode?_code op⟩

/-- The numbers from 1 to 8 are those of operations. -/
theorem exists_code_iff {n : UInt8} : (∃ op : Opcode, op.code = n) ↔ 1 ≤ n.toNat ∧ n.toNat ≤ 8 := by
  have numbers : all.map code = (List.range' 1 8).map UInt8.ofNat := by decide
  calc (∃ op : Opcode, op.code = n) ↔ n ∈ all.map code := by simp [mem_all]
    _ ↔ 1 ≤ n.toNat ∧ n.toNat ≤ 8 := by
      rw [numbers, List.mem_map]
      constructor
      · rintro ⟨k, hk, rfl⟩
        rw [List.mem_range'_1] at hk
        rw [UInt8.toNat_ofNat_of_lt' (Nat.lt_trans hk.2 (by decide))]
        omega
      · intro h
        exact ⟨n.toNat, List.mem_range'_1.mpr (by omega), UInt8.ofNat_toNat⟩

end Opcode

/-! ## Tags -/

namespace Tag

/-- Bit `k` of the word. -/
def bit (t : Tag) (k : Nat) : Bool := t.word.toBitVec.getLsbD k

variable {t u : Tag}

theorem bit_encode (d : UInt32) (op : Opcode) (k : Nat) : (encode d op).bit k =
    if k < 32 then d.toBitVec.getLsbD k else op.code.toBitVec.getLsbD (k - 32) := by
  have parts : (encode d op).bit k = (decide (k < 64) && d.toBitVec.getLsbD k ||
      decide (k < 64) && !decide (k < 32) && op.code.toBitVec.getLsbD (k - 32)) := by
    have inside : k - 32 < 64 ∨ op.code.toBitVec.getLsbD (k - 32) = false := by
      refine (Nat.lt_or_ge (k - 32) 64).imp_right fun beyond => ?_
      exact BitVec.getLsbD_of_ge _ _ (by omega)
    rcases inside with inside | beyond
    · simp [bit, encode, inside]
    · simp [bit, encode, beyond]
  rw [parts]
  split
  next low =>
    have inside : k < 64 := by omega
    simp [low, inside]
  next high =>
    have above : d.toBitVec.getLsbD k = false := BitVec.getLsbD_of_ge _ _ (by omega)
    by_cases inside : k < 64
    · simp [high, above, inside]
    · have beyond : op.code.toBitVec.getLsbD (k - 32) = false :=
        BitVec.getLsbD_of_ge _ _ (by omega)
      simp [inside, beyond]

/-- The 24 bits above the operation are zero. -/
theorem bit_encode_of_ge (d : UInt32) (op : Opcode) {k : Nat} (h : 40 ≤ k) :
    (encode d op).bit k = false := by
  rw [bit_encode, if_neg (by omega)]
  exact BitVec.getLsbD_of_ge _ _ (by omega)

theorem encode_inj {d e : UInt32} {op p : Opcode} (h : encode d op = encode e p) :
    d = e ∧ op = p := by
  have descriptors := congrArg descriptor h
  have opcodes := congrArg opcode? h
  rw [descriptor_encode, descriptor_encode] at descriptors
  rw [opcode?_encode, opcode?_encode] at opcodes
  exact ⟨descriptors, Option.some.inj opcodes⟩

/-! ### Reading -/

theorem descriptor_bit (t : Tag) (k : Nat) :
    t.descriptor.toBitVec.getLsbD k = (decide (k < 32) && t.bit k) := by
  simp [bit, descriptor]

theorem opcodeByte_bit (t : Tag) (k : Nat) :
    t.opcodeByte.toBitVec.getLsbD k = (decide (k < 8) && t.bit (32 + k)) := by
  simp [bit, opcodeByte]

/-- What is read depends on the lowest 40 bits. -/
theorem read_congr (h : ∀ k, k < 40 → t.bit k = u.bit k) :
    t.descriptor = u.descriptor ∧ t.opcodeByte = u.opcodeByte := by
  refine ⟨UInt32.toBitVec_inj.mp (BitVec.eq_of_getLsbD_eq fun k hk => ?_),
    UInt8.toBitVec_inj.mp (BitVec.eq_of_getLsbD_eq fun k hk => ?_)⟩
  · rw [descriptor_bit, descriptor_bit, h k (by omega)]
  · rw [opcodeByte_bit, opcodeByte_bit, h (32 + k) (by omega)]

theorem toNat_opcodeByte (t : Tag) :
    t.opcodeByte.toNat = (t.word.toBitVec.extractLsb' 32 8).toNat := by
  have same : t.opcodeByte.toBitVec = t.word.toBitVec.extractLsb' 32 8 := by
    refine BitVec.eq_of_getLsbD_eq fun k _ => ?_
    rw [opcodeByte_bit, BitVec.getLsbD_extractLsb', bit]
  rw [← same, UInt8.toNat_toBitVec]

/-- What was read gives the word again without the bits that do not count. -/
theorem bit_encode_read {op : Opcode} (h : t.opcode? = some op) (k : Nat) :
    (encode t.descriptor op).bit k = (decide (k < 40) && t.bit k) := by
  rw [bit_encode, Opcode.code_of_ofCode? h]
  split
  next low =>
    have inside : k < 40 := by omega
    rw [descriptor_bit, decide_eq_true low, decide_eq_true inside]
  next high =>
    have place : 32 + (k - 32) = k := by omega
    have inside : k - 32 < 8 ↔ k < 40 := by omega
    rw [opcodeByte_bit, place]
    simp only [inside]

end Tag

/-! ## Completions -/

namespace Completion

/-- Bit `k` of the flags. -/
def bit (c : Completion) (k : Nat) : Bool := c.flags.toBitVec.getLsbD k

theorem and_ne_zero_iff (c : Completion) {flag : UInt32} {k : Nat} (h : flag.toNat = 1 <<< k) :
    c.flags &&& flag ≠ 0 ↔ c.bit k = true := by
  rw [Ne, ← UInt32.toNat_inj, UInt32.toNat_and, h, Nat.one_shiftLeft, Nat.and_two_pow]
  show ¬(c.flags.toNat.testBit k).toNat * _ = 0 ↔ c.flags.toNat.testBit k = true
  cases c.flags.toNat.testBit k <;> simp

theorem hasMore_eq (c : Completion) : c.hasMore = c.bit 1 := by
  rw [Bool.eq_iff_iff, hasMore, decide_eq_true_iff]
  exact c.and_ne_zero_iff rfl

theorem bufferId?_eq (c : Completion) : c.bufferId? =
    if c.bit 0 then some ⟨c.flags.toBitVec.extractLsb' 16 16⟩ else none := by
  have upper : (c.flags >>> 16).toUInt16 = ⟨c.flags.toBitVec.extractLsb' 16 16⟩ := by
    refine UInt16.toBitVec_inj.mp (BitVec.eq_of_getLsbD_eq fun k _ => ?_)
    simp
  unfold bufferId?
  rw [upper]
  exact if_congr (c.and_ne_zero_iff rfl) rfl rfl

theorem bufferId?_eq_none_iff (c : Completion) : c.bufferId? = none ↔ c.bit 0 = false := by
  rw [bufferId?_eq]
  cases c.bit 0 <;> simp

theorem bufferId?_eq_some_iff (c : Completion) (id : UInt16) : c.bufferId? = some id ↔
    c.bit 0 = true ∧ id.toBitVec = c.flags.toBitVec.extractLsb' 16 16 := by
  have number (x : BitVec 16) : UInt16.ofBitVec x = id ↔ id.toBitVec = x :=
    ⟨fun h => h ▸ rfl, fun h => h ▸ rfl⟩
  rw [bufferId?_eq]
  cases c.bit 0 <;> simp [number]

/-- The buffer does not depend on whether more will follow. -/
theorem bufferId?_congr {c e : Completion} (h : ∀ k, k ≠ 1 → c.bit k = e.bit k) :
    c.bufferId? = e.bufferId? := by
  have upper : c.flags.toBitVec.extractLsb' 16 16 = e.flags.toBitVec.extractLsb' 16 16 := by
    refine BitVec.eq_of_getLsbD_eq fun k _ => ?_
    rw [BitVec.getLsbD_extractLsb', BitVec.getLsbD_extractLsb']
    exact congrArg _ (h (16 + k) (by omega))
  rw [bufferId?_eq, bufferId?_eq, h 0 (by decide), upper]

/-- A tag and flags are read back as they were built, a tag has nothing in its upper 24 bits, no two
tags are the same word, and a descriptor is read back whatever its sign. In any word the lowest 40
bits are all that is read; there is an operation in it exactly if the eight bits from bit 32 on hold
a number from 1 to 8, which is its number then, and what was read makes a tag with the same 40 bits.
In any flags bit 0 says whether there is a buffer, the upper half is its number and bit 1 says
whether more will follow, which the buffer does not depend on. -/
theorem words_are_read_back :
    (∀ d op result id more,
      let c : Completion := ⟨.encode d op, result, flagsOf id more⟩
      c.tag.descriptor = d ∧ c.tag.opcode? = some op ∧ c.bufferId? = some id ∧ c.hasMore = more ∧
        ∀ k, 40 ≤ k → c.tag.bit k = false) ∧
    (∀ d op e p, Tag.encode d op = .encode e p → d = e ∧ op = p) ∧
    (∀ (fd : Descriptor) op, (Tag.onDescriptor fd op).descriptor.toInt32 = fd) ∧
    (∀ t u : Tag, (∀ k, k < 40 → t.bit k = u.bit k) →
      t.descriptor = u.descriptor ∧ t.opcode? = u.opcode?) ∧
    (∀ t : Tag,
      let number := (t.word.toBitVec.extractLsb' 32 8).toNat
      ((∃ op, t.opcode? = some op) ↔ 1 ≤ number ∧ number ≤ 8) ∧
        ∀ op, t.opcode? = some op → op.code.toNat = number ∧
          ∀ k, (Tag.encode t.descriptor op).bit k = (decide (k < 40) && t.bit k)) ∧
    (∀ c : Completion, (c.bufferId? = none ↔ c.bit 0 = false) ∧
      (∀ id, c.bufferId? = some id ↔
        c.bit 0 = true ∧ id.toBitVec = c.flags.toBitVec.extractLsb' 16 16) ∧
      c.hasMore = c.bit 1) ∧
    ∀ c e : Completion, (∀ k, k ≠ 1 → c.bit k = e.bit k) → c.bufferId? = e.bufferId? := by
  refine ⟨fun d op result id more => ?_, fun d op e p => Tag.encode_inj, Tag.toInt32_descriptor,
    fun t u same => ?_, fun t => ?_, fun c => ?_, fun c e => bufferId?_congr⟩
  · exact ⟨Tag.descriptor_encode d op, Tag.opcode?_encode d op, bufferId?_flagsOf _ _ id more,
      hasMore_flagsOf _ _ id more, fun k => Tag.bit_encode_of_ge d op⟩
  · obtain ⟨descriptors, bytes⟩ := Tag.read_congr same
    exact ⟨descriptors, congrArg Opcode.ofCode? bytes⟩
  · intro number
    have byte : t.opcodeByte.toNat = number := t.toNat_opcodeByte
    refine ⟨?_, fun op h => ⟨?_, Tag.bit_encode_read h⟩⟩
    · simp only [Tag.opcode?, Opcode.ofCode?_eq_some_iff, Opcode.exists_code_iff, byte]
    · rw [Opcode.code_of_ofCode? h, byte]
  · exact ⟨c.bufferId?_eq_none_iff, c.bufferId?_eq_some_iff, c.hasMore_eq⟩

/-- A word with bits that do not count: a receive on descriptor -3. -/
theorem words_are_read_back_without_reserve :
    let t : Tag := ⟨0xabcdef03fffffffd⟩
    let u : Tag := .onDescriptor (-3) .receive
    let c : Completion := ⟨t, 20, 0x00070003⟩
    (t.descriptor = u.descriptor ∧ t.opcode? = u.opcode?) ∧ u.descriptor.toInt32 = -3 ∧
      (∃ op, t.opcode? = some op) ∧ (∀ k, u.bit k = (decide (k < 40) && t.bit k)) ∧
      u.bit 63 = false ∧ c.bufferId? = some 7 ∧ c.hasMore = true ∧
      c.bufferId? = bufferId? ⟨u, 0, 0x00070001⟩ := by
  intro t u c
  obtain ⟨built, -, signed, low, read, flags, more⟩ := words_are_read_back
  have receive : t.opcode? = some .receive := by decide
  have again : Tag.encode t.descriptor .receive = u := by decide
  obtain ⟨-, -, -, -, reserve⟩ := built (Int32.toUInt32 (-3)) .receive 20 7 true
  obtain ⟨-, rest⟩ := (read t).2 .receive receive
  obtain ⟨-, picked, follows⟩ := flags c
  rw [again] at rest
  refine ⟨low t u (by decide), signed (-3) .receive, ⟨_, receive⟩, rest, reserve 63 (by decide),
    (picked 7).mpr (by decide), follows.trans (by decide), more c ⟨u, 0, 0x00070001⟩ ?_⟩
  intro k hk
  have table : ∀ k, k < 32 → k ≠ 1 → c.bit k = bit ⟨u, 0, 0x00070001⟩ k := by decide
  by_cases inside : k < 32
  · exact table k inside hk
  · exact (BitVec.getLsbD_of_ge _ _ (Nat.not_lt.mp inside)).trans
      (BitVec.getLsbD_of_ge _ _ (Nat.not_lt.mp inside)).symm

end Completion

end RingServer
