import RingServer.Proofs.SlotHistory

/-!
How much of a slot a loan covers. What is asked for is cut to the size of the slot and then stored
in 32 bits, so a loan covers what it should as long as that is less than 4 GiB, and otherwise only
what is left modulo 2 ^ 32 (`Recorded.lend_eq`). Nothing keeps slots from being that long.
-/

namespace RingServer

open Text (Bytes)
open Requests (serve Allowed)
open SlotEvent

namespace PoolUser

variable {n size : Nat} {events : List SlotEvent} {u : PoolUser} {i : UInt16}

theorem toNat_ofNat_eq_iff {k : Nat} : (UInt32.ofNat k).toNat = k ↔ k < UInt32.size := by
  rw [UInt32.toNat_ofNat']
  exact Nat.mod_eq_iff_lt (by decide)

/-- A slot of the application is lent from its start on, with the bytes that are in it. -/
theorem Recorded.lend_eq (h : Recorded n size events u) (hi : u.pool.owner? i = some .app)
    (length : Nat) : ∃ p, u.pool.lend ⟨i⟩ length =
        .ok (⟨i, i.toNat * size, UInt32.ofNat (min length size)⟩, p) ∧
      p.lent ⟨i, i.toNat * size, UInt32.ofNat (min length size)⟩ =
        (contents size i events).take (min length size % UInt32.size) := by
  obtain ⟨stack, hs, -⟩ := h.stacked
  obtain ⟨g, e, -⟩ := FreeList.lend_of_isStack hs hi
  obtain rfl := h.entrySize
  refine ⟨{ u.pool with free := g }, by rw [SlotPool.lend, e]; rfl, ?_⟩
  have short : min length u.pool.entrySize % UInt32.size ≤ u.pool.entrySize :=
    Nat.le_trans (Nat.mod_le _ _) (Nat.min_le_right _ _)
  rw [← h.read_eq i short, SlotPool.lent, UInt32.toNat_ofNat']

theorem Recorded.extent?_eq (h : Recorded n size events u) (hi : u.pool.owner? i = some .app) :
    u.pool.extent? i = some (i.toNat * size, size) := by
  obtain ⟨stack, hs, -⟩ := h.stacked
  have lt : i.toNat < u.pool.capacity := by
    have inside := FreeList.lt_size_of_owner? hi
    rwa [hs.size] at inside
  rw [SlotPool.extent?, if_pos lt, SlotPool.offset, h.entrySize]

/-- A loan names the slot that was lent, begins where the slot begins, and covers as many of its
bytes as were asked for and are in it, modulo 2 ^ 32: exactly these if they are fewer than 2 ^ 32,
and otherwise not. -/
theorem loans_are_exact_below_word {granted : Nat} {pool : SlotPool}
    (hp : SlotPool.new granted size n = .ok pool) (requests : List PoolRequest)
    (ha : Allowed PoolUser.perform HasHandle requests (new pool)) :
    let run := serve PoolUser.perform requests (new pool)
    let u := run.2
    let events := history requests run.1
    ∀ i, u.pool.owner? i = some .app → ∀ length, ∃ loan p,
      u.pool.lend ⟨i⟩ length = .ok (loan, p) ∧ loan.index = i ∧
      u.pool.extent? i = some (loan.offset, size) ∧
      loan.length.toNat = min length size % UInt32.size ∧
      (loan.length.toNat = min length size ↔ min length size < UInt32.size) ∧
      u.pool.read ⟨i⟩ = contents size i events ∧
      (p.lent loan = (contents size i events).take length ↔ min length size < UInt32.size) := by
  intro run u events i hi length
  have h : Recorded n size events u := by
    have last := (recorded_new hp).serve requests ha
    rwa [List.append_nil] at last
  obtain ⟨p, lent, covered⟩ := h.lend_eq hi length
  refine ⟨_, p, lent, rfl, h.extent?_eq hi, UInt32.toNat_ofNat', toNat_ofNat_eq_iff, ?_, ?_⟩
  · have all := h.read_eq i (Nat.le_refl size)
    rw [SlotPool.read, SlotPool.offset, h.entrySize, all, contents, ← List.map_take,
      List.take_range, Nat.min_self]
  · have total : (contents size i events).length = size := by
      rw [contents, List.length_map, List.length_range]
    rw [covered]
    constructor
    · intro same
      have lengths := congrArg List.length same
      rw [List.length_take, List.length_take, total] at lengths
      have less : min length size % UInt32.size < UInt32.size := Nat.mod_lt _ (by decide)
      omega
    · intro fits
      rw [Nat.mod_eq_of_lt fits, ← List.take_take, List.take_of_length_le (Nat.le_of_eq total)]

/-- A slot of four bytes is lent with seven: the loan covers the four. -/
theorem loans_are_exact_below_word_when_cut :
    let pool : SlotPool := ⟨4, .blank, ⟨#[65535, 0], #[.free, .free], 1, 2⟩⟩
    let requests := [.acquire, .write 1 1 [7, 8]]
    let u := (serve PoolUser.perform requests (new pool)).2
    SlotPool.new 8 4 2 = .ok pool ∧ Allowed PoolUser.perform HasHandle requests (new pool) ∧
      u.pool.owner? 1 = some .app ∧ ∃ loan p, u.pool.lend ⟨1⟩ 7 = .ok (loan, p) ∧
        loan.length.toNat = 4 ∧ p.lent loan = [0, 7, 8, 0] := by
  intro pool requests u
  have hp : SlotPool.new 8 4 2 = .ok pool := by rfl
  have ha : Allowed PoolUser.perform HasHandle requests (new pool) := by decide +kernel
  have hi : u.pool.owner? 1 = some .app := by decide +kernel
  obtain ⟨loan, p, lent, -, -, -, exact', -, covered⟩ :=
    loans_are_exact_below_word hp requests ha 1 hi 7
  refine ⟨hp, ha, hi, loan, p, lent, exact'.mpr (by decide), (covered.mpr (by decide)).trans ?_⟩
  decide +kernel

/-- A slot of 4 GiB with something in it is lent as a whole, and the loan covers nothing of it. -/
theorem long_loan_is_empty :
    let size := UInt32.size
    ∃ pool, SlotPool.new size size 1 = .ok pool ∧
      let u := (serve PoolUser.perform [.acquire, .write 0 0 [1, 2, 3]] (new pool)).2
      u.holds 0 = true ∧ u.pool.owner? 0 = some .app ∧ u.pool.memory.read 0 3 = [1, 2, 3] ∧
        ∃ loan p, u.pool.lend ⟨0⟩ size = .ok (loan, p) ∧ loan.length = 0 ∧ p.lent loan = [] ∧
          loan.length.toNat ≠ min size u.pool.entrySize := by
  refine ⟨_, rfl, ?_, ?_, ?_, _, _, rfl, ?_, ?_, ?_⟩
  all_goals decide +kernel

end PoolUser

end RingServer
