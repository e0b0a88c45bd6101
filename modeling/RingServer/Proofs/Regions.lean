import RingServer.Proofs.BufferRing.Window
import RingServer.Proofs.SlotPool

/-!
Sizes and places in the two kinds of regions, up to the largest sizes that can be asked for. A pool
is refused for the first limit that is broken (`SlotPool.new_outcomes`), and a ring with valid
parameters only for lack of memory (`BufferRing.new_eq_error_iff`). Slots, and entries and buffers,
lie end to end in their region (`EndToEnd`), so they make it up without overlapping (`Tiles`), and
no size or place among them is cut off when it is computed in 64 bits
(`regions_are_made_of_pieces`).
-/

namespace RingServer

/-! ## Pieces -/

/-- Pieces of memory, each given by first byte and size, lie end to end from `start` to `stop`. -/
def EndToEnd (start stop : Nat) : List (Nat × Nat) → Prop
  | [] => start = stop
  | piece :: rest => piece.1 = start ∧ EndToEnd (start + piece.2) stop rest

/-- Pieces that make up a region: each lies in it, they do not overlap, and nothing is left out. -/
structure Tiles (pieces : List (Nat × Nat)) (size : Nat) : Prop where
  inside : ∀ x ∈ pieces, x.1 + x.2 ≤ size
  apart : pieces.Pairwise fun x y => x.1 + x.2 ≤ y.1
  covered : ∀ a, a < size → ∃ x ∈ pieces, x.1 ≤ a ∧ a < x.1 + x.2

namespace EndToEnd

variable {start middle stop : Nat} {xs ys : List (Nat × Nat)}

theorem append (hx : EndToEnd start middle xs) (hy : EndToEnd middle stop ys) :
    EndToEnd start stop (xs ++ ys) := by
  induction xs generalizing start with
  | nil =>
    obtain rfl : start = middle := hx
    exact hy
  | cons x xs ih => exact ⟨hx.1, ih hx.2⟩

/-- Pieces of one size, each placed by its number. -/
theorem equal_pieces (start size n : Nat) : EndToEnd start (start + n * size)
    ((List.range n).map fun k => (start + k * size, size)) := by
  induction n with
  | zero =>
    show start = start + 0 * size
    omega
  | succ n ih =>
    rw [List.range_succ, List.map_append, Nat.succ_mul]
    exact ih.append ⟨rfl, Nat.add_assoc _ _ _⟩

theorem between (h : EndToEnd start stop xs) : start ≤ stop ∧
    ∀ x ∈ xs, start ≤ x.1 ∧ x.1 + x.2 ≤ stop := by
  induction xs generalizing start with
  | nil => exact ⟨Nat.le_of_eq h, nofun⟩
  | cons x xs ih =>
    obtain ⟨rfl, rest⟩ := h
    obtain ⟨le, all⟩ := ih rest
    refine ⟨by omega, List.forall_mem_cons.mpr ⟨by omega, fun y hy => ?_⟩⟩
    have later := all y hy
    omega

theorem apart (h : EndToEnd start stop xs) : xs.Pairwise fun x y => x.1 + x.2 ≤ y.1 := by
  induction xs generalizing start with
  | nil => exact .nil
  | cons x xs ih =>
    obtain ⟨rfl, rest⟩ := h
    exact .cons (fun y hy => (rest.between.2 y hy).1) (ih rest)

theorem covered (h : EndToEnd start stop xs) {a : Nat} (above : start ≤ a) (below : a < stop) :
    ∃ x ∈ xs, x.1 ≤ a ∧ a < x.1 + x.2 := by
  induction xs generalizing start with
  | nil =>
    obtain rfl : start = stop := h
    omega
  | cons x xs ih =>
    obtain ⟨rfl, rest⟩ := h
    by_cases first : a < x.1 + x.2
    · exact ⟨x, List.mem_cons_self, above, first⟩
    · obtain ⟨y, hy, place⟩ := ih rest (Nat.not_lt.mp first)
      exact ⟨y, List.mem_cons_of_mem _ hy, place⟩

theorem tiles (h : EndToEnd 0 stop xs) : Tiles xs stop where
  inside x hx := (h.between.2 x hx).2
  apart := h.apart
  covered _ := h.covered (Nat.zero_le _)

end EndToEnd

/-! ## Slots -/

namespace SlotPool

/-- The slots of a pool in order. -/
def extents (entrySize entries : Nat) : List (Nat × Nat) :=
  (List.range entries).map fun i => (i * entrySize, entrySize)

theorem tiles_extents (entrySize entries : Nat) :
    Tiles (extents entrySize entries) (entrySize * entries) := by
  have pieces := EndToEnd.equal_pieces 0 entrySize entries
  simp only [Nat.zero_add] at pieces
  rw [Nat.mul_comm]
  exact pieces.tiles

theorem extent?_of_new {granted entrySize entries : Nat} {p : SlotPool}
    (h : new granted entrySize entries = .ok p) (i : UInt16) :
    p.extent? i = (extents entrySize entries)[i.toNat]? := by
  obtain ⟨capacity, -⟩ := new_eq_ok h
  rw [extent?, capacity, offset, entrySize_of_new h, extents, List.getElem?_map]
  split
  next lt => rw [List.getElem?_range lt, Option.map_some]
  next beyond => rw [List.getElem?_eq_none (by simpa using beyond), Option.map_none]

/-- A slot begins and ends where 64 bits say, if all of them fit. -/
theorem toNat_offset {entrySize : UInt64} {entries : Nat}
    (h : entrySize.toNat * entries < UInt64.size) {i : UInt16} (hi : i.toNat < entries) :
    (i.toUInt64 * entrySize).toNat = i.toNat * entrySize.toNat ∧
      (i.toUInt64 * entrySize + entrySize).toNat =
        i.toNat * entrySize.toNat + entrySize.toNat := by
  have fits : i.toNat * entrySize.toNat + entrySize.toNat < UInt64.size := by
    calc i.toNat * entrySize.toNat + entrySize.toNat = (i.toNat + 1) * entrySize.toNat :=
          (Nat.succ_mul _ _).symm
      _ ≤ entries * entrySize.toNat := Nat.mul_le_mul_right _ hi
      _ = entrySize.toNat * entries := Nat.mul_comm _ _
      _ < UInt64.size := h
  rw [UInt64.toNat_add, UInt64.toNat_mul, UInt16.toNat_toUInt64, Nat.mod_add_mod]
  exact ⟨Nat.mod_eq_of_lt (Nat.lt_of_le_of_lt (Nat.le_add_right _ _) fits), Nat.mod_eq_of_lt fits⟩

end SlotPool

/-! ## Entries and buffers -/

namespace BufferRing

open SharedRing (buffers)

variable {p : RingParams}

/-- The entries of a ring in order. -/
def entryExtents (p : RingParams) : List (Nat × Nat) :=
  (buffers p).map fun index => (entryAddress p index, entryBytes)

/-- The buffers of a ring in order. -/
def bufferExtents (p : RingParams) : List (Nat × Nat) :=
  (buffers p).map fun id => (bufferAddress p id, p.entrySize.toNat)

theorem endToEnd_entryExtents (hp : p.entries.toNat.isPowerOfTwo) :
    EndToEnd 0 (p.entries.toNat * entryBytes) (entryExtents p) := by
  have pieces := EndToEnd.equal_pieces 0 entryBytes p.entries.toNat
  simp only [Nat.zero_add] at pieces
  have places : entryExtents p =
      (List.range p.entries.toNat).map fun k => (k * entryBytes, entryBytes) := by
    rw [entryExtents, buffers, List.map_map]
    refine List.map_congr_left fun k hk => ?_
    rw [Function.comp_apply, entryAddress_ofNat hp, Nat.mod_eq_of_lt (List.mem_range.mp hk)]
  rwa [places]

theorem endToEnd_bufferExtents (p : RingParams) :
    EndToEnd (p.entries.toNat * entryBytes) (regionSize p) (bufferExtents p) := by
  have pieces :=
    EndToEnd.equal_pieces (p.entries.toNat * entryBytes) p.entrySize.toNat p.entries.toNat
  have places : bufferExtents p = (List.range p.entries.toNat).map fun k =>
      (p.entries.toNat * entryBytes + k * p.entrySize.toNat, p.entrySize.toNat) := by
    rw [bufferExtents, buffers, List.map_map]
    refine List.map_congr_left fun k hk => ?_
    have small : k < UInt16.size := Nat.lt_trans (List.mem_range.mp hk) p.entries.toNat_lt
    rw [Function.comp_apply, bufferAddress, UInt16.toNat_ofNat_of_lt' small]
  rwa [places, regionSize, Nat.add_comm]

theorem tiles_extents (hp : p.entries.toNat.isPowerOfTwo) :
    Tiles (entryExtents p ++ bufferExtents p) (regionSize p) :=
  ((endToEnd_entryExtents hp).append (endToEnd_bufferExtents p)).tiles

/-- Every position of the ring has one of the entries. -/
theorem entry_mem_entryExtents (hp : p.entries.toNat.isPowerOfTwo) (index : UInt16) :
    (entryAddress p index, entryBytes) ∈ entryExtents p := by
  have inside := Nat.mod_lt index.toNat (Nat.pos_of_isPowerOfTwo hp)
  refine List.mem_map.mpr ⟨.ofNat (index.toNat % p.entries.toNat), ?_, ?_⟩
  · exact List.mem_map_of_mem (List.mem_range.mpr inside)
  · have own := entryAddress_ofNat hp index.toNat
    rw [UInt16.ofNat_toNat] at own
    rw [entryAddress_ofNat hp, Nat.mod_mod, own]

/-- A ring with valid parameters is refused for lack of memory only. -/
theorem new_eq_error_iff {granted : Nat} (hv : p.validate = .ok ()) {f : Fault} :
    BufferRing.new granted p = .error f ↔ granted < regionSize p ∧ f = .allocation .ring := by
  by_cases fits : regionSize p ≤ granted
  · simp [new_eq_ok hv fits, Nat.not_lt.mpr fits]
  · simp [new_eq_error hv (Nat.not_le.mp fits), Nat.not_le.mp fits, eq_comm]

/-! ### In 64 bits -/

/-- A sum of two products is exact if it fits. -/
theorem toNat_mul_add_mul {a b c d : UInt64}
    (h : a.toNat * b.toNat + c.toNat * d.toNat < UInt64.size) :
    (a * b + c * d).toNat = a.toNat * b.toNat + c.toNat * d.toNat := by
  rw [UInt64.toNat_add, UInt64.toNat_mul, UInt64.toNat_mul, ← Nat.add_mod]
  exact Nat.mod_eq_of_lt h

theorem toNat_bufferAddress (p : RingParams) (id : UInt16) :
    (p.entries.toUInt64 * .ofNat entryBytes + id.toUInt64 * p.entrySize.toUInt64).toNat =
      bufferAddress p id :=
  toNat_mul_add_mul (bufferAddress_lt p id)

theorem toNat_regionSize (hv : p.validate = .ok ()) :
    (p.entries.toUInt64 * p.entrySize.toUInt64 + p.entries.toUInt64 * .ofNat entryBytes).toNat =
      regionSize p :=
  toNat_mul_add_mul (Nat.lt_of_le_of_lt (regionSize_le hv) (by decide))

end BufferRing

/-- What is asked of a pool is checked in order: a usable size and a usable number of slots, a
product below 2 ^ 64, at most 2 ^ 63 - 4096, and granted by the system. The slots of a pool make up
its region, as they are registered, and where they begin and end is computed in 64 bits. A ring with
valid parameters has a region that is smaller than all that, and is refused only if the system does
not grant it; its entries and buffers make up the region, every position of the ring has one of the
entries, and 64 bits are enough for all places. -/
theorem regions_are_made_of_pieces (granted : Nat) :
    (∀ entrySize entries : UInt64,
      let size := entrySize.toNat
      let n := entries.toNat
      let outcome := SlotPool.new granted size n
      ((∃ cause, outcome = .error (.config cause)) ↔ size = 0 ∨ ¬(1 ≤ n ∧ n ≤ 65535)) ∧
      (outcome = .error (.allocation .poolOverflow) ↔
        SlotPool.Usable size n ∧ 1 <<< 64 ≤ size * n) ∧
      (outcome = .error (.allocation .poolLayout) ↔
        SlotPool.Usable size n ∧ size * n < 1 <<< 64 ∧ 1 <<< 63 - 4096 < size * n) ∧
      (outcome = .error (.allocation .pool) ↔
        SlotPool.Usable size n ∧ size * n ≤ 1 <<< 63 - 4096 ∧ granted < size * n) ∧
      ((∃ p, outcome = .ok p) ↔
        SlotPool.Usable size n ∧ size * n ≤ 1 <<< 63 - 4096 ∧ size * n ≤ granted) ∧
      ∀ p, outcome = .ok p →
        (∀ i, p.extent? i = (SlotPool.extents size n)[i.toNat]?) ∧
        Tiles (SlotPool.extents size n) (size * n) ∧ (entrySize * entries).toNat = size * n ∧
        ∀ i : UInt16, i.toNat < n → (i.toUInt64 * entrySize).toNat = i.toNat * size ∧
          (i.toUInt64 * entrySize + entrySize).toNat = i.toNat * size + size) ∧
    ∀ p : RingParams, p.validate = .ok () →
      BufferRing.regionSize p ≤ 1 <<< 63 - 4096 ∧
      (∀ f, BufferRing.new granted p = .error f ↔
        granted < BufferRing.regionSize p ∧ f = .allocation .ring) ∧
      Tiles (BufferRing.entryExtents p ++ BufferRing.bufferExtents p) (BufferRing.regionSize p) ∧
      (∀ index, (BufferRing.entryAddress p index, BufferRing.entryBytes) ∈
        BufferRing.entryExtents p) ∧
      (p.entries.toUInt64 * p.entrySize.toUInt64 +
        p.entries.toUInt64 * .ofNat BufferRing.entryBytes).toNat = BufferRing.regionSize p ∧
      ∀ id : UInt16, (p.entries.toUInt64 * .ofNat BufferRing.entryBytes +
        id.toUInt64 * p.entrySize.toUInt64).toNat = BufferRing.bufferAddress p id := by
  refine ⟨fun entrySize entries => ?_, fun p hv => ?_⟩
  · intro size n outcome
    obtain ⟨config, overflow, layout, lack, passed⟩ := SlotPool.new_outcomes granted size n
    have unusable : ¬SlotPool.Usable size n ↔ size = 0 ∨ ¬(1 ≤ n ∧ n ≤ 65535) := by
      unfold SlotPool.Usable
      omega
    refine ⟨config.trans unusable, overflow, layout, lack, passed, fun p hp => ?_⟩
    obtain ⟨-, small, -⟩ := passed.mp ⟨p, hp⟩
    have fits : size * n < UInt64.size := Nat.lt_of_le_of_lt small (by decide)
    refine ⟨SlotPool.extent?_of_new hp, SlotPool.tiles_extents size n, ?_,
      fun i => SlotPool.toNat_offset fits⟩
    rw [UInt64.toNat_mul]
    exact Nat.mod_eq_of_lt fits
  · obtain ⟨hp, -, -⟩ := RingParams.of_validate hv
    exact ⟨BufferRing.regionSize_le hv, fun f => BufferRing.new_eq_error_iff hv,
      BufferRing.tiles_extents hp, BufferRing.entry_mem_entryExtents hp,
      BufferRing.toNat_regionSize hv, BufferRing.toNat_bufferAddress p⟩

/-- The last of 65535 slots, two pools that pass a limit, and the largest ring. -/
theorem regions_are_made_of_pieces_near_limits :
    let granted := 1 <<< 63 - 4096
    let largest : RingParams := ⟨32768, 0xffffffff, 7⟩
    SlotPool.new granted (1 <<< 62) 4 = .error (.allocation .poolOverflow) ∧
    SlotPool.new granted (1 <<< 63 - 4095) 1 = .error (.allocation .poolLayout) ∧
    (∃ p, SlotPool.new granted (1 <<< 47) 65535 = .ok p ∧
      p.extent? 65534 = some (65534 <<< 47, 1 <<< 47) ∧
      (UInt16.toUInt64 65534 * 0x800000000000 + 0x800000000000).toNat = 65535 <<< 47) ∧
    largest.validate = .ok () ∧ (∀ f, BufferRing.new granted largest ≠ .error f) ∧
    Tiles (BufferRing.entryExtents largest ++ BufferRing.bufferExtents largest) 140737488846848 ∧
    BufferRing.bufferAddress largest 32767 + 0xffffffff = 140737488846848 := by
  intro granted largest
  obtain ⟨pools, rings⟩ := regions_are_made_of_pieces granted
  obtain ⟨-, overflow, -⟩ := pools 0x4000000000000000 4
  obtain ⟨-, -, layout, -⟩ := pools 0x7ffffffffffff001 1
  obtain ⟨-, -, -, -, passed, slots⟩ := pools 0x800000000000 65535
  obtain ⟨p, hp⟩ := passed.mpr (by unfold SlotPool.Usable; decide)
  obtain ⟨extents, -, -, places⟩ := slots p hp
  have valid : largest.validate = .ok () := by decide
  have region : BufferRing.regionSize largest = 140737488846848 := by decide
  obtain ⟨-, refused, tiles, -⟩ := rings largest valid
  rw [region] at tiles
  refine ⟨overflow.mpr (by unfold SlotPool.Usable; decide),
    layout.mpr (by unfold SlotPool.Usable; decide),
    ⟨p, hp, ?_, (places 65534 (by decide)).2⟩, valid, fun f failed => ?_, tiles, by decide⟩
  · rw [extents, SlotPool.extents, List.getElem?_map, List.getElem?_range (by decide)]
    rfl
  · exact absurd ((refused f).mp failed).1 (by decide)

end RingServer
