import RingServer.SlotPool
import RingServer.Proofs.FreeList

/-!
Who owns the slots of a pool. `Lends p flying` says that the kernel owns the slots of `flying`,
that each of them is listed once, and that all others are free. A slot on its way to the kernel is
with the application for a moment (`Holds`): `Lends.acquire` and `Holds.lend` lead through that
moment, and `Lends.release` takes a slot back. Nothing depends on what is in memory. Before all that
a pool has to be built, which is refused for the first limit that is broken (`new_outcomes`).
-/

namespace RingServer.SlotPool

/-- The kernel owns the slots of `flying`, and nobody owns the others. -/
structure Lends (p : SlotPool) (flying : List UInt16) : Prop where
  stacked : ∃ stack, p.free.IsStack stack
  nodup : flying.Nodup
  kernel_iff : ∀ i, p.owner? i = some .kernel ↔ i ∈ flying
  unheld : ∀ i, p.owner? i ≠ some .app

/-- The application owns slot `i`, the kernel those of `flying`, and nobody the others. -/
structure Holds (p : SlotPool) (flying : List UInt16) (i : UInt16) : Prop where
  stacked : ∃ stack, p.free.IsStack stack
  nodup : flying.Nodup
  kernel_iff : ∀ j, p.owner? j = some .kernel ↔ j ∈ flying
  held_iff : ∀ j, p.owner? j = some .app ↔ j = i

variable {p q : SlotPool} {flying : List UInt16} {i : UInt16}

theorem Holds.of_free_eq (h : p.Holds flying i) (e : q.free = p.free) : q.Holds flying i := by
  obtain ⟨size, memory, free⟩ := p
  cases e
  exact ⟨h.stacked, h.nodup, h.kernel_iff, h.held_iff⟩

theorem Lends.of_free_eq (h : p.Lends flying) (e : q.free = p.free) : q.Lends flying := by
  obtain ⟨size, memory, free⟩ := p
  cases e
  exact ⟨h.stacked, h.nodup, h.kernel_iff, h.unheld⟩

/-! ## New pools -/

/-- What is asked of a pool, in the order in which it is checked. -/
def requirements (granted entrySize entries : Nat) : List Requirement :=
  [⟨entrySize ≠ 0, .config .slotSize⟩,
    ⟨1 ≤ entries ∧ entries ≤ FreeList.maxSlots, .config (.slotCount entries)⟩,
    ⟨entrySize * entries < UInt64.size, .allocation .poolOverflow⟩,
    ⟨entrySize * entries ≤ maxRegion, .allocation .poolLayout⟩,
    ⟨entrySize * entries ≤ granted, .allocation .pool⟩]

theorem new_checks (granted entrySize entries : Nat) :
    Checks (requirements granted entrySize entries) (new granted entrySize entries) := by
  unfold new requirements
  rw [← ite_not]
  refine .guard Iff.rfl rfl ?_
  refine (FreeList.new_checks entries).bind fun free _ => ?_
  dsimp only
  rw [← ite_not]
  refine .guard Nat.not_le rfl ?_
  rw [← ite_not]
  refine .guard Nat.not_lt rfl ?_
  rw [← ite_not]
  exact .guard Nat.not_lt rfl (.ok _)

/-- A size and a number of slots that are usable by themselves. -/
def Usable (entrySize entries : Nat) : Prop := 1 ≤ entrySize ∧ 1 ≤ entries ∧ entries ≤ 65535

/-- Where the limits are, and in which order. -/
theorem new_outcomes (granted entrySize entries : Nat) :
    ((∃ cause, new granted entrySize entries = .error (.config cause)) ↔
      ¬Usable entrySize entries) ∧
    (new granted entrySize entries = .error (.allocation .poolOverflow) ↔
      Usable entrySize entries ∧ 1 <<< 64 ≤ entrySize * entries) ∧
    (new granted entrySize entries = .error (.allocation .poolLayout) ↔ Usable entrySize entries ∧
      entrySize * entries < 1 <<< 64 ∧ 1 <<< 63 - 4096 < entrySize * entries) ∧
    (new granted entrySize entries = .error (.allocation .pool) ↔ Usable entrySize entries ∧
      entrySize * entries ≤ 1 <<< 63 - 4096 ∧ granted < entrySize * entries) ∧
    ((∃ p, new granted entrySize entries = .ok p) ↔ Usable entrySize entries ∧
      entrySize * entries ≤ 1 <<< 63 - 4096 ∧ entrySize * entries ≤ granted) := by
  have checks := new_checks granted entrySize entries
  have slots : FreeList.maxSlots = 65535 := rfl
  have word : UInt64.size = 1 <<< 64 := rfl
  have region : maxRegion = 1 <<< 63 - 4096 := rfl
  simp only [checks.eq_error_iff, checks.exists_ok_iff, requirements, Usable, FirstUnmet.cons_iff,
    FirstUnmet.not_nil, List.forall_mem_cons, List.not_mem_nil, false_imp_iff, implies_true, slots,
    word, region, reduceCtorEq, Fault.config.injEq, Fault.allocation.injEq, and_true, and_false,
    or_false, false_or]
  generalize entrySize * entries = total
  refine ⟨⟨?_, fun unusable => ?_⟩, ?_, ?_, ?_, ?_⟩
  · rintro ⟨cause, _ | _⟩ <;> omega
  · by_cases blank : entrySize = 0
    · exact ⟨.slotSize, .inl ⟨not_not.mpr blank, rfl⟩⟩
    · exact ⟨.slotCount entries, .inr ⟨blank, by omega, rfl⟩⟩
  all_goals omega

/-- A new pool has slots of some size, blank memory and a new free list. -/
theorem exists_of_new {granted entrySize entries : Nat}
    (h : new granted entrySize entries = .ok p) :
    0 < entrySize ∧ ∃ free, FreeList.new entries = .ok free ∧ p = ⟨entrySize, .blank, free⟩ := by
  unfold new at h
  split at h
  · cases h
  next hsize =>
    rcases hf : FreeList.new entries with e | free
    · rw [hf] at h
      cases h
    · rw [hf] at h
      simp only [bind, Except.bind] at h
      split at h
      · cases h
      split at h
      · cases h
      split at h
      · cases h
      · cases h
        exact ⟨Nat.pos_of_ne_zero hsize, free, rfl, rfl⟩

theorem new_eq_ok {granted entrySize entries : Nat} (h : new granted entrySize entries = .ok p) :
    p.capacity = entries ∧ p.Lends [] := by
  obtain ⟨-, free, hf, rfl⟩ := exists_of_new h
  obtain ⟨-, -, hc, hs, ho⟩ := FreeList.new_eq_ok hf
  refine ⟨hc, ⟨_, hs⟩, List.nodup_nil, fun i => ?_, fun i => ?_⟩
  · rw [owner?, ho]
    split <;> simp
  · rw [owner?, ho]
    split <;> simp

theorem entrySize_of_new {granted entrySize entries : Nat}
    (h : new granted entrySize entries = .ok p) : p.entrySize = entrySize := by
  obtain ⟨-, free, -, rfl⟩ := exists_of_new h
  rfl

/-! ## Owners -/

/-- The free slots and those in flight are all there are. -/
theorem Lends.available_add (h : p.Lends flying) : p.available + flying.length = p.capacity := by
  obtain ⟨stack, hs⟩ := h.stacked
  have disjoint : stack.Disjoint flying := by
    intro i hf hk
    rw [← hs.free_iff i] at hf
    rw [← h.kernel_iff i, owner?, hf] at hk
    cases hk
  have all : (stack ++ flying).Perm ((List.range p.capacity).map UInt16.ofNat) := by
    have hb : p.capacity ≤ UInt16.size := Nat.le_trans hs.bound (by decide)
    rw [List.perm_ext_iff_of_nodup (hs.nodup.append h.nodup disjoint)]
    · intro i
      rw [FreeList.mem_map_ofNat_range hb, List.mem_append, ← hs.free_iff i, ← h.kernel_iff i]
      constructor
      · intro hi
        have : p.free.owner? i ≠ none := by
          rcases hi with e | e
          · simp [e]
          · rw [owner?] at e
            simp [e]
        have hn := mt hs.owner?_eq_none.mpr this
        exact Nat.lt_of_not_le hn
      · intro hi
        have hn := mt hs.owner?_eq_none.mp (Nat.not_le.mpr hi)
        have hu := h.unheld i
        rw [owner?] at hu ⊢
        rcases ho : p.free.owner? i with _ | x
        · exact absurd ho hn
        · cases x with
          | free => exact Or.inl rfl
          | app => exact absurd ho hu
          | kernel => exact Or.inr rfl
    · apply FreeList.nodup_map_ofNat List.nodup_range
      intro a ha
      have := List.mem_range.mp ha
      omega
  have lengths := all.length_eq
  rw [List.length_append, List.length_map, List.length_range, ← hs.available] at lengths
  exact lengths

/-- Either there is no free slot, or the application gets one that is not in flight. -/
theorem Lends.acquire (h : p.Lends flying) : p.acquire = (none, p) ∨
    ∃ slot q, p.acquire = (some slot, q) ∧ slot.index ∉ flying ∧
      q.capacity = p.capacity ∧ q.Holds flying slot.index := by
  obtain ⟨entrySize, memory, free⟩ := p
  obtain ⟨stack, hs⟩ := h.stacked
  cases stack with
  | nil =>
    left
    rw [SlotPool.acquire, FreeList.pop_of_isStack_nil hs]
    rfl
  | cons i stack =>
    right
    obtain ⟨g, hg, hstack, hcap, howner⟩ := FreeList.pop_of_isStack_cons hs
    have hfree : free.owner? i = some .free := (hs.free_iff i).mpr List.mem_cons_self
    have hnot : i ∉ flying := by
      rw [← h.kernel_iff i, owner?, hfree]
      simp
    refine ⟨⟨i⟩, ⟨entrySize, memory, g⟩, ?_, hnot, hcap, ⟨stack, hstack⟩, h.nodup, ?_, ?_⟩
    · rw [SlotPool.acquire, hg]
      rfl
    · intro j
      rw [owner?, howner j]
      split
      next e => simp [e, hnot]
      next => exact h.kernel_iff j
    · intro j
      rw [owner?, howner j]
      split
      next e => simp [e]
      next e => exact ⟨fun ha => absurd ha (h.unheld j), fun he => absurd he e⟩

theorem Lends.acquire_eq_none_iff (h : p.Lends flying) :
    p.acquire.1 = none ↔ p.available = 0 := by
  obtain ⟨entrySize, memory, free⟩ := p
  obtain ⟨stack, hs⟩ := h.stacked
  have count : available ⟨entrySize, memory, free⟩ = stack.length := hs.available
  cases stack with
  | nil =>
    rw [SlotPool.acquire, FreeList.pop_of_isStack_nil hs, count]
    simp
  | cons i stack =>
    obtain ⟨g, hg, -⟩ := FreeList.pop_of_isStack_cons hs
    rw [SlotPool.acquire, hg, count]
    simp

/-- The slot that the application holds can be lent, and is in flight then. -/
theorem Holds.lend (h : p.Holds flying i) (hi : i ∉ flying) (length : Nat) :
    ∃ loan q, p.lend ⟨i⟩ length = .ok (loan, q) ∧ loan.index = i ∧ q.capacity = p.capacity ∧
      q.Lends (flying ++ [i]) := by
  obtain ⟨stack, hs⟩ := h.stacked
  have happ : p.free.owner? i = some .app := (h.held_iff i).mpr rfl
  obtain ⟨g, lent, hg, hcap, owners⟩ := FreeList.lend_of_isStack hs happ
  have e : p.lend ⟨i⟩ length = .ok (⟨i, p.offset i, UInt32.ofNat (min length p.entrySize)⟩,
      { p with free := g }) := by
    rw [SlotPool.lend, lent]
    rfl
  refine ⟨_, _, e, rfl, hcap, ?_⟩
  refine ⟨⟨stack, hg⟩, ?_, ?_, ?_⟩
  · rw [List.nodup_append]
    refine ⟨h.nodup, by simp, ?_⟩
    intro j hj k hk
    cases List.mem_singleton.mp hk
    exact fun e => hi (e ▸ hj)
  · intro j
    rw [owner?, owners j, List.mem_append, List.mem_singleton]
    split
    next e => simp [e]
    next e => exact (h.kernel_iff j).trans (by simp [e])
  · intro j
    rw [owner?, owners j]
    split
    next => simp
    next e => exact mt (h.held_iff j).mp e

/-- A slot in flight is taken back, and from nobody else. -/
theorem Lends.release (h : p.Lends flying) (hi : i ∈ flying) :
    ∃ q, p.release i = .ok q ∧ q.capacity = p.capacity ∧ q.Lends (flying.filter (· ≠ i)) := by
  obtain ⟨stack, hs⟩ := h.stacked
  have hk : p.owner? i = some .kernel := (h.kernel_iff i).mpr hi
  obtain ⟨g, pushed, hg, hcap, owners⟩ := FreeList.push_of_isStack hs (Or.inr hk)
  refine ⟨{ p with free := g }, by rw [SlotPool.release, hk, pushed]; rfl, hcap, ?_⟩
  refine ⟨⟨i :: stack, hg⟩, h.nodup.filter _, ?_, ?_⟩
  · intro j
    rw [owner?, owners j, List.mem_filter]
    split
    next e => simp [e]
    next e => exact (h.kernel_iff j).trans (by simp [e])
  · intro j
    rw [owner?, owners j]
    split
    next => simp
    next => exact h.unheld j

theorem Lends.release_of_not_mem (h : p.Lends flying) (hi : i ∉ flying) :
    p.release i = .error (.slotNotOutstanding i) := by
  have hk := mt (h.kernel_iff i).mp hi
  unfold SlotPool.release
  split
  next e => exact absurd e hk
  next => rfl

/-! ## Memory -/

/-- Slots do not overlap. -/
theorem offset_disjoint (p : SlotPool) {i j : UInt16} (h : i ≠ j) :
    p.offset i + p.entrySize ≤ p.offset j ∨ p.offset j + p.entrySize ≤ p.offset i :=
  Memory.pieces_disjoint p.entrySize h

theorem acquire_eq {slot : Option Slot} (h : p.acquire = (slot, q)) :
    q.memory = p.memory ∧ q.entrySize = p.entrySize := by
  obtain ⟨entrySize, memory, free⟩ := p
  cases h
  exact ⟨rfl, rfl⟩

theorem lend_eq_ok {slot : Slot} {length : Nat} {loan : Loan}
    (h : p.lend slot length = .ok (loan, q)) :
    loan = ⟨slot.index, p.offset slot.index, .ofNat (min length p.entrySize)⟩ ∧
      q.memory = p.memory ∧ q.entrySize = p.entrySize := by
  unfold lend at h
  rcases hf : p.free.lend slot.index with e | free
  · rw [hf] at h
    cases h
  · rw [hf] at h
    cases h
    exact ⟨rfl, rfl, rfl⟩

theorem release_eq_ok (h : p.release i = .ok q) :
    q.memory = p.memory ∧ q.entrySize = p.entrySize := by
  unfold release at h
  split at h
  · rcases hf : p.free.push i with e | free
    · rw [hf] at h
      cases h
    · rw [hf] at h
      cases h
      exact ⟨rfl, rfl⟩
  · cases h

end RingServer.SlotPool
