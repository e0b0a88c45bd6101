import RingServer.Proofs.OwnedStack

/-!
Which slots a free list ever hands out. A slot that was used before goes out again before one that
never was, so the slots in use at any time are among as few as the busiest moment so far needed:
`Settled n k f` says that all slots below the `k` highest still lie at the bottom of the stack in
their first order. A request raises `k` only when it raises the peak (`Settled.perform`).
-/

namespace RingServer.FreeList

open Requests (serve)

/-- Slots with an owner, in order. -/
def owned (f : FreeList) : List UInt16 :=
  ((List.range f.capacity).map UInt16.ofNat).filter fun i =>
    f.owner? i = some .app ∨ f.owner? i = some .kernel

/-- The largest number of slots that have an owner at the same time, from a list on through
requests. -/
def peak : List SlotRequest → FreeList → Nat
  | [], f => f.owned.length
  | r :: requests, f => max f.owned.length (peak requests (perform r f).2)

/-- The slots that were handed out, according to the answers. -/
def HandedOut (answers : List SlotAnswer) (i : UInt16) : Prop := .ok (some i) ∈ answers

/-- The `k` highest of `n` slots. -/
def Highest (n k : Nat) (i : UInt16) : Prop := n - k ≤ i.toNat ∧ i.toNat < n

/-- The lowest `m` slots, from the highest of them down. -/
def unused (m : Nat) : List UInt16 := (List.range m).reverse.map UInt16.ofNat

/-- All but the `k` highest slots are as they were at first, below what has come back of these. -/
structure Settled (n k : Nat) (f : FreeList) : Prop where
  capacity : f.capacity = n
  le : k ≤ n
  stacked : ∃ returned, f.IsStack (returned ++ unused (n - k)) ∧ ∀ i ∈ returned, Highest n k i

variable {f g : FreeList} {stack : List UInt16} {i : UInt16} {n k : Nat}

theorem unused_succ (m : Nat) : unused (m + 1) = UInt16.ofNat m :: unused m := by
  rw [unused, List.range_succ, List.reverse_append]
  rfl

theorem length_unused (m : Nat) : (unused m).length = m := by
  rw [unused, List.length_map, List.length_reverse, List.length_range]

theorem mem_unused {m : Nat} (hm : m ≤ UInt16.size) : i ∈ unused m ↔ i.toNat < m := by
  rw [unused, List.map_reverse, List.mem_reverse, mem_map_ofNat_range hm]

/-! ## Slots with an owner -/

theorem IsStack.capacity_le_size (h : f.IsStack stack) : f.capacity ≤ UInt16.size :=
  Nat.le_trans h.bound (by decide)

theorem mem_owned (h : f.IsStack stack) :
    i ∈ f.owned ↔ f.owner? i = some .app ∨ f.owner? i = some .kernel := by
  rw [owned, List.mem_filter, mem_map_ofNat_range h.capacity_le_size, decide_eq_true_iff]
  refine and_iff_right_of_imp fun ho => ?_
  have inside : f.owner? i ≠ none := by
    rcases ho with e | e <;> simp [e]
  exact Nat.lt_of_not_le (mt h.owner?_eq_none.mpr inside)

/-- A slot is on the stack or has an owner. -/
theorem IsStack.perm (h : f.IsStack stack) :
    (stack ++ f.owned).Perm ((List.range f.capacity).map UInt16.ofNat) := by
  have hb := h.capacity_le_size
  have all : ((List.range f.capacity).map UInt16.ofNat).Nodup := by
    refine nodup_map_ofNat List.nodup_range fun a ha => ?_
    exact Nat.lt_of_lt_of_le (List.mem_range.mp ha) hb
  have once : f.owned.Nodup := all.filter _
  have disjoint : stack.Disjoint f.owned := by
    intro i hfree hown
    rw [← h.free_iff i] at hfree
    rw [mem_owned h, hfree] at hown
    rcases hown with e | e <;> cases e
  rw [List.perm_ext_iff_of_nodup (h.nodup.append once disjoint) all]
  intro i
  rw [List.mem_append, mem_owned h, ← h.free_iff i, mem_map_ofNat_range hb, ← Nat.not_le,
    ← h.owner?_eq_none]
  rcases f.owner? i with _ | x
  · simp
  · cases x <;> simp

theorem IsStack.length_add (h : f.IsStack stack) : stack.length + f.owned.length = f.capacity := by
  have lengths := h.perm.length_eq
  rwa [List.length_append, List.length_map, List.length_range] at lengths

/-- What the counter leaves is the number of slots with an owner. -/
theorem IsStack.outstanding_eq (h : f.IsStack stack) : f.outstanding = f.owned.length := by
  have all := h.length_add
  have free : f.free = stack.length := h.available
  rw [outstanding, free]
  omega

/-! ## One request -/

/-- Only `pop` hands out a slot. -/
theorem attempt_ne (f : FreeList) (outcome : Except Fault FreeList) (i : UInt16) :
    (f.attempt outcome).1 ≠ .ok (some i) := by
  cases outcome with
  | ok g => exact nofun
  | error fault => exact nofun

namespace Settled

theorem le_size (h : Settled n k f) : n ≤ UInt16.size := by
  obtain ⟨returned, hs, -⟩ := h.stacked
  exact h.capacity ▸ hs.capacity_le_size

theorem owned_le (h : Settled n k f) : f.owned.length ≤ k := by
  obtain ⟨returned, hs, -⟩ := h.stacked
  have all := hs.length_add
  have cap := h.capacity
  rw [List.length_append, length_unused] at all
  omega

/-- A request that hands out no slot, or one of the `k` highest, leaves `k` as it is. -/
theorem of_highest (h : Settled n k g) {answer : SlotAnswer}
    (ha : ∀ i, answer = .ok (some i) → Highest n k i) :
    Settled n (max k g.owned.length) g ∧
      ∀ i, answer = .ok (some i) ∨ Highest n k i ↔ Highest n (max k g.owned.length) i := by
  rw [Nat.max_eq_left h.owned_le]
  exact ⟨h, fun i => or_iff_right_of_imp (ha i)⟩

theorem pop (h : Settled n k f) :
    Settled n (max k (perform .pop f).2.owned.length) (perform .pop f).2 ∧
      ∀ i, (perform .pop f).1 = .ok (some i) ∨ Highest n k i ↔
        Highest n (max k (perform .pop f).2.owned.length) i := by
  obtain ⟨returned, hs, high⟩ := h.stacked
  cases returned with
  | cons j returned =>
    obtain ⟨g, e, hg, hcap, -⟩ := pop_of_isStack_cons hs
    simp only [perform, e]
    have next : Settled n k g :=
      ⟨hcap.trans h.capacity, h.le, returned, hg, fun i hi => high i (List.mem_cons_of_mem j hi)⟩
    refine next.of_highest fun i hi => ?_
    cases hi
    exact high j List.mem_cons_self
  | nil =>
    rw [List.nil_append] at hs
    cases hm : n - k with
    | zero =>
      rw [hm] at hs
      simp only [perform, pop_of_isStack_nil hs]
      refine h.of_highest fun i hi => ?_
      cases hi
    | succ m =>
      -- every slot that was ever used is out: this is the new peak
      rw [hm, unused_succ] at hs
      obtain ⟨g, e, hg, hcap, -⟩ := pop_of_isStack_cons hs
      have cap := hcap.trans h.capacity
      have count : g.owned.length = k + 1 := by
        have all := hg.length_add
        rw [length_unused, cap] at all
        omega
      have fits : m < UInt16.size := by
        have size := h.le_size
        omega
      simp only [perform, e, count, Nat.max_eq_right (Nat.le_succ k)]
      refine ⟨⟨cap, by omega, [], ?_, fun i hi => absurd hi List.not_mem_nil⟩, fun i => ?_⟩
      · rw [List.nil_append, show n - (k + 1) = m by omega]
        exact hg
      · rw [Except.ok.injEq, Option.some.injEq, ← UInt16.toNat_inj,
          UInt16.toNat_ofNat_of_lt' fits, Highest, Highest]
        omega

theorem lend (h : Settled n k f) (i : UInt16) : Settled n k (perform (.lend i) f).2 := by
  obtain ⟨returned, hs, high⟩ := h.stacked
  by_cases ho : f.owner? i = some .app
  · obtain ⟨g, e, hg, hcap, -⟩ := lend_of_isStack hs ho
    simp only [perform, attempt, e]
    exact ⟨hcap.trans h.capacity, h.le, returned, hg, high⟩
  · simp only [perform, attempt, lend_eq_error ho]
    exact h

theorem push (h : Settled n k f) (i : UInt16) : Settled n k (perform (.push i) f).2 := by
  obtain ⟨returned, hs, high⟩ := h.stacked
  by_cases ho : f.owner? i = some .app ∨ f.owner? i = some .kernel
  · obtain ⟨g, e, hg, hcap, -⟩ := push_of_isStack hs ho
    -- a slot with an owner is none of the unused ones
    have lt : i.toNat < n := by
      have inside : i.toNat < f.owner.size := ho.elim lt_size_of_owner? lt_size_of_owner?
      rwa [hs.size, h.capacity] at inside
    have used : i ∉ unused (n - k) := by
      intro hi
      have free := (hs.free_iff i).mpr (List.mem_append_right _ hi)
      rw [free] at ho
      rcases ho with e | e <;> cases e
    rw [mem_unused (Nat.le_trans (Nat.sub_le n k) h.le_size)] at used
    simp only [perform, attempt, e]
    refine ⟨hcap.trans h.capacity, h.le, i :: returned, hg, fun j hj => ?_⟩
    rcases List.mem_cons.mp hj with rfl | hj
    · exact ⟨Nat.le_of_not_lt used, lt⟩
    · exact high j hj
  · simp only [perform, attempt, push_eq_error ho]
    exact h

/-- A request hands out one of the `k` highest slots, or the next one below when these are all out;
then the peak rises with it. -/
theorem perform (h : Settled n k f) (r : SlotRequest) :
    let g := (FreeList.perform r f).2
    Settled n (max k g.owned.length) g ∧
      ∀ i, (FreeList.perform r f).1 = .ok (some i) ∨ Highest n k i ↔
        Highest n (max k g.owned.length) i := by
  cases r with
  | pop => exact h.pop
  | lend i => exact (h.lend i).of_highest fun j hj => absurd hj (attempt_ne f (f.lend i) j)
  | push i => exact (h.push i).of_highest fun j hj => absurd hj (attempt_ne f (f.push i) j)

/-! ## Any number of requests -/

theorem serve (h : Settled n k f) (requests : List SlotRequest) :
    let run := serve FreeList.perform requests f
    Settled n (max k (peak requests f)) run.2 ∧
      ∀ i, HandedOut run.1 i ∨ Highest n k i ↔ Highest n (max k (peak requests f)) i := by
  induction requests generalizing k f with
  | nil =>
    have e : max k (peak [] f) = k := Nat.max_eq_left h.owned_le
    rw [e]
    exact ⟨h, fun i => or_iff_right nofun⟩
  | cons r requests ih =>
    obtain ⟨next, first⟩ := h.perform r
    obtain ⟨last, others⟩ := ih next
    have now : (FreeList.perform r f).2.owned.length ≤ peak requests (FreeList.perform r f).2 := by
      cases requests with
      | nil => exact Nat.le_refl _
      | cons => exact Nat.le_max_left ..
    have e : max k (peak (r :: requests) f) =
        max (max k (FreeList.perform r f).2.owned.length)
          (peak requests (FreeList.perform r f).2) := by
      have here := h.owned_le
      rw [peak]
      omega
    rw [e]
    refine ⟨last, fun i => ?_⟩
    rw [← others i, ← first i, ← or_assoc]
    refine or_congr_left ?_
    rw [HandedOut, Requests.serve, List.mem_cons, or_comm]
    exact or_congr_right eq_comm

/-- While a slot that was used before is free, no other is handed out. -/
theorem owner?_of_fresh (h : Settled n k f) (e : f.pop = (some i, g)) (fresh : ¬Highest n k i)
    {j : UInt16} (hj : Highest n k j) : f.owner? j ≠ some .free := by
  obtain ⟨returned, hs, high⟩ := h.stacked
  cases returned with
  | nil =>
    rw [List.nil_append] at hs
    rw [Ne, hs.free_iff j, mem_unused (Nat.le_trans (Nat.sub_le n k) h.le_size)]
    exact Nat.not_lt.mpr hj.1
  | cons top returned =>
    obtain ⟨g', e', -⟩ := pop_of_isStack_cons hs
    cases e'.symm.trans e
    exact absurd (high _ List.mem_cons_self) fresh

end Settled

/-- A new list has used nothing. -/
theorem settled_new (h : new n = .ok f) : Settled n 0 f := by
  obtain ⟨-, -, cap, stacked, -⟩ := new_eq_ok h
  exact ⟨cap, Nat.zero_le n, [], stacked, nofun⟩

/-- Whatever is asked of a free list of `n` slots, the slots that it has handed out are the `k`
highest, where `k` is the largest number of slots that were out at once. A slot that was never used
is therefore handed out only when every used one is out. -/
theorem used_slots_are_highest (n : Nat) (h : 0 < n) (hn : n ≤ maxSlots) :
    ∃ f, new n = .ok f ∧ ∀ requests,
      let run := serve perform requests f
      let k := peak requests f
      k ≤ n ∧ (∀ i, HandedOut run.1 i ↔ n - k ≤ i.toNat ∧ i.toNat < n) ∧
        run.2.outstanding = run.2.owned.length ∧
        (∀ i, i ∈ run.2.owned ↔ run.2.owner? i = some .app ∨ run.2.owner? i = some .kernel) ∧
        ∀ i rest, run.2.pop = (some i, rest) → ¬HandedOut run.1 i →
          ∀ j, HandedOut run.1 j → run.2.owner? j ≠ some .free := by
  obtain ⟨f, hf, -⟩ := mirrors_new h hn
  refine ⟨f, hf, fun requests => ?_⟩
  intro run k
  obtain ⟨settled, handed⟩ := (settled_new hf).serve requests
  rw [Nat.zero_max] at settled handed
  have used : ∀ i, HandedOut run.1 i ↔ Highest n k i := by
    intro i
    have none : ¬Highest n 0 i := fun high => Nat.not_lt.mpr high.1 high.2
    rw [← handed i, or_iff_left none]
  obtain ⟨returned, hs, -⟩ := settled.stacked
  refine ⟨settled.le, used, hs.outstanding_eq, fun i => mem_owned hs, fun i rest e fresh j hj => ?_⟩
  rw [used] at fresh hj
  exact settled.owner?_of_fresh e fresh hj

/-- Four slots, of which two are out at once: the third request for one gets the lower of the two
back, and the two lowest slots are never touched. -/
theorem used_slots_are_highest_reusing : 0 < 4 ∧ 4 ≤ maxSlots ∧ ∃ f, new 4 = .ok f ∧
    let run := serve perform [.pop, .pop, .lend 2, .push 2, .push 2, .pop] f
    HandedOut run.1 2 ∧ ¬HandedOut run.1 1 ∧ run.2.outstanding = 2 := by
  obtain ⟨f, hf, all⟩ := used_slots_are_highest 4 (by decide) (by decide)
  refine ⟨by decide, by decide, f, hf, ?_⟩
  obtain ⟨-, handed, count, -⟩ := all [.pop, .pop, .lend 2, .push 2, .push 2, .pop]
  have peaked : peak [.pop, .pop, .lend 2, .push 2, .push 2, .pop] f = 2 := by
    cases hf
    decide
  rw [peaked] at handed
  refine ⟨(handed 2).mpr (by decide), mt (handed 1).mp (by decide), ?_⟩
  cases hf
  decide

end RingServer.FreeList
