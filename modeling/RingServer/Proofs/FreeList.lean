import RingServer.FreeList
import RingServer.Proofs.Requirement
import Mathlib.Data.List.Nodup

/-!
The free list as a stack. `IsStack f stack` says that the links of `f`, from its head on, visit
exactly the slots of `stack`, each once, that these are the free slots, and that the counter is
their number. A new list is such a stack (`new_eq_ok`), and each operation acts on the stack as on
a list: `pop_of_isStack_cons` takes the top away, `lend_eq_ok_iff` leaves it alone, and
`push_eq_ok_iff` puts a slot on top.
-/

namespace RingServer.FreeList

/-- The links from `top` on visit the slots of a list in order and end there. -/
def Linked (next : Array UInt16) : UInt16 → List UInt16 → Prop
  | top, [] => top = nil
  | top, i :: below => top = i ∧ ∃ link, next[i.toNat]? = some link ∧ Linked next link below

/-- The free slots of `f` are those of `stack`, the one on top first. -/
structure IsStack (f : FreeList) (stack : List UInt16) : Prop where
  linked : Linked f.next f.head stack
  nodup : stack.Nodup
  /-- A slot is on the stack exactly if nobody owns it. -/
  free_iff : ∀ i, f.owner? i = some .free ↔ i ∈ stack
  available : f.available = stack.length
  size : f.owner.size = f.capacity
  bound : f.capacity ≤ maxSlots

variable {f g : FreeList} {stack : List UInt16} {i : UInt16}

theorem toNat_nil : nil.toNat = maxSlots := rfl

/-- A link that is not on a chain can be changed without the chain noticing. -/
theorem Linked.setIfInBounds {next : Array UInt16} {top : UInt16} {v : UInt16}
    (h : Linked next top stack) (hi : i ∉ stack) :
    Linked (next.setIfInBounds i.toNat v) top stack := by
  induction stack generalizing top with
  | nil => exact h
  | cons j below ih =>
    obtain ⟨rfl, link, hl, hb⟩ := h
    simp only [List.mem_cons, not_or] at hi
    refine ⟨rfl, link, ?_, ih hb hi.2⟩
    have hne : i.toNat ≠ top.toNat := fun e => hi.1 (UInt16.toNat_inj.mp e)
    rw [Array.getElem?_setIfInBounds_ne hne]
    exact hl

/-- What a change at one index does to what is found at any. -/
theorem getElem?_setIfInBounds_toNat {α : Type} {xs : Array α} {x : α} (h : i.toNat < xs.size)
    (j : UInt16) :
    (xs.setIfInBounds i.toNat x)[j.toNat]? = if j = i then some x else xs[j.toNat]? := by
  by_cases e : j = i
  · rw [if_pos e, e, Array.getElem?_setIfInBounds_self_of_lt h]
  · have hne : i.toNat ≠ j.toNat := fun e' => e (UInt16.toNat_inj.mp e'.symm)
    rw [if_neg e, Array.getElem?_setIfInBounds_ne hne]

theorem lt_size_of_owner? {x : SlotOwner} (h : f.owner? i = some x) : i.toNat < f.owner.size :=
  (Array.getElem?_eq_some_iff.mp h).1

theorem IsStack.lt_capacity (h : f.IsStack stack) (hi : i ∈ stack) : i.toNat < f.capacity := by
  rw [← h.size]
  exact lt_size_of_owner? ((h.free_iff i).mpr hi)

theorem IsStack.owner?_eq_none (h : f.IsStack stack) :
    f.owner? i = none ↔ f.capacity ≤ i.toNat := by
  rw [← h.size, owner?, Array.getElem?_eq_none_iff]

/-! ## A new list -/

theorem linked_ofFn (n : Nat) (hn : n ≤ maxSlots) (k : Nat) (hk : k ≤ n) :
    Linked (Array.ofFn fun i : Fin n => if i.val = 0 then nil else UInt16.ofNat (i.val - 1))
      (if k = 0 then nil else UInt16.ofNat (k - 1)) ((List.range k).reverse.map UInt16.ofNat) := by
  induction k with
  | zero => rfl
  | succ k ih =>
    have hs : k < UInt16.size := Nat.lt_of_lt_of_le hk (Nat.le_trans hn (by decide))
    have hk' : (UInt16.ofNat k).toNat = k := UInt16.toNat_ofNat_of_lt' hs
    simp only [List.range_succ, List.reverse_append, List.reverse_singleton, List.map_cons,
      List.singleton_append]
    refine ⟨by simp, if k = 0 then nil else UInt16.ofNat (k - 1), ?_, ih (by omega)⟩
    rw [hk', Array.getElem?_ofFn, dif_pos (by omega)]

theorem nodup_map_ofNat {l : List Nat} (h : l.Nodup) (hl : ∀ a ∈ l, a < UInt16.size) :
    (l.map UInt16.ofNat).Nodup := by
  apply h.map_on
  intro a ha b hb e
  have e' := congrArg UInt16.toNat e
  rwa [UInt16.toNat_ofNat_of_lt' (hl a ha), UInt16.toNat_ofNat_of_lt' (hl b hb)] at e'

theorem mem_map_ofNat_range {n : Nat} (hn : n ≤ UInt16.size) :
    i ∈ (List.range n).map UInt16.ofNat ↔ i.toNat < n := by
  simp only [List.mem_map, List.mem_range]
  constructor
  · rintro ⟨a, ha, rfl⟩
    rwa [UInt16.toNat_ofNat_of_lt' (by omega)]
  · intro h
    exact ⟨i.toNat, h, UInt16.ofNat_toNat⟩

/-- Only the number of slots is checked. -/
theorem new_checks (n : Nat) :
    Checks [⟨1 ≤ n ∧ n ≤ maxSlots, .config (.slotCount n)⟩] (new n) := by
  unfold new
  rw [← ite_not]
  exact .guard (by dsimp only; omega) rfl (.ok _)

theorem new_eq_ok {n : Nat} (h : new n = .ok f) : 0 < n ∧ n ≤ maxSlots ∧ f.capacity = n ∧
    f.IsStack ((List.range n).reverse.map UInt16.ofNat) ∧
    ∀ i, f.owner? i = if i.toNat < n then some .free else none := by
  unfold new at h
  split at h
  · cases h
  next hn =>
    have hb : n ≤ maxSlots := by omega
    have hs : n ≤ UInt16.size := Nat.le_trans hb (by decide)
    cases h
    have owners : ∀ i : UInt16, (Array.replicate n SlotOwner.free)[i.toNat]? =
        if i.toNat < n then some .free else none := fun i => by rw [Array.getElem?_replicate]
    refine ⟨by omega, hb, by simp [capacity], ⟨?_, ?_, ?_, ?_, ?_, ?_⟩, owners⟩
    · have hl := linked_ofFn n hb n (Nat.le_refl n)
      rwa [if_neg (by omega)] at hl
    · apply nodup_map_ofNat
      · exact List.nodup_reverse.mpr List.nodup_range
      · intro a ha
        have := List.mem_range.mp (List.mem_reverse.mp ha)
        omega
    · intro i
      rw [List.map_reverse, List.mem_reverse, mem_map_ofNat_range hs]
      simp [owner?, owners]
    · simp [available]
    · simp [capacity]
    · simpa [capacity] using hb

/-! ## Operations -/

theorem pop_of_isStack_nil (h : f.IsStack []) : f.pop = (none, f) := by
  obtain ⟨next, owner, head, free⟩ := f
  have hh : head = nil := h.linked
  simp [pop, hh]

theorem pop_of_isStack_cons (h : f.IsStack (i :: stack)) :
    ∃ g, f.pop = (some i, g) ∧ g.IsStack stack ∧ g.capacity = f.capacity ∧
      ∀ j, g.owner? j = if j = i then some .app else f.owner? j := by
  obtain ⟨next, owner, head, free⟩ := f
  obtain ⟨rfl, link, hl, hb⟩ := h.linked
  have hlt : head.toNat < next.size := h.lt_capacity List.mem_cons_self
  have hne : head ≠ nil := by
    intro e
    have hm := h.bound
    rw [e, toNat_nil] at hlt
    exact Nat.lt_irrefl _ (Nat.lt_of_lt_of_le hlt hm)
  obtain ⟨hnot, hnodup⟩ := List.nodup_cons.mp h.nodup
  have hown : head.toNat < owner.size := by
    have hs : owner.size = next.size := h.size
    omega
  have owners := getElem?_setIfInBounds_toNat (x := .app) hown
  have e : pop ⟨next, owner, head, free⟩ = (some head, ⟨next.setIfInBounds head.toNat nil,
      owner.setIfInBounds head.toNat .app, next.getD head.toNat nil, free - 1⟩) := if_neg hne
  refine ⟨_, e, ⟨?_, hnodup, ?_, ?_, ?_, ?_⟩, ?_, fun j => owners j⟩
  · have hg : next.getD head.toNat nil = link := by
      rw [Array.getD_eq_getD_getElem?, hl]
      rfl
    rw [hg]
    exact hb.setIfInBounds hnot
  · intro j
    have hj : owner[j.toNat]? = some .free ↔ j = head ∨ j ∈ stack := by
      rw [← List.mem_cons]
      exact h.free_iff j
    rw [owner?, owners j]
    split
    next e => simp [e, hnot]
    next e => rw [hj, or_iff_right e]
  · have ha : free = stack.length + 1 := h.available
    show free - 1 = stack.length
    omega
  · simpa [capacity] using h.size
  · simpa [capacity] using h.bound
  · simp [capacity]

theorem lend_eq_ok_iff : f.lend i = .ok g ↔
    f.owner? i = some .app ∧ g = { f with owner := f.owner.setIfInBounds i.toNat .kernel } := by
  obtain ⟨next, owner, head, free⟩ := f
  simp only [lend, owner?]
  split
  next h => simp [h, eq_comm]
  next h => simpa using fun e => absurd e h

theorem lend_eq_error (h : f.owner? i ≠ some .app) : f.lend i = .error (.slotNotOutstanding i) := by
  obtain ⟨next, owner, head, free⟩ := f
  simp only [lend]
  split
  next h' => exact absurd h' h
  next => rfl

theorem push_eq_ok_iff : f.push i = .ok g ↔
    (f.owner? i = some .app ∨ f.owner? i = some .kernel) ∧
      g = ⟨f.next.setIfInBounds i.toNat f.head, f.owner.setIfInBounds i.toNat .free, i,
        f.free + 1⟩ := by
  obtain ⟨next, owner, head, free⟩ := f
  simp only [push, owner?]
  split
  next h => simp [h, eq_comm]
  next h => simp [h, eq_comm]
  next h h' => simpa using fun e => e.elim (fun e => absurd e h) (fun e => absurd e h')

/-- A change of owner between the application and the kernel leaves the stack as it is. -/
theorem IsStack.setOwner {x : SlotOwner} (h : f.IsStack stack) (hi : i ∉ stack) (hx : x ≠ .free) :
    IsStack { f with owner := f.owner.setIfInBounds i.toNat x } stack where
  linked := h.linked
  nodup := h.nodup
  free_iff := by
    intro j
    by_cases hlt : i.toNat < f.owner.size
    · have owners := getElem?_setIfInBounds_toNat (x := x) hlt j
      rw [owner?, owners]
      split
      next e => simp [e, hi, hx]
      next => exact h.free_iff j
    · rw [owner?, Array.setIfInBounds_eq_of_size_le (by omega)]
      exact h.free_iff j
  available := h.available
  size := by simpa [capacity] using h.size
  bound := h.bound

/-- An outstanding slot that is given back is on top. -/
theorem IsStack.push (h : f.IsStack stack)
    (hi : f.owner? i = some .app ∨ f.owner? i = some .kernel) :
    IsStack ⟨f.next.setIfInBounds i.toNat f.head, f.owner.setIfInBounds i.toNat .free, i,
      f.free + 1⟩ (i :: stack) := by
  have hlt : i.toNat < f.owner.size := hi.elim lt_size_of_owner? lt_size_of_owner?
  have hnot : i ∉ stack := by
    rw [← h.free_iff i]
    rcases hi with e | e <;> simp [e]
  refine ⟨⟨rfl, f.head, ?_, h.linked.setIfInBounds hnot⟩, ?_, ?_, ?_, ?_, ?_⟩
  · have hcap : i.toNat < f.next.size := by
      have hs : f.owner.size = f.next.size := h.size
      omega
    rw [Array.getElem?_setIfInBounds_self_of_lt hcap]
  · exact List.nodup_cons.mpr ⟨hnot, h.nodup⟩
  · intro j
    have owners := getElem?_setIfInBounds_toNat (x := .free) hlt j
    rw [owner?, owners, List.mem_cons]
    split
    next e => simp [e]
    next e =>
      rw [or_iff_right e]
      exact h.free_iff j
  · have ha : f.free = stack.length := h.available
    show f.free + 1 = stack.length + 1
    rw [ha]
  · simpa [capacity] using h.size
  · simpa [capacity] using h.bound

/-- A slot of the application can be lent, which changes its owner and nothing else. -/
theorem lend_of_isStack (h : f.IsStack stack) (hi : f.owner? i = some .app) :
    ∃ g, f.lend i = .ok g ∧ g.IsStack stack ∧ g.capacity = f.capacity ∧
      ∀ j, g.owner? j = if j = i then some .kernel else f.owner? j := by
  have hnot : i ∉ stack := by
    rw [← h.free_iff i, hi]
    exact nofun
  exact ⟨_, lend_eq_ok_iff.mpr ⟨hi, rfl⟩, h.setOwner hnot nofun, rfl,
    getElem?_setIfInBounds_toNat (lt_size_of_owner? hi)⟩

/-- An outstanding slot can be given back, and is free and on top then. -/
theorem push_of_isStack (h : f.IsStack stack)
    (hi : f.owner? i = some .app ∨ f.owner? i = some .kernel) :
    ∃ g, f.push i = .ok g ∧ g.IsStack (i :: stack) ∧ g.capacity = f.capacity ∧
      ∀ j, g.owner? j = if j = i then some .free else f.owner? j := by
  refine ⟨_, push_eq_ok_iff.mpr ⟨hi, rfl⟩, h.push hi, ?_,
    getElem?_setIfInBounds_toNat (hi.elim lt_size_of_owner? lt_size_of_owner?)⟩
  simp [capacity]

end RingServer.FreeList
