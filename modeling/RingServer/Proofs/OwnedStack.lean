import RingServer.Proofs.FreeList
import RingServer.Proofs.Requests
import Mathlib.Data.List.Perm.Subperm
import Mathlib.Logic.Function.Basic

/-!
The free list against what it stands for: a stack of slots and a map of owners, with no links and no
counter (`OwnedStack`). Each request is answered alike by both (`Mirrors.perform`), and so is any
number of them, so that a user sees only the stack. Behind the answers the links stay a chain
without a cycle through exactly the free slots.
-/

namespace RingServer

open Requests (serve serve_keeps serve_alike)

/-- What may be asked of a free list. -/
inductive SlotRequest
  | pop
  | lend (index : UInt16)
  | push (index : UInt16)

/-- A fault, or the slot that was handed out, if any. -/
abbrev SlotAnswer := Except Fault (Option UInt16)

/-- A free list as a user understands it. -/
structure OwnedStack where
  size : Nat
  /-- The free slots, the one to be handed out next first. -/
  stack : List UInt16
  owner : UInt16 → SlotOwner

namespace OwnedStack

/-- All slots are free, the highest on top. -/
def new (slots : Nat) : OwnedStack :=
  ⟨slots, (List.range slots).reverse.map UInt16.ofNat, fun _ => .free⟩

def pop (s : OwnedStack) : SlotAnswer × OwnedStack :=
  match s.stack with
  | [] => (.ok none, s)
  | i :: below => (.ok (some i), ⟨s.size, below, Function.update s.owner i .app⟩)

def lend (i : UInt16) (s : OwnedStack) : SlotAnswer × OwnedStack :=
  if i.toNat < s.size ∧ s.owner i = .app then
    (.ok none, ⟨s.size, s.stack, Function.update s.owner i .kernel⟩)
  else (.error (.slotNotOutstanding i), s)

def push (i : UInt16) (s : OwnedStack) : SlotAnswer × OwnedStack :=
  if i.toNat < s.size ∧ (s.owner i = .app ∨ s.owner i = .kernel) then
    (.ok none, ⟨s.size, i :: s.stack, Function.update s.owner i .free⟩)
  else (.error (.slotNotOutstanding i), s)

def perform : SlotRequest → OwnedStack → SlotAnswer × OwnedStack
  | .pop => pop
  | .lend i => lend i
  | .push i => push i

theorem size_perform (r : SlotRequest) (s : OwnedStack) : (perform r s).2.size = s.size := by
  cases r with
  | pop =>
    simp only [perform, pop]
    split <;> rfl
  | lend i =>
    simp only [perform, lend]
    split <;> rfl
  | push i =>
    simp only [perform, push]
    split <;> rfl

end OwnedStack

namespace FreeList

/-- A request that fails leaves the list as it is. -/
def attempt (f : FreeList) : Except Fault FreeList → SlotAnswer × FreeList
  | .ok g => (.ok none, g)
  | .error fault => (.error fault, f)

def perform : SlotRequest → FreeList → SlotAnswer × FreeList
  | .pop, f => (.ok f.pop.1, f.pop.2)
  | .lend i, f => f.attempt (f.lend i)
  | .push i, f => f.attempt (f.push i)

variable {f g : FreeList} {s : OwnedStack} {stack : List UInt16} {i : UInt16}

/-! ## The list and the stack side by side -/

/-- `f` is threaded through the stack of `s`, and its owners are those of `s`. -/
structure Mirrors (f : FreeList) (s : OwnedStack) : Prop where
  isStack : f.IsStack s.stack
  capacity : f.capacity = s.size
  owner? : ∀ i, f.owner? i = if i.toNat < s.size then some (s.owner i) else none

theorem Mirrors.owner?_eq_some (h : f.Mirrors s) {x : SlotOwner} :
    f.owner? i = some x ↔ i.toNat < s.size ∧ s.owner i = x := by
  rw [h.owner? i]
  split
  next hi => simp [hi]
  next hi => simp [hi]

/-- A change of owner at a slot of the list is seen in the map, and nowhere else. -/
theorem Mirrors.owner?_update (h : f.Mirrors s) {x : SlotOwner} (hi : i.toNat < s.size)
    (hg : ∀ j, g.owner? j = if j = i then some x else f.owner? j) (j : UInt16) :
    g.owner? j = if j.toNat < s.size then some (Function.update s.owner i x j) else none := by
  rw [hg j, h.owner? j]
  by_cases e : j = i
  · rw [if_pos e, e, if_pos hi, Function.update_self]
  · rw [if_neg e, Function.update_of_ne e]

theorem Mirrors.pop (h : f.Mirrors s) :
    (perform .pop f).1 = s.pop.1 ∧ (perform .pop f).2.Mirrors s.pop.2 := by
  obtain ⟨size, stack, owner⟩ := s
  cases stack with
  | nil =>
    have e : f.pop = (none, f) := pop_of_isStack_nil h.isStack
    simp only [perform, e, OwnedStack.pop]
    exact ⟨trivial, h⟩
  | cons i below =>
    obtain ⟨g, e, hg, hcap, owners⟩ := pop_of_isStack_cons h.isStack
    have hi : i.toNat < size := by
      have hc : f.capacity = size := h.capacity
      have hlt : i.toNat < f.capacity := h.isStack.lt_capacity List.mem_cons_self
      rwa [hc] at hlt
    simp only [perform, e, OwnedStack.pop]
    exact ⟨trivial, hg, hcap.trans h.capacity, h.owner?_update hi owners⟩

theorem Mirrors.lend (h : f.Mirrors s) (i : UInt16) :
    (perform (.lend i) f).1 = (s.lend i).1 ∧ (perform (.lend i) f).2.Mirrors (s.lend i).2 := by
  by_cases ho : f.owner? i = some .app
  · have hs := h.owner?_eq_some.mp ho
    obtain ⟨g, e, hg, hcap, owners⟩ := lend_of_isStack h.isStack ho
    simp only [perform, attempt, e, OwnedStack.lend, if_pos hs]
    exact ⟨trivial, hg, hcap.trans h.capacity, h.owner?_update hs.1 owners⟩
  · have hs : ¬(i.toNat < s.size ∧ s.owner i = .app) := fun hs => ho (h.owner?_eq_some.mpr hs)
    simp only [perform, attempt, lend_eq_error ho, OwnedStack.lend, if_neg hs]
    exact ⟨trivial, h⟩

theorem push_eq_error (h : ¬(f.owner? i = some .app ∨ f.owner? i = some .kernel)) :
    f.push i = .error (.slotNotOutstanding i) := by
  obtain ⟨next, owner, head, free⟩ := f
  rw [not_or] at h
  simp only [FreeList.push]
  split
  next e => exact absurd e h.1
  next e => exact absurd e h.2
  next => rfl

theorem Mirrors.push (h : f.Mirrors s) (i : UInt16) :
    (perform (.push i) f).1 = (s.push i).1 ∧ (perform (.push i) f).2.Mirrors (s.push i).2 := by
  have hiff : f.owner? i = some .app ∨ f.owner? i = some .kernel ↔
      i.toNat < s.size ∧ (s.owner i = .app ∨ s.owner i = .kernel) := by
    rw [h.owner?_eq_some, h.owner?_eq_some, and_or_left]
  by_cases ho : f.owner? i = some .app ∨ f.owner? i = some .kernel
  · have hs := hiff.mp ho
    obtain ⟨g, e, hg, hcap, owners⟩ := push_of_isStack h.isStack ho
    simp only [perform, attempt, e, OwnedStack.push, if_pos hs]
    exact ⟨trivial, hg, hcap.trans h.capacity, h.owner?_update hs.1 owners⟩
  · have hs := fun hs => ho (hiff.mpr hs)
    simp only [perform, attempt, push_eq_error ho, OwnedStack.push, if_neg hs]
    exact ⟨trivial, h⟩

/-- One request is answered alike and keeps the two side by side. -/
theorem Mirrors.perform (h : f.Mirrors s) (r : SlotRequest) :
    (FreeList.perform r f).1 = (OwnedStack.perform r s).1 ∧
      (FreeList.perform r f).2.Mirrors (OwnedStack.perform r s).2 := by
  cases r with
  | pop => exact h.pop
  | lend i => exact h.lend i
  | push i => exact h.push i

theorem mirrors_new {n : Nat} (h : 0 < n) (hn : n ≤ maxSlots) :
    ∃ f, new n = .ok f ∧ f.Mirrors (OwnedStack.new n) := by
  have e : ∃ f, new n = .ok f := by
    rw [new, if_neg (by omega)]
    exact ⟨_, rfl⟩
  obtain ⟨f, hf⟩ := e
  obtain ⟨-, -, hcap, hstack, owners⟩ := new_eq_ok hf
  exact ⟨f, hf, hstack, hcap, owners⟩

/-! ## The chain -/

/-- The links leave one way to go from the head, so nothing but the stack is visited. -/
theorem Linked.unique {next : Array UInt16} {top : UInt16} {visited : List UInt16}
    (h : Linked next top stack) (hb : next.size ≤ maxSlots) (hv : Linked next top visited) :
    visited = stack := by
  have beyond : next[nil.toNat]? = none := by
    rw [Array.getElem?_eq_none_iff, toNat_nil]
    exact hb
  induction stack generalizing top visited with
  | nil =>
    cases visited with
    | nil => rfl
    | cons j above =>
      obtain ⟨rfl, link, hl, -⟩ := hv
      rw [show top = nil from h, beyond] at hl
      cases hl
  | cons i below ih =>
    obtain ⟨rfl, link, hl, hbelow⟩ := h
    cases visited with
    | nil =>
      rw [show top = nil from hv, beyond] at hl
      cases hl
    | cons j above =>
      obtain ⟨rfl, link', hl', habove⟩ := hv
      cases hl.symm.trans hl'
      rw [ih hbelow habove]

/-- The counter does not exceed the number of slots. -/
theorem IsStack.available_le (h : f.IsStack stack) : f.available ≤ f.capacity := by
  have hlt : ∀ k ∈ stack.map UInt16.toNat, k < f.capacity := by
    intro k hk
    obtain ⟨i, hi, rfl⟩ := List.mem_map.mp hk
    exact h.lt_capacity hi
  have hnodup : (stack.map UInt16.toNat).Nodup :=
    h.nodup.map_on fun _ _ _ _ e => UInt16.toNat_inj.mp e
  have hsub : stack.map UInt16.toNat ⊆ List.range f.capacity :=
    fun k hk => List.mem_range.mpr (hlt k hk)
  have hle := (hnodup.subperm hsub).length_le
  rwa [List.length_map, List.length_range, ← h.available] at hle

/-- What is handed out was free and is the application's, and the counter had room to go down. -/
theorem IsStack.of_pop (h : f.IsStack stack) (e : f.pop = (some i, g)) :
    f.owner? i = some .free ∧ g.owner? i = some .app ∧ g.available + 1 = f.available := by
  cases stack with
  | nil =>
    rw [pop_of_isStack_nil h] at e
    cases e
  | cons j below =>
    obtain ⟨g', e', hg, -, owners⟩ := pop_of_isStack_cons h
    cases e'.symm.trans e
    refine ⟨(h.free_iff i).mpr List.mem_cons_self, ?_, ?_⟩
    · rw [owners i, if_pos rfl]
    · rw [hg.available, h.available, List.length_cons]

/-- A free list cannot be told from a stack with a map of owners: whatever is asked, the answers
are the same, and so are the owners, the size and the number of free slots. The links lead from the
head through the free slots, each once, to the end. -/
theorem serves_as_owned_stack (n : Nat) (h : 0 < n) (hn : n ≤ maxSlots) :
    ∃ f, new n = .ok f ∧ ∀ requests,
      let run := serve perform requests f
      let expected := serve OwnedStack.perform requests (OwnedStack.new n)
      let g := run.2
      let stack := expected.2.stack
      run.1 = expected.1 ∧ g.capacity = n ∧ g.available = stack.length ∧ g.available ≤ n ∧
        (∀ i, g.owner? i = if i.toNat < n then some (expected.2.owner i) else none) ∧
        (∀ visited, Linked g.next g.head visited ↔ visited = stack) ∧ stack.Nodup ∧
        (∀ i, i ∈ stack ↔ g.owner? i = some .free) ∧
        ∀ i rest, g.pop = (some i, rest) →
          g.owner? i = some .free ∧ rest.owner? i = some .app ∧
            rest.available + 1 = g.available := by
  obtain ⟨f, hf, side⟩ := mirrors_new h hn
  refine ⟨f, hf, fun requests => ?_⟩
  intro run expected g stack
  obtain ⟨answers, hg⟩ := serve_alike (R := Mirrors) (fun h r => h.perform r) requests side
  have hsize : expected.2.size = n := by
    have fixed : ∀ r s, s.size = n → (OwnedStack.perform r s).2.size = n :=
      fun r s hs => (OwnedStack.size_perform r s).trans hs
    exact serve_keeps fixed requests rfl
  have hcap : g.capacity = n := hg.capacity.trans hsize
  have hle : g.available ≤ n := by
    rw [← hcap]
    exact hg.isStack.available_le
  have howner := hg.owner?
  rw [hsize] at howner
  refine ⟨answers, hcap, hg.isStack.available, hle, howner, ?_, hg.isStack.nodup,
    fun i => (hg.isStack.free_iff i).symm, fun i rest e => hg.isStack.of_pop e⟩
  intro visited
  constructor
  · exact hg.isStack.linked.unique hg.isStack.bound
  · rintro rfl
    exact hg.isStack.linked

/-- Three slots: the one given back is handed out again before the last one, and neither a slot
that is free nor one beyond the end can be given back. -/
theorem serves_as_owned_stack_reusing : 0 < 3 ∧ 3 ≤ maxSlots ∧ ∃ f, new 3 = .ok f ∧
    (serve perform
        [.pop, .pop, .lend 1, .push 2, .push 2, .push 3, .pop, .pop, .pop] f).1 =
      [.ok (some 2), .ok (some 1), .ok none, .ok none, .error (.slotNotOutstanding 2),
        .error (.slotNotOutstanding 3), .ok (some 2), .ok (some 0), .ok none] := by
  obtain ⟨f, hf, all⟩ := serves_as_owned_stack 3 (by decide) (by decide)
  refine ⟨by decide, by decide, f, hf, (all _).1.trans ?_⟩
  decide

end FreeList

end RingServer
