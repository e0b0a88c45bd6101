import RingServer.Proofs.Ledger
import RingServer.Proofs.Requests
import Mathlib.Data.Finset.Card

/-!
The ledger of a buffer group against what it stands for: the set of the buffers that the application
holds (`HeldSet`), with no array and no counter. `Counts l s` ties the two together. Each request is
answered alike by both and keeps it (`Counts.perform`), whatever numbers are named, so the counter
is the size of the set at all times and is never lowered below zero or raised past the number of
buffers (`ledger_is_held_set`).
-/

namespace RingServer

open Requests (serve serve_keeps serve_alike)

/-- What may be asked of a ledger. -/
inductive LedgerRequest
  | take (id : UInt16)
  | giveBack (id : UInt16)

inductive LedgerAnswer
  | taken (outcome : Except Fault Unit)
  | givenBack (held : Bool)
  deriving DecidableEq

/-- The buffers of a group that the application holds. -/
structure HeldSet where
  group : UInt16
  entries : Nat
  ids : Finset UInt16

namespace HeldSet

def new (group : UInt16) (entries : Nat) : HeldSet := ⟨group, entries, ∅⟩

/-- A buffer of the group can be taken unless it is held. -/
def take (id : UInt16) (s : HeldSet) : Except Fault Unit × HeldSet :=
  if id.toNat < s.entries ∧ id ∉ s.ids then (.ok (), { s with ids := insert id s.ids })
  else (.error (.bufferNotInKernel s.group id), s)

def giveBack (id : UInt16) (s : HeldSet) : Bool × HeldSet :=
  if id ∈ s.ids then (true, { s with ids := s.ids.erase id }) else (false, s)

def holder? (s : HeldSet) (id : UInt16) : Option Holder :=
  if id.toNat < s.entries then some (if id ∈ s.ids then .app else .kernel) else none

def perform : LedgerRequest → HeldSet → LedgerAnswer × HeldSet
  | .take id, s => (.taken (s.take id).1, (s.take id).2)
  | .giveBack id, s => (.givenBack (s.giveBack id).1, (s.giveBack id).2)

/-- The group stays what it is. -/
theorem perform_group (request : LedgerRequest) (s : HeldSet) :
    (perform request s).2.group = s.group ∧ (perform request s).2.entries = s.entries := by
  cases request with
  | take id =>
    simp only [perform, take]
    split <;> exact ⟨rfl, rfl⟩
  | giveBack id =>
    simp only [perform, giveBack]
    split <;> exact ⟨rfl, rfl⟩

end HeldSet

namespace Ledger

def perform : LedgerRequest → Ledger → LedgerAnswer × Ledger
  | .take id, l => (.taken (l.take id).1, (l.take id).2)
  | .giveBack id, l => (.givenBack (l.giveBack id).1, (l.giveBack id).2)

/-- The application holds the buffers of `s`, all of them buffers of the group, and the counter is
their number. -/
structure Counts (l : Ledger) (s : HeldSet) : Prop where
  group : l.group = s.group
  entries : l.entries = s.entries
  below : ∀ id ∈ s.ids, id.toNat < s.entries
  holder? : ∀ id, l.holder? id = s.holder? id
  held : l.held = s.ids.card

variable {l : Ledger} {s : HeldSet} {id : UInt16}

theorem counts_new (group : UInt16) (entries : Nat) :
    Counts (new group entries) (HeldSet.new group entries) where
  group := rfl
  entries := Array.size_replicate
  below _ h := absurd h (Finset.notMem_empty _)
  holder? := holder?_new group entries
  held := rfl

namespace Counts

theorem holder?_eq_kernel_iff (h : Counts l s) :
    l.holder? id = some .kernel ↔ id.toNat < s.entries ∧ id ∉ s.ids := by
  rw [h.holder?, HeldSet.holder?]
  split
  next lt => by_cases held : id ∈ s.ids <;> simp [lt, held]
  next beyond => simp [beyond]

theorem holder?_eq_app_iff (h : Counts l s) : l.holder? id = some .app ↔ id ∈ s.ids := by
  rw [h.holder?, HeldSet.holder?]
  split
  next => by_cases held : id ∈ s.ids <;> simp [held]
  next beyond => simpa using fun held => beyond (h.below id held)

/-- Numbers tell buffers apart, so no more are held than there are. -/
theorem held_le (h : Counts l s) : l.held ≤ l.entries := by
  rw [h.held, h.entries]
  calc s.ids.card ≤ (Finset.range s.entries).card := by
        refine Finset.card_le_card_of_injOn UInt16.toNat (fun id hid => ?_)
          fun _ _ _ _ e => UInt16.toNat_inj.mp e
        exact Finset.mem_coe.mpr (Finset.mem_range.mpr (h.below id hid))
    _ = s.entries := Finset.card_range _

theorem kernel_add_held (h : Counts l s) : l.kernel + l.held = s.entries := by
  rw [kernel, Nat.sub_add_cancel h.held_le, h.entries]

/-! ## Requests -/

/-- To ask in vain changes nothing. -/
theorem take_in_vain (h : Counts l s) (free : ¬(id.toNat < s.entries ∧ id ∉ s.ids)) :
    l.take id = (.error (.bufferNotInKernel s.group id), l) := by
  rw [take_eq_error (mt h.holder?_eq_kernel_iff.mp free), h.group]

theorem giveBack_in_vain (h : Counts l s) (held : id ∉ s.ids) : l.giveBack id = (false, l) :=
  giveBack_eq_false (mt h.holder?_eq_app_iff.mp held)

theorem take (h : Counts l s) (id : UInt16) :
    (l.take id).1 = (s.take id).1 ∧ Counts (l.take id).2 (s.take id).2 := by
  by_cases free : id.toNat < s.entries ∧ id ∉ s.ids
  · obtain ⟨ok, size, held, holders⟩ := take_of_kernel (h.holder?_eq_kernel_iff.mpr free)
    have more : s.take id = _ := if_pos free
    rw [more]
    refine ⟨ok, (group_take l id).trans h.group, size.trans h.entries, ?_, fun j => ?_, ?_⟩
    · exact Finset.forall_mem_insert _ _ _ |>.mpr ⟨free.1, h.below⟩
    · rw [holders j, h.holder? j, HeldSet.holder?, HeldSet.holder?]
      split
      next e => simp [e, free.1]
      next e => simp [e]
    · rw [held, h.held, Finset.card_insert_of_notMem free.2]
  · have same : s.take id = _ := if_neg free
    rw [h.take_in_vain free, same]
    exact ⟨rfl, h⟩

theorem giveBack (h : Counts l s) (id : UInt16) :
    (l.giveBack id).1 = (s.giveBack id).1 ∧ Counts (l.giveBack id).2 (s.giveBack id).2 := by
  by_cases held : id ∈ s.ids
  · obtain ⟨ok, size, count, holders⟩ := giveBack_of_app (h.holder?_eq_app_iff.mpr held)
    have fewer : s.giveBack id = _ := if_pos held
    rw [fewer]
    refine ⟨ok, (group_giveBack l id).trans h.group, size.trans h.entries, ?_, fun j => ?_, ?_⟩
    · exact fun j hj => h.below j (Finset.mem_of_mem_erase hj)
    · rw [holders j, h.holder? j, HeldSet.holder?, HeldSet.holder?]
      split
      next e => simp [e, h.below id held]
      next e => simp [e]
    · rw [count, h.held, Finset.card_erase_of_mem held]
  · have same : s.giveBack id = _ := if_neg held
    rw [h.giveBack_in_vain held, same]
    exact ⟨rfl, h⟩

theorem take_eq_ok_iff (h : Counts l s) :
    (l.take id).1 = .ok () ↔ id.toNat < s.entries ∧ id ∉ s.ids := by
  rw [(h.take id).1, HeldSet.take]
  split
  next free => simp [free]
  next busy => simp [busy]

theorem giveBack_eq_true_iff (h : Counts l s) : (l.giveBack id).1 = true ↔ id ∈ s.ids := by
  rw [(h.giveBack id).1, HeldSet.giveBack]
  split
  next held => simp [held]
  next other => simp [other]

/-- A buffer that is given back was counted. -/
theorem held_giveBack (h : Counts l s) (held : id ∈ s.ids) :
    (l.giveBack id).2.held + 1 = l.held := by
  have positive := Finset.card_pos.mpr ⟨id, held⟩
  rw [(giveBack_of_app (h.holder?_eq_app_iff.mpr held)).2.2.1, h.held]
  omega

theorem perform (h : Counts l s) : ∀ request : LedgerRequest,
    (perform request l).1 = (HeldSet.perform request s).1 ∧
      Counts (perform request l).2 (HeldSet.perform request s).2
  | .take id => ⟨congrArg LedgerAnswer.taken (h.take id).1, (h.take id).2⟩
  | .giveBack id => ⟨congrArg LedgerAnswer.givenBack (h.giveBack id).1, (h.giveBack id).2⟩

end Counts

theorem counts_serve (group : UInt16) (entries : Nat) (requests : List LedgerRequest) :
    let run := serve perform requests (new group entries)
    let sets := serve HeldSet.perform requests (HeldSet.new group entries)
    run.1 = sets.1 ∧ Counts run.2 sets.2 ∧ sets.2.group = group ∧ sets.2.entries = entries := by
  intro run sets
  obtain ⟨answers, counts⟩ := serve_alike (R := Counts) (fun h r => h.perform r) requests
    (counts_new group entries)
  refine ⟨answers, counts, ?_⟩
  refine serve_keeps (P := fun s : HeldSet => s.group = group ∧ s.entries = entries)
    (fun r s hs => ?_) requests ⟨rfl, rfl⟩
  obtain ⟨sameGroup, sameEntries⟩ := s.perform_group r
  exact ⟨sameGroup.trans hs.1, sameEntries.trans hs.2⟩

/-- A ledger answers as the set of held buffers does, whatever is asked. After any requests this set
has buffers of the group only; what is held, or is no buffer of the group, cannot be taken, what is
not held cannot be given back, and to ask for it changes nothing; who has a buffer can be read off
the set. The counter is the size of the set, which is at most the number of buffers and not zero
when a buffer is given back, so neither of the differences that a ledger computes is cut off. -/
theorem ledger_is_held_set (group : UInt16) (entries : Nat) (requests : List LedgerRequest) :
    let run := serve perform requests (new group entries)
    let sets := serve HeldSet.perform requests (HeldSet.new group entries)
    let l := run.2
    let held := sets.2.ids
    run.1 = sets.1 ∧ (∀ id ∈ held, id.toNat < entries) ∧
      (∀ id, (l.take id).1 = .ok () ↔ id.toNat < entries ∧ id ∉ held) ∧
      (∀ id, (l.take id).1 ≠ .ok () → l.take id = (.error (.bufferNotInKernel group id), l)) ∧
      (∀ id, (l.giveBack id).1 = true ↔ id ∈ held) ∧
      (∀ id, (l.giveBack id).1 = false → (l.giveBack id).2 = l) ∧
      (∀ id, l.holder? id =
        if id.toNat < entries then some (if id ∈ held then .app else .kernel) else none) ∧
      l.held = held.card ∧ l.kernel + l.held = entries ∧ l.held ≤ l.entries ∧
      ∀ id, (l.giveBack id).1 = true → (l.giveBack id).2.held + 1 = l.held := by
  intro run sets l held
  obtain ⟨answers, counts, sameGroup, sameEntries⟩ := counts_serve group entries requests
  change sets.2.group = group at sameGroup
  change sets.2.entries = entries at sameEntries
  change Counts l sets.2 at counts
  have below := counts.below
  have holders := counts.holder?
  have total := counts.kernel_add_held
  have takes (id : UInt16) : (l.take id).1 = .ok () ↔ id.toNat < sets.2.entries ∧ id ∉ held :=
    counts.take_eq_ok_iff
  rw [sameEntries] at total
  simp only [HeldSet.holder?, sameEntries] at below holders takes
  refine ⟨answers, below, takes, fun id busy => ?_, fun id => counts.giveBack_eq_true_iff,
    fun id other => ?_, holders, counts.held, total, counts.held_le, fun id back => ?_⟩
  · have vain := counts.take_in_vain (mt counts.take_eq_ok_iff.mpr busy)
    rwa [sameGroup] at vain
  · have unheld : id ∉ sets.2.ids := by
      rw [← counts.giveBack_eq_true_iff, other]
      exact nofun
    rw [counts.giveBack_in_vain unheld]
  · exact counts.held_giveBack (counts.giveBack_eq_true_iff.mp back)

/-- Of two buffers the first is taken, given back and taken again, the second taken twice. A third
one does not exist. -/
theorem ledger_is_held_set_with_strangers :
    let requests := [.take 0, .take 1, .take 1, .take 2, .giveBack 0, .giveBack 0, .giveBack 2,
      .take 0, .giveBack 1]
    let run := serve perform requests (new 7 2)
    run.1 = [.taken (.ok ()), .taken (.ok ()), .taken (.error (.bufferNotInKernel 7 1)),
      .taken (.error (.bufferNotInKernel 7 2)), .givenBack true, .givenBack false,
      .givenBack false, .taken (.ok ()), .givenBack true] ∧
    run.2.take 0 = (.error (.bufferNotInKernel 7 0), run.2) ∧ (run.2.giveBack 1).2 = run.2 ∧
    (run.2.take 1).1 = .ok () ∧ (run.2.giveBack 0).2.held + 1 = run.2.held ∧
    run.2.kernel + run.2.held = 2 := by
  intro requests run
  obtain ⟨answers, -, takes, vain, backs, still, -, -, total, -, counted⟩ :=
    ledger_is_held_set 7 2 requests
  refine ⟨answers.trans (by decide), vain 0 (mt (takes 0).mp (by decide)), still 1 (by decide),
    (takes 1).mpr (by decide), counted 0 ((backs 0).mpr (by decide)), total⟩

end Ledger

end RingServer
