import RingServer.Ledger
import RingServer.Proofs.FreeList

/-!
The ledger of a buffer group seen through `holder?`: taking a buffer and giving it back change the
holder of that buffer, and of no other, and the counter follows.
-/

namespace RingServer.Ledger

variable {l : Ledger} {id : UInt16}

theorem holder?_new (group : UInt16) (n : Nat) (id : UInt16) :
    (new group n).holder? id = if id.toNat < n then some .kernel else none := by
  rw [holder?, new, Array.getElem?_replicate]

theorem lt_size_of_holder? {x : Holder} (h : l.holder? id = some x) : id.toNat < l.holder.size :=
  (Array.getElem?_eq_some_iff.mp h).1

theorem take_of_kernel (h : l.holder? id = some .kernel) :
    (l.take id).1 = .ok () ∧ (l.take id).2.entries = l.entries ∧
      (l.take id).2.held = l.held + 1 ∧
      ∀ j, (l.take id).2.holder? j = if j = id then some .app else l.holder? j := by
  have hlt := lt_size_of_holder? h
  obtain ⟨group, holder, held⟩ := l
  have e : take id ⟨group, holder, held⟩ =
      (.ok (), ⟨group, holder.setIfInBounds id.toNat .app, held + 1⟩) := by
    rw [take]
    rw [holder?] at h
    rw [h]
  rw [e]
  exact ⟨rfl, Array.size_setIfInBounds, rfl, FreeList.getElem?_setIfInBounds_toNat hlt⟩

/-- What the kernel does not have cannot be taken. -/
theorem take_eq_error (h : l.holder? id ≠ some .kernel) :
    l.take id = (.error (.bufferNotInKernel l.group id), l) := by
  obtain ⟨group, holder, held⟩ := l
  simp only [take]
  split
  next e => exact absurd e h
  next => rfl

theorem group_take (l : Ledger) (id : UInt16) : (l.take id).2.group = l.group := by
  obtain ⟨group, holder, held⟩ := l
  simp only [take]
  split <;> rfl

theorem group_giveBack (l : Ledger) (id : UInt16) : (l.giveBack id).2.group = l.group := by
  obtain ⟨group, holder, held⟩ := l
  simp only [giveBack]
  split <;> rfl

theorem giveBack_of_app (h : l.holder? id = some .app) :
    (l.giveBack id).1 = true ∧ (l.giveBack id).2.entries = l.entries ∧
      (l.giveBack id).2.held = l.held - 1 ∧
      ∀ j, (l.giveBack id).2.holder? j = if j = id then some .kernel else l.holder? j := by
  have hlt := lt_size_of_holder? h
  obtain ⟨group, holder, held⟩ := l
  have e : giveBack id ⟨group, holder, held⟩ =
      (true, ⟨group, holder.setIfInBounds id.toNat .kernel, held - 1⟩) := by
    rw [giveBack]
    rw [holder?] at h
    rw [h]
  rw [e]
  exact ⟨rfl, Array.size_setIfInBounds, rfl, FreeList.getElem?_setIfInBounds_toNat hlt⟩

/-- What the application does not have cannot be given back. -/
theorem giveBack_eq_false (h : l.holder? id ≠ some .app) : l.giveBack id = (false, l) := by
  obtain ⟨group, holder, held⟩ := l
  simp only [giveBack]
  split
  next e => exact absurd e h
  next => rfl

/-- What is taken and given back leaves no trace. -/
theorem giveBack_take (h : l.holder? id = some .kernel) :
    (l.take id).2.giveBack id = (true, l) := by
  have hlt := lt_size_of_holder? h
  obtain ⟨group, holder, held⟩ := l
  change holder[id.toNat]? = some .kernel at h
  change id.toNat < holder.size at hlt
  have e : take id ⟨group, holder, held⟩ =
      (.ok (), ⟨group, holder.setIfInBounds id.toNat .app, held + 1⟩) := by rw [take, h]
  have back : (holder.setIfInBounds id.toNat .app).setIfInBounds id.toNat .kernel = holder := by
    rw [Array.setIfInBounds_setIfInBounds]
    apply Array.ext_getElem?
    intro i
    by_cases hi : id.toNat = i
    · rw [← hi, Array.getElem?_setIfInBounds_self_of_lt hlt, h]
    · rw [Array.getElem?_setIfInBounds_ne hi]
  rw [e]
  simp only [giveBack, Array.getElem?_setIfInBounds_self_of_lt hlt, back, Nat.add_sub_cancel]

end RingServer.Ledger
