import RingServer.BufferQueue
import RingServer.Proofs.BufferRing.Window

/-!
Buffer groups between dispatches: the kernel has every buffer (`BufferSource.AtRest`), in the group
or picked for a completion still to come, so that every buffer that it may name can be taken. A
group is at rest again once a buffer that was taken has been given back, and whatever the kernel
does with its buffers meanwhile (`LawfulBuffers`). A buffer is read as the kernel left it, and what
the application does changes no contents (`ReadableBuffers`). Both hold of both kinds of group.
-/

namespace RingServer

open Text (Bytes)

namespace BufferSource

variable {ρ : Type} [BufferSource ρ]

/-- The groups have the same buffers with the same contents. -/
structure SameContents (r s : ρ) : Prop where
  group : group s = group r
  entries : entries s = entries r
  entrySize : entrySize s = entrySize r
  data : ∀ b, data s b = data r b

theorem SameContents.refl (r : ρ) : SameContents r r := ⟨rfl, rfl, rfl, fun _ => rfl⟩

theorem SameContents.symm {r s : ρ} (h : SameContents r s) : SameContents s r :=
  ⟨h.group.symm, h.entries.symm, h.entrySize.symm, fun b => (h.data b).symm⟩

theorem SameContents.trans {r s t : ρ} (h : SameContents r s) (h' : SameContents s t) :
    SameContents r t where
  group := h'.group.trans h.group
  entries := h'.entries.trans h.entries
  entrySize := h'.entrySize.trans h.entrySize
  data b := (h'.data b).trans (h.data b)

/-- Every buffer can be taken. -/
def AtRest (r : ρ) : Prop :=
  ∀ id length, id.toNat < entries r → ∃ b, (take id length r).1 = .ok b

end BufferSource

namespace KernelSide

variable {ρ : Type} [KernelSide ρ]

/-- What the kernel may do with a group. -/
inductive Works (r : ρ) : ρ → Prop
  | rest : Works r r
  | select {s t : ρ} {id : UInt16} : Works r s → select s = some (id, t) → Works r t
  | fill {s : ρ} (id : UInt16) (bytes : Bytes) : Works r s → Works r (fill id bytes s)

end KernelSide

open BufferSource KernelSide

/-- A group stays at rest while the kernel works on it, and comes to rest when what was taken is
given back. -/
class LawfulBuffers (ρ : Type) [BufferSource ρ] [KernelSide ρ] : Prop where
  recycle : ∀ {r s : ρ} {id : UInt16} {length : Nat} {b : ReceivedBuffer}, AtRest r →
    take id length r = (.ok b, s) → AtRest (recycle b s)
  select : ∀ {r s : ρ} {id : UInt16}, AtRest r → select r = some (id, s) → AtRest s
  fill : ∀ {r : ρ} (id : UInt16) (bytes : Bytes), AtRest r → AtRest (fill id bytes r)

/-- What is received into a buffer can be read from it, up to its size, and neither taking a buffer
nor giving it back changes any contents. -/
class ReadableBuffers (ρ : Type) [BufferSource ρ] : Prop where
  take : ∀ {r s : ρ} {id : UInt16} {length : Nat} {b : ReceivedBuffer},
    take id length r = (.ok b, s) →
      b = ⟨group r, id, min length (entrySize r)⟩ ∧ SameContents r s
  refused : ∀ {r s : ρ} {id : UInt16} {length : Nat} {e : Fault},
    BufferSource.take id length r = (.error e, s) → s = r
  recycle : ∀ {r s : ρ} {id : UInt16} {length : Nat} {b : ReceivedBuffer},
    id.toNat < entries r → BufferSource.take id length r = (.ok b, s) →
      SameContents r (recycle b s)
  group_recycle : ∀ (b : ReceivedBuffer) (r : ρ), group (BufferSource.recycle b r) = group r

theorem LawfulBuffers.works {ρ : Type} [BufferSource ρ] [KernelSide ρ] [LawfulBuffers ρ] {r s : ρ}
    (h : AtRest r) (hw : Works r s) : AtRest s := by
  induction hw with
  | rest => exact h
  | select _ hs ih => exact LawfulBuffers.select ih hs
  | fill id bytes _ ih => exact LawfulBuffers.fill id bytes ih

namespace Ledger

theorem app_of_take {l : Ledger} {id : UInt16} (h : l.holder? id = some .kernel) :
    (l.take id).2.holder? id = some .app := by
  rw [(take_of_kernel h).2.2.2, if_pos rfl]

theorem kernel_of_take {l : Ledger} {id : UInt16} {f : Unit → ReceivedBuffer}
    {b : ReceivedBuffer} (h : (l.take id).1.map f = .ok b) : l.holder? id = some .kernel := by
  obtain ⟨group, holder, held⟩ := l
  unfold take at h
  simp only [] at h
  split at h
  next e => exact e
  next => cases h

end Ledger

/-! ## Plain queues -/

namespace BufferQueue

variable {q : BufferQueue} {id : UInt16}

theorem take_of_kernel (length : Nat) (h : q.ledger.holder? id = some .kernel) :
    q.take id length = (.ok ⟨q.ledger.group, id, min length q.entrySize⟩,
      { q with ledger := (q.ledger.take id).2 }) := by
  have taken := (Ledger.take_of_kernel h).1
  unfold take
  rcases he : q.ledger.take id with ⟨x, ledger⟩
  rw [he] at taken
  cases taken
  rfl

theorem take_eq_error (length : Nat) (h : q.ledger.holder? id ≠ some .kernel) :
    q.take id length = (.error (.bufferNotInKernel q.ledger.group id), q) := by
  rw [take, Ledger.take_eq_error h]
  rfl

theorem recycle_of_app {b : ReceivedBuffer} (h : q.ledger.holder? b.id = some .app) :
    q.recycle b = { q with
      ledger := (q.ledger.giveBack b.id).2, waiting := q.waiting ++ [b.id] } := by
  have back := (Ledger.giveBack_of_app h).1
  unfold recycle
  rcases he : q.ledger.giveBack b.id with ⟨x, ledger⟩
  rw [he] at back
  cases back
  rfl

theorem take_eq_ok {s : BufferQueue} {length : Nat} {b : ReceivedBuffer}
    (h : q.take id length = (.ok b, s)) : q.ledger.holder? id = some .kernel ∧
      b = ⟨q.ledger.group, id, min length q.entrySize⟩ ∧
      s = { q with ledger := (q.ledger.take id).2 } := by
  have held := Ledger.kernel_of_take (congrArg Prod.fst h)
  rw [take_of_kernel length held] at h
  cases h
  exact ⟨held, rfl, rfl⟩

/-- A buffer that is taken and given back waits behind the others, and nothing else has changed. -/
theorem recycle_take {s : BufferQueue} {length : Nat} {b : ReceivedBuffer}
    (h : q.take id length = (.ok b, s)) : s.recycle b = { q with waiting := q.waiting ++ [id] } := by
  obtain ⟨held, rfl, rfl⟩ := take_eq_ok h
  have taken := Ledger.app_of_take held
  rw [recycle_of_app taken, Ledger.giveBack_take held]

/-- The kernel has every buffer. -/
theorem atRest_iff : AtRest q ↔ ∀ id, id.toNat < q.ledger.entries →
    q.ledger.holder? id = some .kernel := by
  constructor
  · intro h id hid
    obtain ⟨b, hb⟩ := h id 0 hid
    exact Ledger.kernel_of_take hb
  · intro h id length hid
    exact ⟨_, congrArg Prod.fst (take_of_kernel length (h id hid))⟩

theorem atRest_new (group entries : UInt16) (entrySize : Nat) :
    AtRest (BufferQueue.new group entries entrySize) := by
  rw [atRest_iff]
  intro id hid
  change id.toNat < (Ledger.new group entries.toNat).holder.size at hid
  rw [Ledger.new, Array.size_replicate] at hid
  show (Ledger.new group entries.toNat).holder? id = _
  rw [Ledger.holder?_new, if_pos hid]

end BufferQueue

instance : LawfulBuffers BufferQueue where
  recycle := by
    intro q s id length b h ht
    show AtRest (BufferQueue.recycle b s)
    rw [BufferQueue.recycle_take ht, BufferQueue.atRest_iff]
    exact BufferQueue.atRest_iff.mp h
  select := by
    intro q s id h hs
    change q.select = some (id, s) at hs
    unfold BufferQueue.select at hs
    split at hs
    · cases hs
    · cases hs
      exact h
  fill _ _ h := h

instance : ReadableBuffers BufferQueue where
  take := by
    intro q s id length b h
    obtain ⟨held, rfl, rfl⟩ := BufferQueue.take_eq_ok h
    exact ⟨rfl, Ledger.group_take _ _, (Ledger.take_of_kernel held).2.1, rfl, fun _ => rfl⟩
  refused := by
    intro q s id length e h
    change q.take id length = (.error e, s) at h
    by_cases hk : q.ledger.holder? id = some .kernel
    · rw [BufferQueue.take_of_kernel length hk] at h
      cases h
    · rw [BufferQueue.take_eq_error length hk] at h
      cases h
      rfl
  recycle := by
    intro q s id length b _ h
    show SameContents q (BufferQueue.recycle b s)
    rw [BufferQueue.recycle_take h]
    exact ⟨rfl, rfl, rfl, fun _ => rfl⟩
  group_recycle := by
    intro b q
    have kept := Ledger.group_giveBack q.ledger b.id
    show (BufferQueue.recycle b q).ledger.group = q.ledger.group
    unfold BufferQueue.recycle
    rcases he : q.ledger.giveBack b.id with ⟨_ | _, ledger⟩
    · rfl
    · rw [he] at kept
      exact kept

/-! ## Shared rings -/

namespace SharedRing

variable {s : SharedRing} {id : UInt16}

theorem take_eq_error (length : Nat) (h : s.ring.ledger.holder? id ≠ some .kernel) :
    BufferSource.take id length s =
      (.error (.bufferNotInKernel s.ring.ledger.group id), s) := by
  obtain ⟨⟨params, memory, tail, ledger⟩, head⟩ := s
  simp only [BufferSource.take, BufferRing.take, Ledger.take_eq_error h]
  rfl

theorem take_eq_ok {t : SharedRing} {length : Nat} {b : ReceivedBuffer}
    (h : BufferSource.take id length s = (.ok b, t)) : s.ring.ledger.holder? id = some .kernel ∧
      b = ⟨s.ring.params.group, id, min length s.ring.params.entrySize.toNat⟩ ∧
      t = ⟨{ s.ring with ledger := (s.ring.ledger.take id).2 }, s.head⟩ := by
  have held := Ledger.kernel_of_take (congrArg Prod.fst h)
  rw [take_of_kernel length held] at h
  cases h
  exact ⟨held, rfl, rfl⟩

/-- A buffer that is taken and given back has a new entry, and nothing else has changed. -/
theorem recycle_take {t : SharedRing} {length : Nat} {b : ReceivedBuffer}
    (h : BufferSource.take id length s = (.ok b, t)) :
    BufferSource.recycle b t = ⟨(s.ring.append id).publish, s.head⟩ := by
  obtain ⟨held, rfl, rfl⟩ := take_eq_ok h
  have taken := Ledger.app_of_take held
  show SharedRing.mk (BufferRing.recycle _ _) _ = _
  rw [BufferRing.recycle_of_app taken, Ledger.giveBack_take held]

/-- The kernel has every buffer. -/
theorem atRest_iff : AtRest s ↔ ∀ id, id.toNat < s.ring.params.entries.toNat →
    s.ring.ledger.holder? id = some .kernel := by
  constructor
  · intro h id hid
    obtain ⟨b, hb⟩ := h id 0 hid
    exact Ledger.kernel_of_take hb
  · intro h id length hid
    exact ⟨_, congrArg Prod.fst (take_of_kernel length (h id hid))⟩

theorem atRest_new {granted : Nat} {p : RingParams} (h : new granted p = .ok s) : AtRest s := by
  obtain ⟨hv, hg⟩ := SharedRing.of_new h
  obtain ⟨hp, -, -⟩ := RingParams.of_validate hv
  rw [new, BufferRing.new_eq_ok hv hg] at h
  cases h
  obtain ⟨params, ledger, -, -⟩ := BufferRing.written_spec hp (Nat.le_refl _)
  rw [atRest_iff]
  intro id hid
  change id.toNat < (BufferRing.written p p.entries.toNat).params.entries.toNat at hid
  show (BufferRing.written p p.entries.toNat).ledger.holder? id = _
  rw [params] at hid
  rw [ledger, Ledger.holder?_new, if_pos hid]

end SharedRing

instance : LawfulBuffers SharedRing where
  recycle := by
    intro r s id length b h ht
    rw [SharedRing.recycle_take ht, SharedRing.atRest_iff]
    exact SharedRing.atRest_iff.mp h
  select := by
    intro r s id h hs
    obtain ⟨-, -, rfl⟩ := SharedRing.of_select hs
    exact h
  fill _ _ h := h

instance : ReadableBuffers SharedRing where
  take := by
    intro r s id length b h
    obtain ⟨-, rfl, rfl⟩ := SharedRing.take_eq_ok h
    exact ⟨rfl, rfl, rfl, rfl, fun _ => rfl⟩
  refused := by
    intro r s id length e h
    by_cases hk : r.ring.ledger.holder? id = some .kernel
    · rw [SharedRing.take_of_kernel length hk] at h
      cases h
    · rw [SharedRing.take_eq_error length hk] at h
      cases h
      rfl
  recycle := by
    intro r s id length b hid h
    rw [SharedRing.recycle_take h]
    have some_entry : 0 < r.ring.params.entries.toNat := Nat.zero_lt_of_lt hid
    refine ⟨rfl, rfl, rfl, fun b => ?_⟩
    have shown := BufferRing.data_publish (r := r.ring.append id) some_entry b
    exact shown.trans (BufferRing.data_append some_entry id b)
  group_recycle := by
    rintro b ⟨⟨params, memory, tail, ledger⟩, head⟩
    show (BufferRing.recycle b _).params.group = params.group
    simp only [BufferRing.recycle]
    split <;> rfl

end RingServer
