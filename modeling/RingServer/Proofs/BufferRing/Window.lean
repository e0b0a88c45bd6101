import RingServer.Proofs.BufferRing.Layout
import RingServer.Proofs.Ledger

/-!
Buffers travel around a shared ring: the kernel selects one at its head, the application takes it
and later gives it back at the tail. A `Circuit` is a ring with the buffers that are under way, and
`Sound c waiting` says that the entries between head and tail are those of `waiting`. Positions are
counted without end there; what makes their 16 bits and the mask harmless is that no more buffers
wait than the ring has entries, and fewer while one of them is held (`Sound.length_lt`).
-/

namespace RingServer

open Text (Bytes)

namespace BufferRing

variable {r : BufferRing}

/-- Positions less than a turn apart are in different slots. -/
theorem mod_ne {n t m : Nat} (h : n < t) (ht : t < n + m) : n % m ≠ t % m := by
  intro e
  have turn : (t - n) % m = 0 := Nat.sub_mod_eq_zero_of_mod_eq e.symm
  rw [Nat.mod_eq_of_lt (by omega)] at turn
  omega

theorem take_of_kernel {id : UInt16} (h : r.ledger.holder? id = some .kernel) (length : Nat) :
    r.take id length = (.ok ⟨r.params.group, id, min length r.params.entrySize.toNat⟩,
      { r with ledger := (r.ledger.take id).2 }) := by
  obtain ⟨p, memory, tail, ledger⟩ := r
  have out : ledger.take id = (.ok (), (ledger.take id).2) :=
    Prod.ext (Ledger.take_of_kernel h).1 rfl
  rw [take, out]
  rfl

theorem recycle_of_app {b : ReceivedBuffer} (h : r.ledger.holder? b.id = some .app) :
    r.recycle b =
      (append b.id { r with ledger := (r.ledger.giveBack b.id).2 }).publish := by
  obtain ⟨p, memory, tail, ledger⟩ := r
  have back : ledger.giveBack b.id = (true, (ledger.giveBack b.id).2) :=
    Prod.ext (Ledger.giveBack_of_app h).1 rfl
  rw [recycle, back]

/-- A buffer that comes back gets the slot at the tail, and no other slot changes. -/
theorem recycle_spec {b : ReceivedBuffer} {t : Nat} (hp : r.params.entries.toNat.isPowerOfTwo)
    (ht : r.tail = UInt16.ofNat t) (h : r.ledger.holder? b.id = some .app) :
    (r.recycle b).params = r.params ∧ (r.recycle b).ledger = (r.ledger.giveBack b.id).2 ∧
      (r.recycle b).tail = UInt16.ofNat (t + 1) ∧
      (r.recycle b).publishedTail = UInt16.ofNat (t + 1) ∧
      (r.recycle b).entry (UInt16.ofNat t) = entryFor r.params b.id ∧
      ∀ n, n % r.params.entries.toNat ≠ t % r.params.entries.toNat →
        (r.recycle b).entry (UInt16.ofNat n) = r.entry (UInt16.ofNat n) := by
  have next : r.tail + 1 = UInt16.ofNat (t + 1) := by simp [ht]
  rw [recycle_of_app h]
  refine ⟨rfl, rfl, next, ?_, ?_, fun n hn => ?_⟩
  · rw [publishedTail_publish, tail_append]
    exact next
  · rw [entry_publish, ← ht]
    exact entry_append_self (bufferAddress_lt _ _)
  · rw [entry_publish]
    exact entry_append_of_ne (r := { r with ledger := (r.ledger.giveBack b.id).2 }) hp ht hn

end BufferRing

namespace SharedRing

open BufferRing

/-- The entries that the kernel has yet to consume, the one at its head first. -/
def window (s : SharedRing) : List RingEntry :=
  (List.range (s.ring.publishedTail - s.head).toNat).map fun k =>
    s.ring.entry (s.head + UInt16.ofNat k)

theorem of_new {granted : Nat} {p : RingParams} {s : SharedRing} (h : new granted p = .ok s) :
    p.validate = .ok () ∧ regionSize p ≤ granted := by
  rw [new] at h
  cases hr : BufferRing.new granted p with
  | error e =>
    rw [hr] at h
    cases h
  | ok ring => exact BufferRing.of_new hr

theorem of_select {s t : SharedRing} {id : UInt16} (h : s.select = some (id, t)) :
    s.head ≠ s.ring.publishedTail ∧ (s.ring.entry s.head).id = id ∧ t = ⟨s.ring, s.head + 1⟩ := by
  obtain ⟨ring, head⟩ := s
  rw [select] at h
  split at h
  · cases h
  next ne =>
    cases h
    exact ⟨ne, rfl, rfl⟩

theorem take_of_kernel {s : SharedRing} {id : UInt16} (length : Nat)
    (h : s.ring.ledger.holder? id = some .kernel) : BufferSource.take id length s =
      (.ok ⟨s.ring.params.group, id, min length s.ring.params.entrySize.toNat⟩,
        ⟨{ s.ring with ledger := (s.ring.ledger.take id).2 }, s.head⟩) := by
  obtain ⟨ring, head⟩ := s
  simp only [BufferSource.take, BufferRing.take_of_kernel h]

/-- The buffers of a ring in order. -/
def buffers (p : RingParams) : List UInt16 := (List.range p.entries.toNat).map UInt16.ofNat

/-- A ring with the buffers that have left it and those that have come back. -/
structure Circuit where
  ring : SharedRing
  /-- All buffers that the kernel selected, in order. -/
  selected : List UInt16
  /-- Buffers selected and not taken yet. -/
  picked : List UInt16
  /-- Buffers with the application. -/
  held : List ReceivedBuffer
  /-- All buffers that the application gave back, in order. -/
  recycled : List UInt16

namespace Circuit

/-- What the kernel and the application do with a ring. -/
inductive Step (c : Circuit) : Circuit → Prop
  | select {id : UInt16} {ring : SharedRing} (h : c.ring.select = some (id, ring)) :
    Step c ⟨ring, c.selected ++ [id], c.picked ++ [id], c.held, c.recycled⟩
  | fill {id : UInt16} (h : id ∈ c.picked) (bytes : Bytes) :
    Step c ⟨KernelSide.fill id bytes c.ring, c.selected, c.picked, c.held, c.recycled⟩
  | take {id : UInt16} {length : Nat} {b : ReceivedBuffer} {ring : SharedRing} (h : id ∈ c.picked)
    (ht : BufferSource.take id length c.ring = (.ok b, ring)) :
    Step c ⟨ring, c.selected, c.picked.erase id, c.held ++ [b], c.recycled⟩
  | recycle {b : ReceivedBuffer} (h : b ∈ c.held) :
    Step c ⟨BufferSource.recycle b c.ring, c.selected, c.picked, c.held.erase b,
      c.recycled ++ [b.id]⟩

/-- What can become of a new ring. -/
inductive Reached (granted : Nat) (p : RingParams) : Circuit → Prop
  | start {ring : SharedRing} (h : SharedRing.new granted p = .ok ring) :
    Reached granted p ⟨ring, [], [], [], []⟩
  | step {c d : Circuit} (h : Reached granted p c) (hs : Step c d) : Reached granted p d

/-- The buffers of `waiting` are between the head and the tail of the ring, and all others on their
way from the head to the tail. -/
structure Sound (p : RingParams) (c : Circuit) (waiting : List UInt16) : Prop where
  params : c.ring.ring.params = p
  head : c.ring.head = UInt16.ofNat c.selected.length
  tail : c.ring.ring.tail = UInt16.ofNat (c.selected.length + waiting.length)
  publishedTail : c.ring.ring.publishedTail = UInt16.ofNat (c.selected.length + waiting.length)
  entry : ∀ k id, waiting[k]? = some id →
    c.ring.ring.entry (UInt16.ofNat (c.selected.length + k)) = entryFor p id
  order : buffers p ++ c.recycled = c.selected ++ waiting
  share : (waiting ++ c.picked ++ c.held.map (·.id)).Perm (buffers p)
  holder? : ∀ id, c.ring.ring.ledger.holder? id = if id.toNat < p.entries.toNat then
    some (if id ∈ c.held.map (·.id) then .app else .kernel) else none
  entries : c.ring.ring.ledger.entries = p.entries.toNat
  count : c.ring.ring.ledger.held = c.held.length

variable {granted : Nat} {p : RingParams} {c d : Circuit} {waiting : List UInt16}

theorem mem_buffers {id : UInt16} : id ∈ buffers p ↔ id.toNat < p.entries.toNat :=
  FreeList.mem_map_ofNat_range (Nat.le_of_lt p.entries.toNat_lt)

theorem nodup_buffers (p : RingParams) : (buffers p).Nodup := by
  apply FreeList.nodup_map_ofNat List.nodup_range
  intro a ha
  exact Nat.lt_trans (List.mem_range.mp ha) p.entries.toNat_lt

theorem length_buffers (p : RingParams) : (buffers p).length = p.entries.toNat := by
  rw [buffers, List.length_map, List.length_range]

namespace Sound

theorem nodup (h : Sound p c waiting) : (waiting ++ c.picked ++ c.held.map (·.id)).Nodup :=
  h.share.nodup_iff.mpr (nodup_buffers p)

theorem length (h : Sound p c waiting) :
    waiting.length + c.picked.length + c.held.length = p.entries.toNat := by
  have lengths := h.share.length_eq
  rwa [List.length_append, List.length_append, List.length_map, length_buffers] at lengths

/-- A held buffer leaves a free slot. -/
theorem length_lt (h : Sound p c waiting) {b : ReceivedBuffer} (hb : b ∈ c.held) :
    waiting.length < p.entries.toNat := by
  have some := List.length_pos_of_mem hb
  have all := h.length
  omega

theorem lt_entries (h : Sound p c waiting) {id : UInt16}
    (hid : id ∈ waiting ++ c.picked ++ c.held.map (·.id)) : id.toNat < p.entries.toNat :=
  mem_buffers.mp (h.share.subset hid)

theorem kernel_of_picked (h : Sound p c waiting) {id : UInt16} (hid : id ∈ c.picked) :
    c.ring.ring.ledger.holder? id = some .kernel := by
  have lt := h.lt_entries (List.mem_append_left _ (List.mem_append_right _ hid))
  have unheld : id ∉ c.held.map (·.id) := by
    intro held
    exact (List.nodup_append.mp h.nodup).2.2 id (List.mem_append_right _ hid) id held rfl
  rw [h.holder?, if_pos lt, if_neg unheld]

theorem app_of_held (h : Sound p c waiting) {b : ReceivedBuffer} (hb : b ∈ c.held) :
    c.ring.ring.ledger.holder? b.id = some .app := by
  have held : b.id ∈ c.held.map (·.id) := List.mem_map_of_mem hb
  rw [h.holder?, if_pos (h.lt_entries (List.mem_append_right _ held)), if_pos held]

/-- The difference of the two positions counts the buffers that wait. -/
theorem distance (h : Sound p c waiting) :
    (c.ring.ring.publishedTail - c.ring.head).toNat = waiting.length := by
  have lt : waiting.length < UInt16.size := by
    have all := h.length
    exact Nat.lt_of_le_of_lt (by omega : waiting.length ≤ p.entries.toNat) p.entries.toNat_lt
  rw [h.publishedTail, h.head, UInt16.ofNat_add, UInt16.add_comm, UInt16.add_sub_cancel,
    UInt16.toNat_ofNat_of_lt' lt]

theorem window_eq (h : Sound p c waiting) : c.ring.window = waiting.map (entryFor p) := by
  rw [window, h.distance]
  apply List.ext_getElem
  · simp
  · intro k hk hk'
    rw [List.length_map] at hk'
    rw [List.getElem_map, List.getElem_range, List.getElem_map, h.head, ← UInt16.ofNat_add]
    exact h.entry k waiting[k] (List.getElem?_eq_getElem hk')

/-- The positions agree only when nothing waits: the ring is too small for the tail to be a whole
turn of 2 ^ 16 ahead. -/
theorem head_eq_iff (h : Sound p c waiting) :
    c.ring.head = c.ring.ring.publishedTail ↔ waiting = [] := by
  constructor
  · intro same
    have none := h.distance
    rw [same, UInt16.sub_self] at none
    exact List.length_eq_zero_iff.mp none.symm
  · rintro rfl
    rw [h.head, h.publishedTail]
    rfl

/-- Nothing waits when every buffer is on its way back to the tail. -/
theorem eq_nil_iff (h : Sound p c waiting) : waiting = [] ↔
    ∀ id, id.toNat < p.entries.toNat → id ∈ c.picked ∨ id ∈ c.held.map (·.id) := by
  constructor
  · rintro rfl id lt
    have all := h.share.symm.subset (mem_buffers.mpr lt)
    rwa [List.nil_append, List.mem_append] at all
  · intro away
    cases waiting with
    | nil => rfl
    | cons first rest =>
      have once := h.nodup
      rw [List.cons_append, List.cons_append, List.nodup_cons] at once
      have lt := h.lt_entries (List.mem_append_left _ (List.mem_append_left _ List.mem_cons_self))
      rcases away first lt with picked | held
      · exact absurd (List.mem_append_left _ (List.mem_append_right _ picked)) once.1
      · exact absurd (List.mem_append_right _ held) once.1

/-- What waits or is picked counts as the kernel's. -/
theorem visible (h : Sound p c waiting) :
    BufferSource.visible c.ring = waiting.length + c.picked.length := by
  have all := h.length
  show c.ring.ring.ledger.entries - c.ring.ring.ledger.held = _
  rw [h.entries, h.count]
  omega

/-! ## Steps -/

theorem start {ring : SharedRing} (h : SharedRing.new granted p = .ok ring) :
    Sound p ⟨ring, [], [], [], []⟩ (buffers p) := by
  obtain ⟨hv, hg⟩ := SharedRing.of_new h
  rw [SharedRing.new, BufferRing.new_eq_ok hv hg] at h
  cases h
  obtain ⟨hp, -, -⟩ := RingParams.of_validate hv
  obtain ⟨params, ledger, tail, entries⟩ := written_spec hp (Nat.le_refl _)
  have shown : (written p p.entries.toNat).publish.publishedTail =
      UInt16.ofNat p.entries.toNat := by
    rw [publishedTail_publish, tail]
  have fresh := Ledger.holder?_new p.group p.entries.toNat
  refine ⟨params, rfl, ?_, ?_, ?_, ?_, ?_, ?_, ?_, ?_⟩
  · show (written p p.entries.toNat).tail = UInt16.ofNat (0 + (buffers p).length)
    rw [tail, Nat.zero_add, length_buffers]
  · show _ = UInt16.ofNat (0 + (buffers p).length)
    rw [Nat.zero_add, length_buffers]
    exact shown
  · intro k id hk
    rw [buffers, List.getElem?_map, Option.map_eq_some_iff] at hk
    obtain ⟨n, hn, rfl⟩ := hk
    obtain ⟨hlt, e⟩ := List.getElem?_eq_some_iff.mp hn
    rw [List.getElem_range] at e
    rw [List.length_range] at hlt
    show (written p p.entries.toNat).publish.entry (UInt16.ofNat (0 + k)) = _
    rw [entry_publish, Nat.zero_add, entries k hlt, e]
  · simp
  · simp
  · intro id
    show (written p p.entries.toNat).ledger.holder? id = _
    rw [ledger, fresh]
    simp
  · show (written p p.entries.toNat).ledger.entries = _
    rw [ledger, Ledger.entries, Ledger.new, Array.size_replicate]
  · show (written p p.entries.toNat).ledger.held = _
    rw [ledger]
    rfl

/-- The kernel gets the buffer that has waited longest. -/
theorem select (h : Sound p c waiting) {id : UInt16} {ring : SharedRing}
    (hs : c.ring.select = some (id, ring)) : ∃ rest, waiting = id :: rest ∧
      Sound p ⟨ring, c.selected ++ [id], c.picked ++ [id], c.held, c.recycled⟩ rest := by
  obtain ⟨behind, named, rfl⟩ := of_select hs
  cases waiting with
  | nil => exact absurd (h.head_eq_iff.mpr rfl) behind
  | cons first rest =>
    have top := h.entry 0 first rfl
    rw [Nat.add_zero, ← h.head] at top
    rw [top] at named
    obtain rfl : first = id := named
    have moved : ∀ k, (c.selected ++ [first]).length + k = c.selected.length + (k + 1) := by
      intro k
      rw [List.length_append, List.length_singleton]
      omega
    refine ⟨rest, rfl, h.params, ?_, ?_, ?_, ?_, ?_, ?_, h.holder?, h.entries, h.count⟩
    · show c.ring.head + 1 = _
      rw [h.head, List.length_append, UInt16.ofNat_add]
      rfl
    · rw [moved]
      exact h.tail
    · rw [moved]
      exact h.publishedTail
    · intro k id hk
      rw [moved]
      exact h.entry (k + 1) id hk
    · show buffers p ++ c.recycled = c.selected ++ [first] ++ rest
      rw [h.order, List.append_assoc, List.singleton_append]
    · refine List.Perm.trans ?_ h.share
      have last : (rest ++ c.picked ++ first :: c.held.map (·.id)).Perm
          (first :: (rest ++ c.picked ++ c.held.map (·.id))) := List.perm_middle
      simpa using last

/-- The kernel gets a buffer whenever one waits. -/
theorem head?_eq (h : Sound p c waiting) : c.ring.select.map (·.1) = waiting.head? := by
  cases hs : c.ring.select with
  | none =>
    have same : c.ring.head = c.ring.ring.publishedTail := by
      rw [SharedRing.select] at hs
      split at hs
      next same => exact same
      next => cases hs
    rw [h.head_eq_iff.mp same]
    rfl
  | some x =>
    obtain ⟨rest, rfl, -⟩ := h.select hs
    rfl

theorem fill (h : Sound p c waiting) (hp : p.entries.toNat.isPowerOfTwo) (id : UInt16)
    (bytes : Bytes) :
    Sound p ⟨KernelSide.fill id bytes c.ring, c.selected, c.picked, c.held, c.recycled⟩
      waiting where
  params := h.params
  head := h.head
  tail := h.tail
  publishedTail := by
    have hp' : c.ring.ring.params.entries.toNat.isPowerOfTwo := h.params ▸ hp
    exact (publishedTail_fill hp' id bytes).trans h.publishedTail
  entry k id' hk := by
    have hp' : c.ring.ring.params.entries.toNat.isPowerOfTwo := h.params ▸ hp
    exact (entry_fill hp' id bytes _).trans (h.entry k id' hk)
  order := h.order
  share := h.share
  holder? := h.holder?
  entries := h.entries
  count := h.count

theorem take (h : Sound p c waiting) {id : UInt16} (hid : id ∈ c.picked) (length : Nat) :
    ∃ b ring, BufferSource.take id length c.ring = (.ok b, ring) ∧ b.id = id ∧
      Sound p ⟨ring, c.selected, c.picked.erase id, c.held ++ [b], c.recycled⟩ waiting := by
  have kernel := h.kernel_of_picked hid
  obtain ⟨-, size, count, holders⟩ := Ledger.take_of_kernel kernel
  refine ⟨_, _, take_of_kernel length kernel, rfl, ?_⟩
  refine ⟨h.params, h.head, h.tail, h.publishedTail, h.entry, h.order, ?_, ?_, ?_, ?_⟩
  · refine List.Perm.trans ?_ h.share
    have out := List.perm_cons_erase hid
    rw [List.perm_iff_count] at out ⊢
    intro j
    have once := out j
    simp only [List.count_append, List.map_append, List.map_cons, List.map_nil,
      List.count_cons, List.count_nil] at once ⊢
    omega
  · intro j
    show (c.ring.ring.ledger.take id).2.holder? j = _
    rw [holders]
    split
    next e =>
      have lt := h.lt_entries (List.mem_append_left _ (List.mem_append_right _ hid))
      simp [e, lt]
    next e =>
      rw [h.holder?]
      simp [e]
  · exact size.trans h.entries
  · show (c.ring.ring.ledger.take id).2.held = _
    rw [count, h.count, List.length_append, List.length_singleton]

theorem perm_erase {b : ReceivedBuffer} (hb : b ∈ c.held) :
    (c.held.map (·.id)).Perm (b.id :: (c.held.erase b).map (·.id)) :=
  (List.perm_cons_erase hb).map (·.id)

/-- The slot behind the last entry is none of those in use, although the positions wrap. -/
theorem entry_recycle (h : Sound p c waiting) (hp : p.entries.toNat.isPowerOfTwo)
    {b : ReceivedBuffer} (hb : b ∈ c.held) {k : Nat} {id : UInt16}
    (hk : (waiting ++ [b.id])[k]? = some id) :
    (c.ring.ring.recycle b).entry (UInt16.ofNat (c.selected.length + k)) = entryFor p id := by
  have hp' : c.ring.ring.params.entries.toNat.isPowerOfTwo := h.params ▸ hp
  obtain ⟨-, -, -, -, own, others⟩ := recycle_spec hp' h.tail (h.app_of_held hb)
  have room := h.length_lt hb
  by_cases e : k < waiting.length
  · rw [List.getElem?_append_left e] at hk
    rw [others, h.entry k id hk]
    rw [h.params]
    exact mod_ne (by omega) (by omega)
  · obtain rfl : k = waiting.length := by
      have bound := (List.getElem?_eq_some_iff.mp hk).1
      rw [List.length_append, List.length_singleton] at bound
      omega
    rw [List.getElem?_concat_length] at hk
    cases hk
    rw [own, h.params]

theorem holder?_giveBack (h : Sound p c waiting) {b : ReceivedBuffer} (hb : b ∈ c.held)
    (id : UInt16) : (c.ring.ring.ledger.giveBack b.id).2.holder? id =
      if id.toNat < p.entries.toNat then
        some (if id ∈ (c.held.erase b).map (·.id) then .app else .kernel) else none := by
  have back := perm_erase hb
  rw [(Ledger.giveBack_of_app (h.app_of_held hb)).2.2.2]
  split
  next e =>
    have lt := h.lt_entries (List.mem_append_right _ (List.mem_map_of_mem hb))
    have once := (List.nodup_append.mp h.nodup).2.1
    have gone := (List.nodup_cons.mp (back.nodup_iff.mp once)).1
    rw [e, if_pos lt, if_neg gone]
  next e =>
    have same := back.mem_iff (a := id)
    rw [List.mem_cons, or_iff_right e] at same
    simp only [h.holder?, same]

/-- A buffer that is given back waits behind all others, whose entries stay. -/
theorem recycle (h : Sound p c waiting) (hp : p.entries.toNat.isPowerOfTwo) {b : ReceivedBuffer}
    (hb : b ∈ c.held) : Sound p ⟨BufferSource.recycle b c.ring, c.selected, c.picked,
      c.held.erase b, c.recycled ++ [b.id]⟩ (waiting ++ [b.id]) := by
  have app := h.app_of_held hb
  have hp' : c.ring.ring.params.entries.toNat.isPowerOfTwo := h.params ▸ hp
  obtain ⟨-, size, count, -⟩ := Ledger.giveBack_of_app app
  obtain ⟨params, ledger, tail, publishedTail, -, -⟩ := recycle_spec hp' h.tail app
  have longer : c.selected.length + (waiting ++ [b.id]).length =
      c.selected.length + waiting.length + 1 := by
    rw [List.length_append, List.length_singleton]
    omega
  refine ⟨params.trans h.params, h.head, ?_, ?_, fun k id => h.entry_recycle hp hb, ?_, ?_, ?_,
    ?_, ?_⟩
  · rw [longer]
    exact tail
  · rw [longer]
    exact publishedTail
  · show buffers p ++ (c.recycled ++ [b.id]) = c.selected ++ (waiting ++ [b.id])
    rw [← List.append_assoc, h.order, List.append_assoc]
  · refine List.Perm.trans ?_ h.share
    have back := perm_erase hb
    rw [List.perm_iff_count] at back ⊢
    intro j
    have once := back j
    simp only [List.count_append, List.count_cons, List.count_nil] at once ⊢
    omega
  · intro j
    show (c.ring.ring.recycle b).ledger.holder? j = _
    rw [ledger, h.holder?_giveBack hb]
  · show (c.ring.ring.recycle b).ledger.entries = _
    rw [ledger, size, h.entries]
  · show (c.ring.ring.recycle b).ledger.held = _
    rw [ledger, count, h.count, List.length_erase_of_mem hb]

end Sound

theorem Sound.step (h : Sound p c waiting) (hp : p.entries.toNat.isPowerOfTwo) (hs : Step c d) :
    ∃ waiting, Sound p d waiting := by
  cases hs with
  | select hs =>
    obtain ⟨rest, -, sound⟩ := h.select hs
    exact ⟨rest, sound⟩
  | fill hid bytes => exact ⟨waiting, h.fill hp _ bytes⟩
  | take hid ht =>
    obtain ⟨b, ring, e, -, sound⟩ := h.take hid _
    rw [e] at ht
    cases ht
    exact ⟨waiting, sound⟩
  | recycle hb => exact ⟨_, h.recycle hp hb⟩

theorem Reached.sound (h : Reached granted p c) (hv : p.validate = .ok ()) :
    ∃ waiting, Sound p c waiting := by
  induction h with
  | start hr => exact ⟨_, Sound.start hr⟩
  | step _ hs ih =>
    obtain ⟨waiting, sound⟩ := ih
    exact sound.step (RingParams.of_validate hv).1 hs

/-- A valid ring can be built wherever its region fits, and however buffers go around it then: no
more of them wait than there are entries, each once and in an entry with its own address and the
common size; together with those picked and held they are all buffers, and those not held count as
visible; the kernel selects the first that waits, and the head meets the tail exactly when none is
left; taking a picked buffer succeeds; one that is given back waits behind the others, whose
entries stay as they are; and buffers are selected in the order in which they were published. -/
theorem window_holds_waiting_buffers (hv : p.validate = .ok ()) :
    (regionSize p ≤ granted → ∃ ring, SharedRing.new granted p = .ok ring) ∧
    ∀ c, Reached granted p c →
      (c.ring.ring.publishedTail - c.ring.head).toNat ≤ p.entries.toNat ∧
      (c.ring.window.map (·.id)).Nodup ∧
      (∀ e ∈ c.ring.window, e = ⟨bufferAddress p e.id, p.entrySize.toNat, e.id⟩) ∧
      (c.ring.window.map (·.id) ++ c.picked ++ c.held.map (·.id)).Perm (buffers p) ∧
      BufferSource.visible c.ring = c.ring.window.length + c.picked.length ∧
      c.ring.select.map (·.1) = (c.ring.window.map (·.id)).head? ∧
      (c.ring.head = c.ring.ring.publishedTail ↔
        ∀ id, id.toNat < p.entries.toNat → id ∈ c.picked ∨ id ∈ c.held.map (·.id)) ∧
      (∀ id ∈ c.picked, ∀ length, (BufferSource.take id length c.ring).1 =
        .ok ⟨p.group, id, min length p.entrySize.toNat⟩) ∧
      (∀ b ∈ c.held, (BufferSource.recycle b c.ring).head = c.ring.head ∧
        (BufferSource.recycle b c.ring).window = c.ring.window ++ [entryFor p b.id]) ∧
      buffers p ++ c.recycled = c.selected ++ c.ring.window.map (·.id) := by
  obtain ⟨hp, -, -⟩ := RingParams.of_validate hv
  refine ⟨fun hg => ⟨⟨(written p p.entries.toNat).publish, 0⟩, ?_⟩, fun c hr => ?_⟩
  · rw [SharedRing.new, BufferRing.new_eq_ok hv hg]
    rfl
  obtain ⟨waiting, sound⟩ := hr.sound hv
  have ids : c.ring.window.map (·.id) = waiting := by
    rw [sound.window_eq, List.map_map]
    exact List.map_id _
  rw [ids]
  refine ⟨?_, ?_, ?_, sound.share, ?_, sound.head?_eq, ?_, ?_, ?_, sound.order⟩
  · have all := sound.length
    rw [sound.distance]
    omega
  · exact (List.nodup_append.mp (List.nodup_append.mp sound.nodup).1).1
  · intro e he
    rw [sound.window_eq] at he
    obtain ⟨id, -, rfl⟩ := List.mem_map.mp he
    rfl
  · rw [sound.window_eq, List.length_map]
    exact sound.visible
  · rw [sound.head_eq_iff]
    exact sound.eq_nil_iff
  · intro id hid length
    rw [SharedRing.take_of_kernel length (sound.kernel_of_picked hid), sound.params]
  · intro b hb
    refine ⟨rfl, ?_⟩
    have after := (sound.recycle hp hb).window_eq
    rw [sound.window_eq]
    exact after.trans List.map_append

/-- Two buffers of eight bytes. -/
def pair : RingParams := ⟨2, 8, 0⟩

def newPair : BufferRing := (written pair 2).publish

/-- Both buffers of a pair have been selected, and the second has been given back. -/
theorem window_holds_waiting_buffers_after_return :
    (∃ ring, SharedRing.new 100 pair = .ok ring) ∧
    ∃ c, Reached 100 pair c ∧ c.picked = [0] ∧ c.recycled = [1] ∧
      (c.ring.window.map (·.id) ++ c.picked ++ c.held.map (·.id)).Perm (buffers pair) ∧
      buffers pair ++ c.recycled = c.selected ++ c.ring.window.map (·.id) := by
  have first : SharedRing.select ⟨newPair, 0⟩ = some (0, ⟨newPair, 1⟩) := rfl
  have second : SharedRing.select ⟨newPair, 1⟩ = some (1, ⟨newPair, 2⟩) := rfl
  have taken : BufferSource.take 1 3 (⟨newPair, 2⟩ : SharedRing) = (.ok ⟨0, 1, 3⟩, _) := rfl
  have start : Reached 100 pair ⟨⟨newPair, 0⟩, [], [], [], []⟩ := .start rfl
  have back := (((start.step (.select first)).step (.select second)).step
      (.take (by decide) taken)).step (.recycle List.mem_cons_self)
  obtain ⟨built, follows⟩ := window_holds_waiting_buffers (p := pair) rfl
  obtain ⟨-, -, -, share, -, -, -, -, -, order⟩ := follows _ back
  exact ⟨built (by decide), _, back, rfl, rfl, share, order⟩

end Circuit

end SharedRing

end RingServer
