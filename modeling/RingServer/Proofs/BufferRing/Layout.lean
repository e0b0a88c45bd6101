import RingServer.BufferRing
import RingServer.Proofs.RingParams

/-!
Where things are in the memory of a buffer ring. Position `n` of the ring has its entry in slot
`n % entries`, however often positions have wrapped (`entryAddress_ofNat`). An appended entry reads
back (`entry_append_self`) and leaves the entries of all other slots alone (`entry_append_of_ne`).
The published tail shares a slot with an entry but no byte (`entry_publish`,
`publishedTail_append`), no buffer reaches into the entries (`entry_fill`), and neither entries nor
tail into the buffers (`data_append`, `data_publish`, `data_recycle`).
-/

namespace RingServer

theorem RingParams.of_validate {p : RingParams} (h : p.validate = .ok ()) :
    p.entries.toNat.isPowerOfTwo ∧ p.entries.toNat ≤ maxEntries ∧ p.entrySize ≠ 0 := by
  have valid := validate_eq_ok_iff.mp h
  refine ⟨valid.powerOfTwo, valid.entries_le, fun none => ?_⟩
  have positive := valid.one_le_entrySize
  rw [none] at positive
  cases positive

namespace BufferRing

open Text (Bytes)

/-- The bytes of the entry for a buffer. -/
def entryContent (p : RingParams) (id : UInt16) : Bytes :=
  littleEndian 8 (bufferAddress p id) ++ littleEndian 4 p.entrySize.toNat ++ littleEndian 2 id.toNat

/-- The entry for a buffer. -/
def entryFor (p : RingParams) (id : UInt16) : RingEntry :=
  ⟨bufferAddress p id, p.entrySize.toNat, id⟩

variable {p : RingParams} {r : BufferRing}

theorem length_entryContent (p : RingParams) (id : UInt16) : (entryContent p id).length = 14 := by
  simp [entryContent]

/-- The mask takes a position to its slot. -/
theorem entryAddress_ofNat (hp : p.entries.toNat.isPowerOfTwo) (n : Nat) :
    entryAddress p (UInt16.ofNat n) = n % p.entries.toNat * entryBytes := by
  obtain ⟨k, hk⟩ := hp
  have hlt : p.entries.toNat < 2 ^ 16 := p.entries.toNat_lt
  have hpos : 0 < p.entries.toNat := by
    rw [hk]
    exact Nat.two_pow_pos k
  have hle : k ≤ 16 := by
    refine Nat.le_of_lt ((Nat.pow_lt_pow_iff_right (by decide : 1 < 2)).mp ?_)
    rw [← hk]
    exact hlt
  have one : (p.entries - 1).toNat = p.entries.toNat - 1 := by
    rw [UInt16.toNat_sub_of_le]
    · rfl
    · exact UInt16.le_iff_toNat_le.mpr hpos
  rw [entryAddress, UInt16.toNat_and, one, UInt16.toNat_ofNat', hk,
    Nat.and_two_pow_sub_one_eq_mod, Nat.mod_mod_of_dvd _ (Nat.pow_dvd_pow 2 hle)]

/-! ## Reading an entry -/

theorem read_add (m : Memory) (a n k : Nat) :
    m.read a (n + k) = m.read a n ++ m.read (a + n) k := by
  simp only [Memory.read, List.range_add, List.map_append, List.map_map, Function.comp_def,
    Nat.add_assoc]

/-- The three fields of an entry. -/
theorem read_entry (m : Memory) (a : Nat) :
    m.read a 14 = m.read a 8 ++ m.read (a + 8) 4 ++ m.read (a + 12) 2 := by
  rw [← read_add, ← read_add]

theorem ofLittleEndian_of_lt {n v : Nat} (h : v < 1 <<< (8 * n)) :
    ofLittleEndian (littleEndian n v) = v := by
  rw [ofLittleEndian_littleEndian, Nat.mod_eq_of_lt h]

/-- Where its bytes are, there is an entry. -/
theorem entry_of_read {index id : UInt16} (hb : bufferAddress r.params id < UInt64.size)
    (h : r.memory.read (entryAddress r.params index) 14 = entryContent r.params id) :
    r.entry index = entryFor r.params id := by
  rw [read_entry, entryContent] at h
  obtain ⟨front, number⟩ := List.append_inj' h (by simp)
  obtain ⟨address, size⟩ := List.append_inj' front (by simp)
  rw [entry, address, size, number, ofLittleEndian_of_lt hb,
    ofLittleEndian_of_lt r.params.entrySize.toNat_lt, ofLittleEndian_of_lt id.toNat_lt,
    UInt16.ofNat_toNat]
  rfl

/-- An entry depends on its fourteen bytes only. -/
theorem entry_congr {s : BufferRing} {index : UInt16} (hp : s.params = r.params)
    (h : s.memory.read (entryAddress r.params index) 14 =
      r.memory.read (entryAddress r.params index) 14) : s.entry index = r.entry index := by
  rw [read_entry, read_entry] at h
  obtain ⟨front, number⟩ := List.append_inj' h (by simp)
  obtain ⟨address, size⟩ := List.append_inj' front (by simp)
  rw [entry, entry, hp, address, size, number]

theorem publishedTail_congr {s : BufferRing}
    (h : s.memory.read tailAddress 2 = r.memory.read tailAddress 2) :
    s.publishedTail = r.publishedTail := by
  rw [publishedTail, publishedTail, h]

/-! ## Writing -/

theorem params_append (id : UInt16) (r : BufferRing) : (r.append id).params = r.params := rfl

theorem ledger_append (id : UInt16) (r : BufferRing) : (r.append id).ledger = r.ledger := rfl

theorem tail_append (id : UInt16) (r : BufferRing) : (r.append id).tail = r.tail + 1 := rfl

theorem memory_append (id : UInt16) (r : BufferRing) : (r.append id).memory =
    r.memory.write (entryAddress r.params r.tail) (entryContent r.params id) := rfl

theorem params_publish (r : BufferRing) : r.publish.params = r.params := rfl

theorem params_fill (id : UInt16) (bytes : Bytes) (r : BufferRing) :
    (r.fill id bytes).params = r.params := rfl

theorem memory_publish (r : BufferRing) : r.publish.memory =
    r.memory.write tailAddress (littleEndian 2 r.tail.toNat) := rfl

theorem entry_append_self {id : UInt16} (hb : bufferAddress r.params id < UInt64.size) :
    (r.append id).entry r.tail = entryFor r.params id := by
  refine entry_of_read (r := r.append id) hb ?_
  rw [memory_append, params_append, ← length_entryContent r.params id, Memory.read_write_self]

/-- Other slots keep their entries. -/
theorem entry_append_of_ne {id : UInt16} {n t : Nat} (hp : r.params.entries.toNat.isPowerOfTwo)
    (ht : r.tail = UInt16.ofNat t) (hn : n % r.params.entries.toNat ≠ t % r.params.entries.toNat) :
    (r.append id).entry (UInt16.ofNat n) = r.entry (UInt16.ofNat n) := by
  apply entry_congr (params_append id r)
  rw [memory_append, Memory.read_write_disjoint]
  rw [length_entryContent, ht, entryAddress_ofNat hp, entryAddress_ofNat hp, entryBytes]
  omega

theorem publishedTail_append (id : UInt16) (r : BufferRing) :
    (r.append id).publishedTail = r.publishedTail := by
  apply publishedTail_congr
  rw [memory_append, Memory.read_write_disjoint]
  rw [length_entryContent, entryAddress, entryBytes, tailAddress]
  omega

/-- Publishing touches the entry of no slot. -/
theorem entry_publish (r : BufferRing) (index : UInt16) :
    r.publish.entry index = r.entry index := by
  apply entry_congr (params_publish r)
  rw [memory_publish, Memory.read_write_disjoint]
  rw [length_littleEndian, entryAddress, entryBytes, tailAddress]
  omega

theorem publishedTail_publish (r : BufferRing) : r.publish.publishedTail = r.tail := by
  rw [publishedTail, memory_publish]
  have read := Memory.read_write_self r.memory tailAddress (littleEndian 2 r.tail.toNat)
  rw [length_littleEndian] at read
  rw [read, ofLittleEndian_of_lt r.tail.toNat_lt, UInt16.ofNat_toNat]

/-- What the kernel stores in a buffer leaves the entries and the tail alone. -/
theorem read_fill (id : UInt16) (bytes : Bytes) (r : BufferRing) {a n : Nat}
    (h : a + n ≤ r.params.entries.toNat * entryBytes) :
    (r.fill id bytes).memory.read a n = r.memory.read a n := by
  have e : (r.fill id bytes).memory = r.memory.write (bufferAddress r.params id)
    (bytes.take r.params.entrySize.toNat) := rfl
  rw [e, Memory.read_write_disjoint]
  rw [bufferAddress]
  omega

theorem entry_fill (hp : r.params.entries.toNat.isPowerOfTwo) (id : UInt16) (bytes : Bytes)
    (n : Nat) :
    (r.fill id bytes).entry (UInt16.ofNat n) = r.entry (UInt16.ofNat n) := by
  apply entry_congr (params_fill id bytes r)
  apply read_fill
  have hlt := Nat.mod_lt n (Nat.pos_of_isPowerOfTwo hp)
  rw [entryAddress_ofNat hp, entryBytes]
  omega

theorem publishedTail_fill (hp : r.params.entries.toNat.isPowerOfTwo) (id : UInt16)
    (bytes : Bytes) :
    (r.fill id bytes).publishedTail = r.publishedTail := by
  have hpos := Nat.pos_of_isPowerOfTwo hp
  apply publishedTail_congr
  apply read_fill
  rw [tailAddress, entryBytes]
  omega

/-! ## Buffers beside the writing -/

/-- The mask takes no position past the last entry. -/
theorem entryAddress_add_le (h : 0 < p.entries.toNat) (index : UInt16) :
    entryAddress p index + entryBytes ≤ p.entries.toNat * entryBytes := by
  have one : (1 : UInt16) ≤ p.entries := UInt16.le_iff_toNat_le.mpr h
  have masked : (index &&& (p.entries - 1)).toNat ≤ p.entries.toNat - 1 := by
    rw [UInt16.toNat_and, UInt16.toNat_sub_of_le _ _ one]
    exact Nat.and_le_right
  rw [entryAddress, entryBytes]
  omega

/-- Buffers begin behind all entries and the tail, so none of them notices an entry. -/
theorem get_append (h : 0 < r.params.entries.toNat) (id : UInt16) (a : Nat) :
    (r.append id).memory.get (r.params.entries.toNat * entryBytes + a) =
      r.memory.get (r.params.entries.toNat * entryBytes + a) := by
  have slot := entryAddress_add_le h r.tail
  rw [memory_append, Memory.get_write_outside]
  rw [length_entryContent]
  rw [entryBytes] at slot ⊢
  omega

theorem get_publish (h : 0 < r.params.entries.toNat) (a : Nat) :
    r.publish.memory.get (r.params.entries.toNat * entryBytes + a) =
      r.memory.get (r.params.entries.toNat * entryBytes + a) := by
  rw [memory_publish, Memory.get_write_outside]
  rw [length_littleEndian, tailAddress, entryBytes]
  omega

/-- A buffer that is given back gets an entry if it is in hand, and nothing happens otherwise. -/
theorem recycle_cases (b : ReceivedBuffer) (r : BufferRing) :
    (r.recycle b).ledger = (r.ledger.giveBack b.id).2 ∧
      (r.recycle b = { r with ledger := (r.ledger.giveBack b.id).2 } ∨
        r.recycle b =
          (append b.id { r with ledger := (r.ledger.giveBack b.id).2 }).publish) := by
  obtain ⟨p, memory, tail, ledger⟩ := r
  rcases h : ledger.giveBack b.id with ⟨back, after⟩
  cases back with
  | true => exact ⟨by simp only [recycle, h]; rfl, .inr (by simp only [recycle, h])⟩
  | false => exact ⟨by simp only [recycle, h], .inl (by simp only [recycle, h])⟩

theorem params_recycle (b : ReceivedBuffer) (r : BufferRing) :
    (r.recycle b).params = r.params := by
  obtain ⟨-, e | e⟩ := recycle_cases b r
  · rw [e]
  · rw [e, params_publish, params_append]

/-- Giving a buffer back stores nothing in any buffer. -/
theorem get_recycle (h : 0 < r.params.entries.toNat) (b : ReceivedBuffer) (a : Nat) :
    (r.recycle b).memory.get (r.params.entries.toNat * entryBytes + a) =
      r.memory.get (r.params.entries.toNat * entryBytes + a) := by
  obtain ⟨-, e | e⟩ := recycle_cases b r
  · rw [e]
  · have written := get_append (r := { r with ledger := (r.ledger.giveBack b.id).2 }) h b.id a
    rw [e]
    exact (get_publish (r := append b.id _) h a).trans written

/-- What is in a buffer depends on the bytes behind the entries only. -/
theorem data_congr {s : BufferRing} (hp : s.params = r.params)
    (h : ∀ a, s.memory.get (r.params.entries.toNat * entryBytes + a) =
      r.memory.get (r.params.entries.toNat * entryBytes + a)) (b : ReceivedBuffer) :
    s.data b = r.data b := by
  rw [data, data, hp]
  refine List.map_congr_left fun place _ => ?_
  rw [bufferAddress, Nat.add_assoc]
  exact h _

theorem data_append (h : 0 < r.params.entries.toNat) (id : UInt16) :
    ∀ b, (r.append id).data b = r.data b :=
  data_congr (params_append id r) (get_append h id)

theorem data_publish (h : 0 < r.params.entries.toNat) : ∀ b, r.publish.data b = r.data b :=
  data_congr (params_publish r) (get_publish h)

theorem data_recycle (h : 0 < r.params.entries.toNat) (b : ReceivedBuffer) :
    ∀ b', (r.recycle b).data b' = r.data b' :=
  data_congr (params_recycle b r) (get_recycle h b)

/-! ## A new ring -/

/-- Size of the region that a ring takes. -/
def regionSize (p : RingParams) : Nat :=
  p.entries.toNat * p.entrySize.toNat + p.entries.toNat * entryBytes

theorem bufferAddress_lt (p : RingParams) (id : UInt16) : bufferAddress p id < UInt64.size := by
  have he : p.entries.toNat < 2 ^ 16 := p.entries.toNat_lt
  have hs : p.entrySize.toNat < 2 ^ 32 := p.entrySize.toNat_lt
  have hi : id.toNat < 2 ^ 16 := id.toNat_lt
  have product := Nat.mul_lt_mul'' hi hs
  rw [bufferAddress, entryBytes, UInt64.size]
  omega

/-- A ring of which `k` entries are written and none is published. -/
def written (p : RingParams) (k : Nat) : BufferRing :=
  (List.range k).foldl (fun r i => r.append (UInt16.ofNat i))
    ⟨p, .blank, 0, Ledger.new p.group p.entries.toNat⟩

theorem written_succ (p : RingParams) (k : Nat) :
    written p (k + 1) = (written p k).append (UInt16.ofNat k) := by
  rw [written, List.range_succ, List.foldl_append]
  rfl

theorem written_spec (hp : p.entries.toNat.isPowerOfTwo) {k : Nat} (hk : k ≤ p.entries.toNat) :
    (written p k).params = p ∧ (written p k).ledger = Ledger.new p.group p.entries.toNat ∧
      (written p k).tail = UInt16.ofNat k ∧
      ∀ n, n < k → (written p k).entry (UInt16.ofNat n) = entryFor p (UInt16.ofNat n) := by
  induction k with
  | zero => exact ⟨rfl, rfl, rfl, fun n hn => absurd hn (Nat.not_lt_zero n)⟩
  | succ k ih =>
    obtain ⟨params, ledger, tail, entries⟩ := ih (by omega)
    rw [written_succ, params_append, ledger_append, tail_append, tail]
    refine ⟨params, ledger, by simp, fun n hn => ?_⟩
    by_cases e : n = k
    · rw [e, ← tail, entry_append_self (bufferAddress_lt _ _), params, tail]
    · rw [entry_append_of_ne (by rw [params]; exact hp) tail, entries n (by omega)]
      rw [params, Nat.mod_eq_of_lt (by omega), Nat.mod_eq_of_lt (by omega)]
      exact e

theorem get_written (hp : p.entries.toNat.isPowerOfTwo) {k : Nat} (hk : k ≤ p.entries.toNat)
    (a : Nat) : (written p k).memory.get (p.entries.toNat * entryBytes + a) = 0 := by
  induction k with
  | zero => rfl
  | succ k ih =>
    have params := (written_spec hp (Nat.le_of_succ_le hk)).1
    have kept := get_append (r := written p k) (by rw [params]; exact Nat.pos_of_isPowerOfTwo hp)
      (UInt16.ofNat k) a
    rw [params] at kept
    rw [written_succ, kept]
    exact ih (Nat.le_of_succ_le hk)

/-- Nothing is stored in the buffers of a new ring. -/
theorem get_publish_written (hp : p.entries.toNat.isPowerOfTwo) (a : Nat) :
    (written p p.entries.toNat).publish.memory.get (p.entries.toNat * entryBytes + a) = 0 := by
  obtain ⟨params, -⟩ := written_spec hp (Nat.le_refl _)
  have shown := get_publish (r := written p p.entries.toNat)
    (by rw [params]; exact Nat.pos_of_isPowerOfTwo hp) a
  rw [params] at shown
  exact shown.trans (get_written hp (Nat.le_refl _) a)

/-- The largest ring with the largest buffers is far below what a region may have. -/
theorem regionSize_le (hv : p.validate = .ok ()) : regionSize p ≤ maxRegion := by
  obtain ⟨-, hmax, -⟩ := RingParams.of_validate hv
  have hs : p.entrySize.toNat < 2 ^ 32 := p.entrySize.toNat_lt
  have product := Nat.mul_le_mul hmax (Nat.le_of_lt hs)
  rw [RingParams.maxEntries] at hmax product
  rw [regionSize, entryBytes, maxRegion]
  omega

/-- Whether its region is granted decides whether a ring with valid parameters can be built. -/
theorem new_eq (granted : Nat) (hv : p.validate = .ok ()) : BufferRing.new granted p =
    if granted < regionSize p then .error (.allocation .ring)
    else .ok (written p p.entries.toNat).publish := by
  have small := regionSize_le hv
  have smaller : regionSize p < UInt64.size := Nat.lt_of_le_of_lt small (by decide)
  rw [regionSize] at small smaller ⊢
  unfold BufferRing.new
  rw [hv]
  simp only [bind, Except.bind]
  rw [if_neg (Nat.not_le.mpr smaller), if_neg (Nat.not_lt.mpr small)]
  rfl

theorem new_eq_ok {granted : Nat} (hv : p.validate = .ok ()) (hg : regionSize p ≤ granted) :
    BufferRing.new granted p = .ok (written p p.entries.toNat).publish :=
  (new_eq granted hv).trans (if_neg (Nat.not_lt.mpr hg))

theorem new_eq_error {granted : Nat} (hv : p.validate = .ok ()) (hg : granted < regionSize p) :
    BufferRing.new granted p = .error (.allocation .ring) :=
  (new_eq granted hv).trans (if_pos hg)

/-- There is no other way to build a ring. -/
theorem of_new {granted : Nat} (h : BufferRing.new granted p = .ok r) :
    p.validate = .ok () ∧ regionSize p ≤ granted := by
  cases hv : p.validate with
  | error e =>
    unfold BufferRing.new at h
    rw [hv] at h
    cases h
  | ok u =>
    rw [new_eq granted hv] at h
    split at h
    · cases h
    next fits => exact ⟨rfl, Nat.not_lt.mp fits⟩

end BufferRing

end RingServer
