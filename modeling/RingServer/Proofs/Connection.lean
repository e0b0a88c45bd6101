import RingServer.Connection

/-!
The connection table seen through `get?`: what each operation does to the connection of every
descriptor. Only the descriptor that is named is touched. No operation gives a descriptor a second
row (`Distinct`), so that the size of the table is the number of descriptors that are tracked.
-/

namespace RingServer.ConnectionTable

variable {fd x : Descriptor}

theorem get?_cons (c : Connection) (rows : List (Descriptor × Connection)) :
    get? ⟨(fd, c) :: rows⟩ x = if x = fd then some c else get? ⟨rows⟩ x := by
  by_cases h : x = fd
  · simp [get?, h]
  · have hb : (x == fd) = false := by simpa using h
    simp [get?, List.lookup_cons, h, hb]

theorem get?_erase (t : ConnectionTable) :
    (t.erase fd).get? x = if x = fd then none else t.get? x := by
  obtain ⟨rows⟩ := t
  induction rows with
  | nil => simp [erase, get?]
  | cons row rows ih =>
    obtain ⟨d, c⟩ := row
    by_cases hd : d = fd
    · have e : erase fd ⟨(d, c) :: rows⟩ = erase fd ⟨rows⟩ := by simp [erase, hd]
      rw [e, ih, get?_cons, hd]
      split <;> rfl
    · have e : erase fd ⟨(d, c) :: rows⟩ = ⟨(d, c) :: (erase fd ⟨rows⟩).rows⟩ := by
        simp [erase, hd]
      rw [e, get?_cons, get?_cons, ih]
      by_cases hx : x = d
      · have hne : x ≠ fd := fun h => hd (hx.symm.trans h)
        simp [hx, hd]
      · simp [hx]

theorem erase_of_get?_eq_none (t : ConnectionTable) (h : t.get? fd = none) : t.erase fd = t := by
  obtain ⟨rows⟩ := t
  induction rows with
  | nil => rfl
  | cons row rows ih =>
    obtain ⟨d, c⟩ := row
    rw [get?_cons] at h
    split at h
    · cases h
    next hd =>
      have hr : (erase fd ⟨rows⟩).rows = rows := congrArg ConnectionTable.rows (ih h)
      have e : erase fd ⟨(d, c) :: rows⟩ = ⟨(d, c) :: (erase fd ⟨rows⟩).rows⟩ := by
        simp [erase, Ne.symm hd]
      rw [e, hr]

theorem get?_modify (t : ConnectionTable) (f : Connection → Connection) :
    (t.modify fd f).get? x = if x = fd then (t.get? x).map f else t.get? x := by
  obtain ⟨rows⟩ := t
  induction rows with
  | nil => simp [modify, get?]
  | cons row rows ih =>
    obtain ⟨d, c⟩ := row
    have e : modify fd f ⟨(d, c) :: rows⟩ =
        ⟨(d, if d = fd then f c else c) :: (modify fd f ⟨rows⟩).rows⟩ := by
      by_cases hd : d = fd <;> simp [modify, hd]
    rw [e, get?_cons, get?_cons, ih]
    by_cases hx : x = d
    · by_cases hd : d = fd <;> simp [hx, hd]
    · simp [hx]

theorem get?_insert_of_none (t : ConnectionTable) (peer : Option SocketAddress)
    (h : t.get? fd = none) : t.insert fd peer = (true, ⟨(fd, .fresh peer) :: t.rows⟩) := by
  simp [insert, contains, h]

/-- A descriptor can be tracked afresh, whatever was known of it. -/
theorem insert_erase (t : ConnectionTable) (fd : Descriptor) (peer : Option SocketAddress) :
    (t.erase fd).insert fd peer = (true, ⟨(fd, .fresh peer) :: (t.erase fd).rows⟩) :=
  get?_insert_of_none _ _ (by rw [get?_erase, if_pos rfl])

theorem isOpen_iff (t : ConnectionTable) :
    t.isOpen x ↔ ∃ c, t.get? x = some c ∧ c.state = .opened := by
  simp [isOpen, Option.any_eq_true, Connection.isOpen]

theorem isSome_filter_isOpen (t : ConnectionTable) :
    ((t.get? x).filter Connection.isOpen).isSome = t.isOpen x := by
  rw [Option.isSome_filter]
  rfl

theorem isOpen_modify_count (t : ConnectionTable) (n : UInt64) (h : t.isOpen x = true) :
    (t.modify x (.count n)).isOpen x = true := by
  obtain ⟨c, hc, hs⟩ := t.isOpen_iff.mp h
  rw [isOpen_iff]
  exact ⟨c.count n, by simp [get?_modify, hc], hs⟩

/-- A connection that is tracked and not as far yet moves forward; nothing else happens. -/
theorem advance_cases (t : ConnectionTable) (fd : Descriptor) (state : ConnectionState) :
    (∃ c, t.get? fd = some c ∧ c.state.rank < state.rank ∧
      t.advance fd state = (true, t.modify fd fun c => { c with state })) ∨
    ((∀ c, t.get? fd = some c → state.rank ≤ c.state.rank) ∧
      t.advance fd state = (false, t)) := by
  unfold advance
  cases h : t.get? fd with
  | none => exact Or.inr ⟨by simp, rfl⟩
  | some c =>
    by_cases hr : c.state.rank < state.rank
    · exact Or.inl ⟨c, rfl, hr, if_pos hr⟩
    · refine Or.inr ⟨?_, if_neg hr⟩
      intro d hd
      cases hd
      omega

/-! ## Number of connections -/

/-- No descriptor has two rows. -/
def Distinct (t : ConnectionTable) : Prop := (t.rows.map (·.1)).Nodup

theorem get?_eq_none_iff (t : ConnectionTable) : t.get? fd = none ↔ fd ∉ t.rows.map (·.1) := by
  simp only [get?, List.lookup_eq_none_iff, List.mem_map, not_exists, not_and]
  constructor
  · intro h row hr e
    simpa [e] using h row hr
  · intro h row hr
    simpa using Ne.symm (h row hr)

theorem map_modify (t : ConnectionTable) (f : Connection → Connection) :
    (t.modify fd f).rows.map (·.1) = t.rows.map (·.1) := by
  rw [modify, List.map_map]
  apply List.map_congr_left
  intro row _
  by_cases h : row.1 = fd <;> simp [h]

theorem Distinct.modify {t : ConnectionTable} (h : t.Distinct) (f : Connection → Connection) :
    (t.modify fd f).Distinct := by
  rw [Distinct, map_modify]
  exact h

theorem size_modify (t : ConnectionTable) (f : Connection → Connection) :
    (t.modify fd f).size = t.size := by
  simp [size, modify]

theorem Distinct.erase {t : ConnectionTable} (h : t.Distinct) : (t.erase fd).Distinct :=
  List.Nodup.sublist (List.filter_sublist.map _) h

theorem Distinct.size_erase {t : ConnectionTable} (h : t.Distinct) (fd : Descriptor) :
    (t.erase fd).size + (if t.contains fd then 1 else 0) = t.size := by
  obtain ⟨rows⟩ := t
  induction rows with
  | nil => rfl
  | cons row rows ih =>
    obtain ⟨d, c⟩ := row
    obtain ⟨fresh, rest⟩ := List.nodup_cons.mp h
    by_cases hd : d = fd
    · subst hd
      have missing : get? ⟨rows⟩ d = none := (get?_eq_none_iff _).mpr fresh
      have e : ConnectionTable.erase d ⟨(d, c) :: rows⟩ = ConnectionTable.erase d ⟨rows⟩ := by
        simp [ConnectionTable.erase]
      rw [e, erase_of_get?_eq_none _ missing, if_pos]
      · rfl
      · rw [contains, get?_cons, if_pos rfl]
        rfl
    · have e : ConnectionTable.erase fd ⟨(d, c) :: rows⟩ =
          ⟨(d, c) :: (ConnectionTable.erase fd ⟨rows⟩).rows⟩ := by
        simp [ConnectionTable.erase, hd]
      have same : contains ⟨(d, c) :: rows⟩ fd = contains ⟨rows⟩ fd := by
        rw [contains, contains, get?_cons, if_neg (Ne.symm hd)]
      have shorter := ih rest
      rw [e, same]
      simp only [size, List.length_cons] at shorter ⊢
      omega

/-- A descriptor that is tracked afresh has one row. -/
theorem Distinct.fresh {t : ConnectionTable} (h : t.Distinct) (c : Connection) :
    Distinct ⟨(fd, c) :: (t.erase fd).rows⟩ := by
  refine List.nodup_cons.mpr ⟨(get?_eq_none_iff _).mp ?_, h.erase⟩
  rw [get?_erase, if_pos rfl]

end RingServer.ConnectionTable
