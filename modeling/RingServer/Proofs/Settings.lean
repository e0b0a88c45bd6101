import RingServer.EventLoop
import RingServer.Kernel.Listener
import RingServer.Proofs.BufferRing.Window
import RingServer.Proofs.SlotPool
import RingServer.Proofs.Validation

/-!
What the check of the settings is worth to the parts that are built from them. Settings that pass
it give a pool and rings that only a lack of memory can prevent. They need not give a listener, for
the length of the backlog is checked from below only, nor a loop, for the buffers that receive may
be too small for the header of a message. Nothing else is refused later
(`valid_settings_configure`), and both happen (`valid_settings_refused`).
-/

namespace RingServer

/-- A pool with a usable number of slots of a usable size fails for lack of memory only. -/
theorem SlotPool.new_cases (granted : Nat) {entrySize entries : Nat} (hs : 0 < entrySize)
    (hp : 0 < entries) (hm : entries ≤ FreeList.maxSlots) :
    (∃ p, SlotPool.new granted entrySize entries = .ok p) ∨
      (min granted maxRegion < entrySize * entries ∧
        ∃ cause, SlotPool.new granted entrySize entries = .error (.allocation cause)) := by
  have usable : Usable entrySize entries := ⟨hs, hp, hm⟩
  have region : maxRegion = 1 <<< 63 - 4096 := rfl
  obtain ⟨-, overflow, layout, lack, passed⟩ := new_outcomes granted entrySize entries
  by_cases word : 1 <<< 64 ≤ entrySize * entries
  · exact Or.inr ⟨by omega, _, overflow.mpr ⟨usable, word⟩⟩
  by_cases large : 1 <<< 63 - 4096 < entrySize * entries
  · exact Or.inr ⟨by omega, _, layout.mpr ⟨usable, Nat.not_le.mp word, large⟩⟩
  by_cases refused : granted < entrySize * entries
  · exact Or.inr ⟨by omega, _, lack.mpr ⟨usable, Nat.not_lt.mp large, refused⟩⟩
  · exact Or.inl (passed.mpr ⟨usable, Nat.not_lt.mp large, Nat.not_lt.mp refused⟩)

/-- A ring with valid parameters fails for lack of memory only. -/
theorem SharedRing.new_cases (granted : Nat) {p : RingParams} (hv : p.validate = .ok ()) :
    (∃ r, SharedRing.new granted p = .ok r) ∨
      (granted < BufferRing.regionSize p ∧
        ∃ cause, SharedRing.new granted p = .error (.allocation cause)) := by
  by_cases fits : BufferRing.regionSize p ≤ granted
  · exact Or.inl ⟨_, by rw [SharedRing.new, BufferRing.new_eq_ok hv fits]; rfl⟩
  · have lack := Nat.not_le.mp fits
    exact Or.inr ⟨lack, _, by rw [SharedRing.new, BufferRing.new_eq_error hv lack]; rfl⟩

theorem SharedRing.params_of_new {granted : Nat} {p : RingParams} {s : SharedRing}
    (h : SharedRing.new granted p = .ok s) : s.ring.params = p := by
  obtain ⟨hv, hg⟩ := SharedRing.of_new h
  obtain ⟨hp, -, -⟩ := RingParams.of_validate hv
  rw [new, BufferRing.new_eq_ok hv hg] at h
  cases h
  exact (BufferRing.written_spec hp (Nat.le_refl _)).1

/-- The ring built from the only description of a group is the one that is found under it. -/
theorem SharedRing.find?_of_mapM {granted : Nat} {p : RingParams} {ps : List RingParams}
    {rings : List SharedRing} (hr : ps.mapM (SharedRing.new granted) = .ok rings) (hp : p ∈ ps)
    (only : ∀ q ∈ ps, q.group = p.group → q = p) :
    ∃ r, rings.find? (fun r => BufferSource.group r == p.group) = some r ∧ r.ring.params = p := by
  rw [mapM_eq_ok_iff] at hr
  induction hr with
  | nil => cases hp
  | @cons q r ps rest hq _ ih =>
    have params := params_of_new hq
    have group : BufferSource.group r = q.group := congrArg RingParams.group params
    by_cases same : q.group = p.group
    · refine ⟨r, List.find?_cons_of_pos (by simp [group, same]), ?_⟩
      rw [params, only q List.mem_cons_self same]
    · rw [List.find?_cons_of_neg (by simp [group, same])]
      have later : p ∈ ps := by
        rcases List.mem_cons.mp hp with rfl | later
        · exact absurd rfl same
        · exact later
      exact ih later fun x hx => only x (List.mem_cons_of_mem _ hx)

/-- A loop over rings of which one receives is refused only if the buffers of that ring are too
small. -/
theorem EventLoop.new_of_find? {β ρ σ : Type} [BufferSource ρ] {rings : List ρ} {r : ρ}
    {s : Settings}
    (h : rings.find? (fun r => BufferSource.group r == s.receiveGroup) = some r) (backend : β)
    (pool : SlotPool) (handler : Handler σ) (state : σ) :
    if Envelope.headerSize < BufferSource.entrySize r then
      ∃ l, EventLoop.new backend pool rings handler state s = .ok l
    else EventLoop.new backend pool rings handler state s =
      .error (.config .receiveEntrySize) := by
  unfold EventLoop.new
  simp only [h]
  split
  next large =>
    rw [if_neg (Nat.not_le.mpr large)]
    exact ⟨_, rfl⟩
  next small =>
    rw [if_pos (Nat.not_lt.mp small)]
    rfl

theorem Kernel.Listener.listen_of_free {others : List Listener} {port : UInt16} {backlog : Int32}
    (free : ∀ l ∈ others, l.port ≠ port) (positive : 0 < backlog) :
    if backlog ≤ 4095 then ∃ x, listen others port backlog = .ok x
    else listen others port backlog = .error (.socket "listen" 22) := by
  have unused : ¬ others.any (fun l => l.port = port) = true := by simpa using free
  have above : (-1 : Int32) ≤ backlog :=
    Int32.le_trans (by decide : (-1 : Int32) ≤ 0) (Int32.le_of_lt positive)
  unfold listen
  rw [if_neg unused]
  split
  next short =>
    have accepted : acceptsBacklog backlog = true := by simp [acceptsBacklog, above, short]
    exact ⟨_, by simp only [accepted, if_true]; rfl⟩
  next long =>
    have refused : ¬ acceptsBacklog backlog = true := by simp [acceptsBacklog, long]
    simp only [refused]
    rfl

namespace Settings

variable {s : Settings}

/-- What the check looks at. -/
structure Valid (s : Settings) : Prop where
  backlog : 0 < s.backlog
  poolEntries : 0 < s.poolEntries ∧ s.poolEntries ≤ FreeList.maxSlots
  poolEntrySize : 0 < s.poolEntrySize
  rings : ∀ p ∈ s.rings, p.validate = .ok ()
  groups : (s.rings.map (·.group)).Nodup
  receiveGroup : s.receiveGroup ∈ s.rings.map (·.group)

theorem Valid.of_validate (h : s.validate = .ok ()) : s.Valid := by
  have found := requirements_met_iff.mp (s.validate_checks.eq_ok_iff.mp h)
  exact {
    backlog := Int32.lt_iff_toInt_lt.mpr found.backlog
    poolEntries := found.poolEntries
    poolEntrySize := found.poolEntrySize
    rings := fun p hp => RingParams.validate_eq_ok_iff.mpr (found.rings p hp)
    groups := found.groups
    receiveGroup := found.receiveGroup }

/-- One ring is configured for the receive group. -/
theorem Valid.receives (h : s.Valid) : ∃ p ∈ s.rings, p.group = s.receiveGroup ∧
    ∀ q ∈ s.rings, q.group = p.group → q = p := by
  obtain ⟨p, hp, hg⟩ := List.mem_map.mp h.receiveGroup
  exact ⟨p, hp, hg, fun q hq e => List.inj_on_of_nodup_map h.groups hq hp e⟩

/-- Settings that pass the check configure every part, with two exceptions: a backlog of more than
4095 connections is refused when the server begins to listen, and a receive group whose buffers
hold no more than the header of a message is refused when the loop is built. The pool and the rings
are refused for lack of memory only. -/
theorem valid_settings_configure {β σ : Type} (h : s.validate = .ok ()) (granted : Nat) :
    ((∃ pool, SlotPool.new granted s.poolEntrySize s.poolEntries = .ok pool) ∨
      (min granted maxRegion < s.poolEntrySize * s.poolEntries ∧
        ∃ cause, SlotPool.new granted s.poolEntrySize s.poolEntries =
          .error (.allocation cause))) ∧
    (∀ p ∈ s.rings, (∃ ring, SharedRing.new granted p = .ok ring) ∨
      (granted < BufferRing.regionSize p ∧
        ∃ cause, SharedRing.new granted p = .error (.allocation cause))) ∧
    (∀ others, (∀ l ∈ others, l.port ≠ s.port) →
      if s.backlog ≤ 4095 then ∃ x, Kernel.Listener.listen others s.port s.backlog = .ok x
      else Kernel.Listener.listen others s.port s.backlog = .error (.socket "listen" 22)) ∧
    ∃ p ∈ s.rings, p.group = s.receiveGroup ∧ (∀ q ∈ s.rings, q.group = p.group → q = p) ∧
      ∀ (backend : β) (pool : SlotPool) (rings : List SharedRing) (handler : Handler σ)
        (state : σ), s.rings.mapM (SharedRing.new granted) = .ok rings →
        if Envelope.headerSize < p.entrySize.toNat then
          ∃ l, EventLoop.new backend pool rings handler state s = .ok l
        else EventLoop.new backend pool rings handler state s =
          .error (.config .receiveEntrySize) := by
  have valid := Valid.of_validate h
  obtain ⟨p, hp, hg, only⟩ := valid.receives
  refine ⟨?_, ?_, ?_, p, hp, hg, only, ?_⟩
  · exact SlotPool.new_cases granted valid.poolEntrySize valid.poolEntries.1 valid.poolEntries.2
  · exact fun p hp => SharedRing.new_cases granted (valid.rings p hp)
  · exact fun others free => Kernel.Listener.listen_of_free free valid.backlog
  · intro backend pool rings handler state built
    obtain ⟨r, found, params⟩ := SharedRing.find?_of_mapM built hp only
    rw [hg] at found
    have outcome := EventLoop.new_of_find? found backend pool handler state
    have size : BufferSource.entrySize r = p.entrySize.toNat :=
      congrArg (fun q => q.entrySize.toNat) params
    rwa [size] at outcome

/-- The defaults with one small ring. -/
def small : Settings := { default with rings := [⟨2, 64, 0⟩] }

/-- A host that grants a page has room for the small ring and for the pool. -/
theorem valid_settings_configure_small : small.validate = .ok () ∧
    (∃ pool, SlotPool.new 4096 small.poolEntrySize small.poolEntries = .ok pool) ∧
    (∃ x, Kernel.Listener.listen [] small.port small.backlog = .ok x) ∧
    ∃ rings, small.rings.mapM (SharedRing.new 4096) = .ok rings ∧
      ∃ pool l, EventLoop.new Recorder.new pool rings small.reply.handler () small = .ok l := by
  have valid : small.validate = .ok () := rfl
  obtain ⟨pool, -, listener, p, hp, -, -, loop⟩ :=
    valid_settings_configure (β := Recorder) (σ := Unit) valid 4096
  have granted := pool.resolve_right fun short => absurd short.1 (by decide)
  obtain rfl : p = ⟨2, 64, 0⟩ := List.mem_singleton.mp hp
  obtain ⟨slots, hs⟩ := granted
  have built : small.rings.mapM (SharedRing.new 4096) = .ok _ := rfl
  exact ⟨valid, ⟨slots, hs⟩, listener [] (by simp), _, built, slots,
    loop Recorder.new slots _ small.reply.handler () built⟩

/-- A backlog that no listener can have. -/
def longBacklog : Settings := { small with backlog := 4096 }

/-- Receive buffers without room for a payload. -/
def headersOnly : Settings := { small with rings := [⟨2, 16, 0⟩] }

/-- The check accepts both, and the server cannot listen with the one nor receive with the other. -/
theorem valid_settings_refused :
    (longBacklog.validate = .ok () ∧
      Kernel.Listener.listen [] longBacklog.port longBacklog.backlog =
        .error (.socket "listen" 22)) ∧
    headersOnly.validate = .ok () ∧
    ∃ pool rings, SlotPool.new 4096 headersOnly.poolEntrySize headersOnly.poolEntries = .ok pool ∧
      headersOnly.rings.mapM (SharedRing.new 4096) = .ok rings ∧
      EventLoop.new Recorder.new pool rings headersOnly.reply.handler () headersOnly =
        .error (.config .receiveEntrySize) :=
  ⟨⟨rfl, rfl⟩, rfl, _, _, rfl, rfl, rfl⟩

end Settings

end RingServer
