import RingServer.Settings
import RingServer.Proofs.RingParams

/-!
What the check of the settings asks for, and in which order. `Settings.requirements` lists it, with
the fault that each requirement is reported with. The settings that meet all of it are those that
are consistent, and of any others the first violation is reported (`first_violation_is_reported`).
-/

namespace RingServer.Settings

variable {r : Requirement}

/-! ## Rings -/

/-- What is asked of rings that come after others: each is valid by itself, and then its group is
none of those before it. -/
def ringRequirements (earlier : List UInt16) : List RingParams → List Requirement
  | [] => []
  | p :: ps => p.requirements ++ ⟨p.group ∉ earlier, .config (.groupTwice p.group)⟩ ::
      ringRequirements (earlier ++ [p.group]) ps

theorem ringRequirements_met_iff {earlier : List UInt16} {ps : List RingParams} :
    (∀ r ∈ ringRequirements earlier ps, r.met) ↔ (∀ p ∈ ps, p.IsValid) ∧
      (ps.map (·.group)).Nodup ∧ ∀ p ∈ ps, p.group ∉ earlier := by
  induction ps generalizing earlier with
  | nil => simp [ringRequirements]
  | cons p ps ih =>
    rw [ringRequirements, List.forall_mem_append, List.forall_mem_cons,
      RingParams.requirements_met_iff, ih]
    simp only [List.forall_mem_cons, List.map_cons, List.nodup_cons, List.mem_append,
      List.mem_singleton, not_or, List.mem_map, not_exists, not_and, forall_and]
    constructor
    · rintro ⟨valid, fresh, rest, distinct, before, apart⟩
      exact ⟨⟨valid, rest⟩, ⟨apart, distinct⟩, fresh, before⟩
    · rintro ⟨⟨valid, rest⟩, ⟨apart, distinct⟩, fresh, before⟩
      exact ⟨valid, fresh, rest, distinct, before, apart⟩

theorem config_of_mem_ringRequirements {earlier : List UInt16} {ps : List RingParams}
    (h : r ∈ ringRequirements earlier ps) : ∃ cause, r.fault = .config cause := by
  induction ps generalizing earlier with
  | nil => cases h
  | cons p ps ih =>
    rcases List.mem_append.mp h with own | h
    · exact RingParams.config_of_mem_requirements own
    · rcases List.mem_cons.mp h with rfl | h
      · exact ⟨_, rfl⟩
      · exact ih h

/-- The groups that a scan has seen are those before it and those of its rings. -/
theorem mem_of_validateRings {seen groups : List UInt16} {ps : List RingParams}
    (h : validateRings seen ps = .ok groups) (g : UInt16) :
    g ∈ groups ↔ g ∈ seen ∨ g ∈ ps.map (·.group) := by
  induction ps generalizing seen with
  | nil =>
    cases h
    simp
  | cons p ps ih =>
    obtain ⟨u, -, h⟩ := bind_eq_ok_iff.mp h
    split at h
    · cases h
    · rw [ih h, List.mem_cons, List.map_cons, List.mem_cons, or_assoc, or_left_comm]

theorem validateRings_checks {seen earlier : List UInt16} (hs : ∀ g, g ∈ seen ↔ g ∈ earlier)
    (ps : List RingParams) : Checks (ringRequirements earlier ps) (validateRings seen ps) := by
  induction ps generalizing seen earlier with
  | nil => exact .ok seen
  | cons p ps ih =>
    unfold validateRings ringRequirements
    refine p.validate_checks.bind fun u hu => ?_
    rw [← ite_not]
    refine .guard (not_congr (hs p.group)) rfl (ih fun g => ?_)
    rw [List.mem_cons, List.mem_append, List.mem_singleton, hs, or_comm]

/-! ## Settings -/

/-- What is asked of the queue, the listener, the pool and the rings. -/
def partRequirements (s : Settings) : List Requirement :=
  [⟨s.sqEntries.toNat.isPowerOfTwo ∧ s.sqEntries.toNat ≤ maxSqEntries,
      .config (.queueEntries s.sqEntries)⟩,
    ⟨0 < s.backlog.toInt, .config .backlog⟩,
    ⟨1 ≤ s.poolEntries ∧ s.poolEntries ≤ FreeList.maxSlots, .config .poolEntries⟩,
    ⟨1 ≤ s.poolEntrySize, .config .poolEntrySize⟩] ++
  ringRequirements [] s.rings

/-- All that is asked of the settings, in the order in which it is checked. -/
def requirements (s : Settings) : List Requirement :=
  s.partRequirements ++ [⟨s.receiveGroup ∈ s.rings.map (·.group), .unknownGroup s.receiveGroup⟩]

/-- Settings that a server can be started with, as far as can be told beforehand. -/
structure Consistent (s : Settings) : Prop where
  sqEntries : s.sqEntries.toNat.isPowerOfTwo ∧ s.sqEntries.toNat ≤ 32768
  backlog : 0 < s.backlog.toInt
  poolEntries : 1 ≤ s.poolEntries ∧ s.poolEntries ≤ 65535
  poolEntrySize : 1 ≤ s.poolEntrySize
  rings : ∀ p ∈ s.rings, p.IsValid
  groups : (s.rings.map (·.group)).Nodup
  receiveGroup : s.receiveGroup ∈ s.rings.map (·.group)

variable {s : Settings}

theorem requirements_met_iff : (∀ r ∈ s.requirements, r.met) ↔ s.Consistent := by
  simp only [requirements, partRequirements, List.forall_mem_append, List.forall_mem_cons,
    ringRequirements_met_iff, List.not_mem_nil, not_false_iff, false_imp_iff, implies_true,
    and_true]
  constructor
  · rintro ⟨⟨⟨queue, backlog, entries, size⟩, rings, groups⟩, receive⟩
    exact ⟨queue, backlog, entries, size, rings, groups, receive⟩
  · intro h
    exact ⟨⟨⟨h.sqEntries, h.backlog, h.poolEntries, h.poolEntrySize⟩, h.rings, h.groups⟩,
      h.receiveGroup⟩

theorem validate_checks (s : Settings) : Checks s.requirements s.validate := by
  unfold validate requirements partRequirements
  refine .guard ?_ rfl (.guard ?_ rfl (.guard Iff.rfl rfl (.guard Iff.rfl rfl ?_)))
  · rw [Bool.and_eq_true, RingParams.isPowerOfTwo_iff, decide_eq_true_iff]
  · exact Int32.lt_iff_toInt_lt
  refine (validateRings_checks (fun _ => Iff.rfl) s.rings).bind fun groups hg => ?_
  refine .guard ?_ rfl (.ok ())
  rw [mem_of_validateRings hg, or_iff_right List.not_mem_nil]

/-- Only the last requirement is about a group that is not there. -/
theorem config_of_mem_partRequirements (h : r ∈ s.partRequirements) :
    ∃ cause, r.fault = .config cause := by
  rcases List.mem_append.mp h with own | h
  · simp only [List.mem_cons, List.not_mem_nil, or_false] at own
    rcases own with rfl | rfl | rfl | rfl <;> exact ⟨_, rfl⟩
  · exact config_of_mem_ringRequirements h

/-- The check accepts the consistent settings, and reports the first violation of any others. That
the receive group is unknown is reported only if nothing else is wrong. -/
theorem first_violation_is_reported (s : Settings) :
    (s.validate = .ok () ↔ s.Consistent) ∧
      (∀ f, s.validate = .error f ↔ FirstUnmet s.requirements f) ∧
      ∀ g, s.validate = .error (.unknownGroup g) ↔ g = s.receiveGroup ∧
        g ∉ s.rings.map (·.group) ∧ ∀ r ∈ s.requirements, r.fault ≠ .unknownGroup g → r.met := by
  have checks := s.validate_checks
  refine ⟨checks.eq_ok_iff.trans requirements_met_iff, fun f => checks.eq_error_iff, fun g => ?_⟩
  rw [checks.eq_error_iff]
  constructor
  · intro h
    rcases h.of_append_singleton with early | ⟨all, unknown, e⟩
    · obtain ⟨r, hr, e⟩ := early.exists_mem
      obtain ⟨cause, config⟩ := config_of_mem_partRequirements hr
      rw [e] at config
      cases config
    · cases e
      refine ⟨rfl, unknown, fun r hr other => ?_⟩
      rcases List.mem_append.mp hr with part | last
      · exact all r part
      · exact absurd (by rw [List.mem_singleton.mp last]) other
  · rintro ⟨rfl, unknown, rest⟩
    refine .after (fun r hr => rest r (List.mem_append_left _ hr) fun e => ?_) (.here unknown)
    obtain ⟨cause, config⟩ := config_of_mem_partRequirements hr
    rw [e] at config
    cases config

/-- The second ring is wrong three times over, and no ring receives. -/
example : { default with rings := [⟨16, 1024, 0⟩, ⟨12, 0, 0⟩], receiveGroup := 9 }.validate =
    .error (.config (.ringEntries 0 12)) := by
  decide

end RingServer.Settings
