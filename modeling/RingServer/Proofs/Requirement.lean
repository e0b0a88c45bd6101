import RingServer.Fault

/-!
Checks that stop at the first requirement that is not met. `Checks rs x` says that this is what `x`
does for a list of requirements: it passes if and only if all of them are met, and otherwise has the
fault of the first that is not (`Checks.eq_ok_iff`, `Checks.eq_error_iff`). Checks are put together
as their lists are (`Checks.guard`, `Checks.bind`).
-/

namespace RingServer

/-- Something that is asked for, and the fault that tells that it is missing. -/
structure Requirement where
  met : Prop
  fault : Fault

/-- The fault is that of the first requirement that is not met. -/
inductive FirstUnmet : List Requirement → Fault → Prop
  | here {r : Requirement} {rs : List Requirement} (h : ¬r.met) : FirstUnmet (r :: rs) r.fault
  | later {r : Requirement} {rs : List Requirement} {f : Fault} (h : r.met) (hf : FirstUnmet rs f) :
      FirstUnmet (r :: rs) f

/-- A computation that stops at the first requirement that is not met. -/
structure Checks {α : Type} (rs : List Requirement) (x : Except Fault α) : Prop where
  passed : ∀ a, x = .ok a → ∀ r ∈ rs, r.met
  failed : ∀ f, x = .error f → FirstUnmet rs f

variable {α β : Type} {r : Requirement} {rs ss : List Requirement} {f g : Fault}
  {x : Except Fault α}

namespace FirstUnmet

theorem not_all_met (h : FirstUnmet rs f) : ¬∀ r ∈ rs, r.met := by
  intro all
  induction h with
  | here h => exact h (all _ List.mem_cons_self)
  | later _ _ ih => exact ih fun q hq => all q (List.mem_cons_of_mem _ hq)

theorem unique (h : FirstUnmet rs f) (h' : FirstUnmet rs g) : f = g := by
  induction h with
  | here h =>
    cases h' with
    | here => rfl
    | later met => exact absurd met h
  | later met _ ih =>
    cases h' with
    | here h => exact absurd met h
    | later _ rest => exact ih rest

theorem append (h : FirstUnmet rs f) (ss : List Requirement) : FirstUnmet (rs ++ ss) f := by
  induction h with
  | here h => exact .here h
  | later met _ ih => exact .later met ih

theorem after (met : ∀ r ∈ rs, r.met) (h : FirstUnmet ss f) : FirstUnmet (rs ++ ss) f := by
  induction rs with
  | nil => exact h
  | cons r rs ih =>
    exact .later (met r List.mem_cons_self) (ih fun q hq => met q (List.mem_cons_of_mem _ hq))

/-- Of requirements with a last one, it is an earlier one that is missing first, or the last. -/
theorem of_append_singleton (h : FirstUnmet (rs ++ [r]) f) :
    FirstUnmet rs f ∨ (∀ q ∈ rs, q.met) ∧ ¬r.met ∧ r.fault = f := by
  induction rs with
  | nil =>
    cases h with
    | here h => exact .inr ⟨nofun, h, rfl⟩
    | later _ rest => cases rest
  | cons q rs ih =>
    cases h with
    | here h => exact .inl (.here h)
    | later met rest =>
      rcases ih rest with early | ⟨all, last⟩
      · exact .inl (.later met early)
      · exact .inr ⟨List.forall_mem_cons.mpr ⟨met, all⟩, last⟩

theorem exists_mem (h : FirstUnmet rs f) : ∃ r ∈ rs, r.fault = f := by
  induction h with
  | here => exact ⟨_, List.mem_cons_self, rfl⟩
  | later _ _ ih =>
    obtain ⟨r, hr, e⟩ := ih
    exact ⟨r, List.mem_cons_of_mem _ hr, e⟩

theorem not_nil : ¬FirstUnmet [] f := nofun

theorem cons_iff :
    FirstUnmet (r :: rs) f ↔ ¬r.met ∧ r.fault = f ∨ r.met ∧ FirstUnmet rs f := by
  constructor
  · rintro (h | ⟨met, rest⟩)
    · exact .inl ⟨h, rfl⟩
    · exact .inr ⟨met, rest⟩
  · rintro (⟨h, rfl⟩ | ⟨met, rest⟩)
    · exact .here h
    · exact .later met rest

end FirstUnmet

namespace Checks

theorem ok (a : α) : Checks [] (.ok a) := ⟨fun _ _ => nofun, nofun⟩

/-- A requirement that is tested before the rest. -/
theorem guard {c : Prop} [Decidable c] {y : Except Fault α} (hc : c ↔ r.met)
    (hy : y = .error r.fault) (hx : Checks rs x) : Checks (r :: rs) (if c then x else y) := by
  split
  next h =>
    have met := hc.mp h
    exact ⟨fun a ha => List.forall_mem_cons.mpr ⟨met, hx.passed a ha⟩,
      fun f hf => .later met (hx.failed f hf)⟩
  next h =>
    have unmet := mt hc.mpr h
    subst hy
    refine ⟨nofun, fun f hf => ?_⟩
    cases hf
    exact .here unmet

/-- What the rest checks may depend on what has been found so far. -/
theorem bind {k : α → Except Fault β} (hx : Checks rs x) (hk : ∀ a, x = .ok a → Checks ss (k a)) :
    Checks (rs ++ ss) (x >>= k) := by
  cases x with
  | error e =>
    refine ⟨nofun, fun f hf => ?_⟩
    cases hf
    exact (hx.failed e rfl).append ss
  | ok a =>
    have met := hx.passed a rfl
    have rest := hk a rfl
    refine ⟨fun b hb => ?_, fun f hf => .after met (rest.failed f hf)⟩
    exact List.forall_mem_append.mpr ⟨met, rest.passed b hb⟩

theorem eq_ok_iff {x : Except Fault Unit} (h : Checks rs x) : x = .ok () ↔ ∀ r ∈ rs, r.met := by
  refine ⟨h.passed (), fun all => ?_⟩
  cases x with
  | error f => exact absurd all (h.failed f rfl).not_all_met
  | ok u => rfl

theorem exists_ok_iff (h : Checks rs x) : (∃ a, x = .ok a) ↔ ∀ r ∈ rs, r.met := by
  refine ⟨fun ⟨a, ha⟩ => h.passed a ha, fun all => ?_⟩
  cases x with
  | error f => exact absurd all (h.failed f rfl).not_all_met
  | ok a => exact ⟨a, rfl⟩

theorem eq_error_iff (h : Checks rs x) : x = .error f ↔ FirstUnmet rs f := by
  refine ⟨h.failed f, fun unmet => ?_⟩
  cases x with
  | error g => rw [(h.failed g rfl).unique unmet]
  | ok a => exact absurd (h.passed a rfl) unmet.not_all_met

end Checks

end RingServer
