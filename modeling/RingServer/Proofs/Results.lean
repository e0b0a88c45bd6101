import Mathlib.Data.List.Forall2

/-!
Computations that end in a value or in a fault. Of several on end the first fault is the answer, and
a value comes out only if every one of them has given its own (`mapM_eq_ok_iff`,
`mapM_eq_error_iff`).
-/

namespace RingServer

variable {ε α β : Type} {x : Except ε α} {a : α} {b : β} {e : ε}

theorem toOption_eq_some_iff : x.toOption = some a ↔ x = .ok a := by
  cases x <;> simp [Except.toOption]

theorem map_eq_ok_iff {f : α → β} : x.map f = .ok b ↔ ∃ a, x = .ok a ∧ f a = b := by
  cases x <;> simp [Except.map]

section Bind

variable {k : α → Except ε β}

theorem bind_eq_ok_iff : x >>= k = .ok b ↔ ∃ a, x = .ok a ∧ k a = .ok b := by
  cases x <;> simp [bind, Except.bind]

theorem bind_eq_error_iff :
    x >>= k = .error e ↔ x = .error e ∨ ∃ a, x = .ok a ∧ k a = .error e := by
  cases x <;> simp [bind, Except.bind]

end Bind

section Lists

variable {read : β → Except ε α} {bs : List β} {as : List α}

theorem mapM_cons_eq_ok_iff : (b :: bs).mapM read = .ok as ↔
    ∃ a rest, read b = .ok a ∧ bs.mapM read = .ok rest ∧ as = a :: rest := by
  rw [List.mapM_cons, bind_eq_ok_iff]
  refine exists_congr fun a => ?_
  rw [bind_eq_ok_iff, ← exists_and_left]
  refine exists_congr fun rest => and_congr_right fun _ => and_congr_right fun _ => ?_
  rw [pure, eq_comm]
  exact ⟨Except.ok.inj, congrArg _⟩

theorem mapM_eq_ok_iff :
    bs.mapM read = .ok as ↔ List.Forall₂ (fun b a => read b = .ok a) bs as := by
  induction bs generalizing as with
  | nil =>
    rw [List.mapM_nil, List.forall₂_nil_left_iff, eq_comm]
    exact ⟨Except.ok.inj, congrArg _⟩
  | cons b bs ih =>
    rw [mapM_cons_eq_ok_iff, List.forall₂_cons_left_iff]
    simp only [ih]

theorem exists_of_mapM_eq_ok (h : bs.mapM read = .ok as) : ∀ b ∈ bs, ∃ a, read b = .ok a := by
  rw [mapM_eq_ok_iff] at h
  induction h with
  | nil => exact nofun
  | cons hb _ ih => exact List.forall_mem_cons.mpr ⟨⟨_, hb⟩, ih⟩

theorem mapM_cons_eq_error_iff : (b :: bs).mapM read = .error e ↔
    read b = .error e ∨ ∃ a, read b = .ok a ∧ bs.mapM read = .error e := by
  rw [List.mapM_cons, bind_eq_error_iff]
  refine or_congr_right (exists_congr fun a => and_congr_right fun _ => ?_)
  rw [bind_eq_error_iff]
  refine ⟨fun h => h.resolve_right ?_, .inl⟩
  rintro ⟨rest, -, h⟩
  cases h

theorem mapM_eq_error_iff : bs.mapM read = .error e ↔ ∃ before b after,
    bs = before ++ b :: after ∧ (∀ q ∈ before, ∃ a, read q = .ok a) ∧ read b = .error e := by
  induction bs with
  | nil => simp [pure, Except.pure]
  | cons b bs ih =>
    rw [mapM_cons_eq_error_iff]
    constructor
    · rintro (bad | ⟨a, fine, h⟩)
      · exact ⟨[], b, bs, rfl, nofun, bad⟩
      · obtain ⟨before, q, after, rfl, all, bad⟩ := ih.mp h
        exact ⟨b :: before, q, after, rfl, List.forall_mem_cons.mpr ⟨⟨a, fine⟩, all⟩, bad⟩
    · rintro ⟨before, q, after, parts, all, bad⟩
      cases before with
      | nil =>
        cases parts
        exact .inl bad
      | cons first before =>
        cases parts
        obtain ⟨⟨a, fine⟩, all⟩ := List.forall_mem_cons.mp all
        exact .inr ⟨a, fine, ih.mpr ⟨before, q, after, rfl, all, bad⟩⟩

end Lists

end RingServer
