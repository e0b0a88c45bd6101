/-!
Requests put to a system one after another. Two systems that answer each request alike, in states
that belong together, cannot be told apart by any number of them (`serve_agrees`).
-/

namespace RingServer.Requests

variable {α β σ τ : Type} {act : α → σ → β × σ} {act' : α → τ → β × τ}

/-- The answers of a system to a list of requests, and the system after them. -/
def serve (act : α → σ → β × σ) : List α → σ → List β × σ
  | [], s => ([], s)
  | r :: rest, s =>
    let (answer, t) := act r s
    let (answers, u) := serve act rest t
    (answer :: answers, u)

/-- Every request is allowed in the state that it finds. -/
def Allowed (act : α → σ → β × σ) (may : α → σ → Prop) : List α → σ → Prop
  | [], _ => True
  | r :: rest, s => may r s ∧ Allowed act may rest (act r s).2

instance (may : α → σ → Prop) [∀ r s, Decidable (may r s)] :
    ∀ requests s, Decidable (Allowed act may requests s)
  | [], _ => inferInstanceAs (Decidable True)
  | r :: rest, s =>
    have : Decidable (Allowed act may rest (act r s).2) :=
      instDecidableAllowed may rest (act r s).2
    inferInstanceAs (Decidable (_ ∧ _))

/-- What every request keeps is kept by all of them. -/
theorem serve_keeps {P : σ → Prop} (step : ∀ r s, P s → P (act r s).2) (requests : List α) {s : σ}
    (h : P s) : P (serve act requests s).2 := by
  induction requests generalizing s with
  | nil => exact h
  | cons r rest ih => exact ih (step r s h)

theorem allowed_true (requests : List α) (s : σ) : Allowed act (fun _ _ => True) requests s := by
  induction requests generalizing s with
  | nil => trivial
  | cons r rest ih => exact ⟨trivial, ih _⟩

/-- States that `R` relates allow the same requests and answer them alike. -/
theorem serve_agrees {may : α → σ → Prop} {may' : α → τ → Prop} {R : σ → τ → Prop}
    (guard : ∀ {s t}, R s t → ∀ r, may r s ↔ may' r t)
    (step : ∀ {s t}, R s t → ∀ r, may r s → (act r s).1 = (act' r t).1 ∧ R (act r s).2 (act' r t).2)
    (requests : List α) {s : σ} {t : τ} (h : R s t) :
    (Allowed act may requests s ↔ Allowed act' may' requests t) ∧
      (Allowed act may requests s → (serve act requests s).1 = (serve act' requests t).1 ∧
        R (serve act requests s).2 (serve act' requests t).2) := by
  induction requests generalizing s t with
  | nil => exact ⟨Iff.rfl, fun _ => ⟨rfl, h⟩⟩
  | cons r rest ih =>
    constructor
    · refine Iff.trans (and_congr_right fun hr => ?_) (and_congr_left fun _ => guard h r)
      exact (ih (step h r hr).2).1
    · rintro ⟨hr, hrest⟩
      obtain ⟨answer, next⟩ := step h r hr
      obtain ⟨answers, last⟩ := (ih next).2 hrest
      exact ⟨congr (congrArg List.cons answer) answers, last⟩

/-- Where every request is allowed. -/
theorem serve_alike {R : σ → τ → Prop}
    (step : ∀ {s t}, R s t → ∀ r, (act r s).1 = (act' r t).1 ∧ R (act r s).2 (act' r t).2)
    (requests : List α) {s : σ} {t : τ} (h : R s t) :
    (serve act requests s).1 = (serve act' requests t).1 ∧
      R (serve act requests s).2 (serve act' requests t).2 := by
  have guard : ∀ {s t}, R s t → ∀ r : α,
      (fun (_ : α) (_ : σ) => True) r s ↔ (fun (_ : α) (_ : τ) => True) r t := fun _ _ => Iff.rfl
  have all := serve_agrees (R := R) guard (fun h r _ => step h r) requests h
  exact all.2 (allowed_true requests s)

end RingServer.Requests
