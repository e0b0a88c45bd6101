import RingServer.EventLoop

/-!
Steps of the event loop as functions on loops. `exec` runs a step; the `exec_` lemmas say what the
small steps do. A relation `R l fault m` between a loop, the fault that ended a step, if one did,
and the loop after it is kept by a step (`Keeps`) if it holds whatever loop the step starts from.
`Composable` relations pass from the parts of a step to the whole (`Keeps.bind`).
-/

namespace RingServer.EventLoop

variable {β ρ σ α γ : Type}

/-- What a step does to a loop: its answer or the fault that ended it, and the loop after it. -/
def exec (f : LoopM β ρ σ α) (l : EventLoop β ρ σ) : Except Fault α × EventLoop β ρ σ := f.run.run l

theorem exec_throw (e : Fault) (l : EventLoop β ρ σ) :
    exec (throw e : LoopM β ρ σ α) l = (.error e, l) := rfl

theorem exec_bind (f : LoopM β ρ σ α) (g : α → LoopM β ρ σ γ) (l : EventLoop β ρ σ) :
    exec (f >>= g) l = match exec f l with
      | (.ok a, m) => exec (g a) m
      | (.error e, m) => (.error e, m) := by
  simp only [exec, ExceptT.run_bind, StateT.run_bind]
  rcases f.run.run l with ⟨a | a, m⟩ <;> rfl

theorem exec_bind_ok {f : LoopM β ρ σ α} {g : α → LoopM β ρ σ γ} {l m : EventLoop β ρ σ} {a : α}
    (h : exec f l = (.ok a, m)) : exec (f >>= g) l = exec (g a) m := by
  rw [exec_bind, h]

theorem exec_bind_error {f : LoopM β ρ σ α} {g : α → LoopM β ρ σ γ} {l m : EventLoop β ρ σ}
    {e : Fault} (h : exec f l = (.error e, m)) : exec (f >>= g) l = (.error e, m) := by
  rw [exec_bind, h]

theorem exec_get (l : EventLoop β ρ σ) : exec (get : LoopM β ρ σ _) l = (.ok l, l) := rfl

theorem exec_modify (f : EventLoop β ρ σ → EventLoop β ρ σ) (l : EventLoop β ρ σ) :
    exec (modify f : LoopM β ρ σ Unit) l = (.ok (), f l) := rfl

theorem exec_modifyGet (f : EventLoop β ρ σ → α × EventLoop β ρ σ) (l : EventLoop β ρ σ) :
    exec (modifyGet f : LoopM β ρ σ α) l = (.ok (f l).1, (f l).2) := rfl

theorem exec_liftExcept (x : Except Fault α) (l : EventLoop β ρ σ) :
    exec (liftExcept x : LoopM β ρ σ α) l = (x, l) := by
  cases x <;> rfl

/-- A step whose fault is kept as an answer does what the step does, and does not fail. -/
theorem exec_lift (f : LoopM β ρ σ α) (l : EventLoop β ρ σ) :
    exec (ExceptT.lift f.run : LoopM β ρ σ _) l = (.ok (exec f l).1, (exec f l).2) := rfl

theorem exec_emit (level : Level) (message : String) (fields : List (String × String))
    (l : EventLoop β ρ σ) : exec (emit level message fields) l =
      (.ok (), { l with events := l.events.push ⟨level, message, fields⟩ }) := rfl

theorem exec_count (f : Counters → Counters) (l : EventLoop β ρ σ) :
    exec (count f) l = (.ok (), { l with counters := f l.counters }) := rfl

theorem exec_submit [Backend β] (tag : Tag) (operation : Operation) (l : EventLoop β ρ σ) :
    exec (submit tag operation) l =
      ((Backend.push l.pool.memory ⟨tag, operation⟩ l.backend).1,
        { l with backend := (Backend.push l.pool.memory ⟨tag, operation⟩ l.backend).2 }) := by
  rw [submit, exec_bind_ok (exec_modifyGet _ l), exec_liftExcept]

theorem exec_flush [Backend β] (l : EventLoop β ρ σ) :
    exec flush l = ((Backend.flush l.pool.memory l.backend).1.map fun _ => (),
      { l with backend := (Backend.flush l.pool.memory l.backend).2 }) := by
  rw [flush, exec_bind_ok (exec_modifyGet _ l)]
  rcases h : Backend.flush l.pool.memory l.backend with ⟨e | n, b⟩ <;> rfl

theorem exec_updateTable (f : ConnectionTable → Bool × ConnectionTable) (l : EventLoop β ρ σ) :
    exec (updateTable f) l =
      (.ok (f l.connections).1, { l with connections := (f l.connections).2 }) := rfl

theorem exec_of_ok {f : LoopM β ρ σ α} {l : EventLoop β ρ σ} {a : α}
    (h : (exec f l).1 = .ok a) : exec f l = (.ok a, (exec f l).2) :=
  Prod.ext h rfl

theorem exec_forM_append {as bs : List α} {f : α → LoopM β ρ σ Unit}
    {l m : EventLoop β ρ σ} (h : exec ((as ++ bs).forM f) l = (.ok (), m)) :
    ∃ k, exec (as.forM f) l = (.ok (), k) ∧ exec (bs.forM f) k = (.ok (), m) := by
  induction as generalizing l with
  | nil => exact ⟨l, rfl, h⟩
  | cons a as ih =>
    have first : exec (f a >>= fun _ => (as ++ bs).forM f) l = (.ok (), m) := h
    rcases he : exec (f a) l with ⟨e | x, k⟩
    · rw [exec_bind_error he] at first
      cases first
    · rw [exec_bind_ok he] at first
      obtain ⟨k', hk, hm⟩ := ih first
      exact ⟨k', (exec_bind_ok he).trans hk, hm⟩

/-! ## Relations that steps keep -/

/-- The fault in an outcome. -/
def fault? : Except Fault α → Option Fault
  | .ok _ => none
  | .error e => some e

/-- A loop, the fault that ended a step, and the loop after it. -/
abbrev StepRelation (β ρ σ : Type) := EventLoop β ρ σ → Option Fault → EventLoop β ρ σ → Prop

/-- The relation holds for a step from `l`. -/
def Ends (R : StepRelation β ρ σ) (f : LoopM β ρ σ α) (l : EventLoop β ρ σ) : Prop :=
  R l (fault? (exec f l).1) (exec f l).2

/-- The relation holds for a step wherever it starts. -/
def Keeps (R : StepRelation β ρ σ) (f : LoopM β ρ σ α) : Prop := ∀ l, Ends R f l

/-- A relation that holds of doing nothing and passes through an intermediate loop. -/
structure Composable (R : StepRelation β ρ σ) : Prop where
  refl : ∀ l, R l none l
  trans : ∀ {l m n x}, R l none m → R m x n → R l x n

variable {R : StepRelation β ρ σ}

theorem Ends.of_exec {f : LoopM β ρ σ α} {l m : EventLoop β ρ σ} {x : Except Fault α}
    (h : exec f l = (x, m)) (hr : R l (fault? x) m) : Ends R f l := by
  rw [Ends, h]
  exact hr

theorem Ends.to_exec {f : LoopM β ρ σ α} {l m : EventLoop β ρ σ} {x : Except Fault α}
    (hr : Ends R f l) (h : exec f l = (x, m)) : R l (fault? x) m := by
  rw [Ends, h] at hr
  exact hr

theorem Ends.bind (hR : Composable R) {f : LoopM β ρ σ α} {g : α → LoopM β ρ σ γ}
    {l : EventLoop β ρ σ} (hf : Ends R f l)
    (hg : ∀ a m, exec f l = (.ok a, m) → Ends R (g a) m) : Ends R (f >>= g) l := by
  rcases h : exec f l with ⟨e | a, m⟩
  · exact Ends.of_exec (exec_bind_error h) (hf.to_exec h)
  · rw [Ends, exec_bind_ok h]
    exact hR.trans (hf.to_exec h) (hg a m h)

theorem Keeps.bind (hR : Composable R) {f : LoopM β ρ σ α} {g : α → LoopM β ρ σ γ}
    (hf : Keeps R f) (hg : ∀ a, Keeps R (g a)) : Keeps R (f >>= g) :=
  fun l => (hf l).bind hR fun a m _ => hg a m

theorem Keeps.pure (hR : Composable R) (a : α) : Keeps R (Pure.pure a : LoopM β ρ σ α) :=
  fun l => hR.refl l

theorem Keeps.ite {p : Prop} [Decidable p] {f g : LoopM β ρ σ α} (hf : Keeps R f)
    (hg : Keeps R g) : Keeps R (if p then f else g) := by
  split
  · exact hf
  · exact hg

theorem Keeps.forM (hR : Composable R) {f : α → LoopM β ρ σ Unit} (hf : ∀ a, Keeps R (f a))
    (as : List α) : Keeps R (as.forM f) := by
  induction as with
  | nil => exact Keeps.pure hR ()
  | cons a as ih => exact Keeps.bind hR (hf a) fun _ => ih

theorem Keeps.flush [Backend β] (h : ∀ (l : EventLoop β ρ σ) x,
    R l x { l with backend := (Backend.flush l.pool.memory l.backend).2 }) :
    Keeps R EventLoop.flush := by
  intro l
  rw [Ends, exec_flush]
  exact h l _

/-- Listening is noted, armed and submitted, and then it is told. -/
theorem Keeps.listen [Backend β] (hR : Composable R) {fd : Descriptor}
    (noted : ∀ l : EventLoop β ρ σ, R l none { l with listener := some fd })
    (armed : Keeps R (armAccept fd))
    (flushed : ∀ (l : EventLoop β ρ σ) x,
      R l x { l with backend := (Backend.flush l.pool.memory l.backend).2 })
    (told : ∀ (l : EventLoop β ρ σ) events, R l none { l with events := events }) :
    Keeps R (EventLoop.listen fd) :=
  Keeps.bind hR noted fun _ => Keeps.bind hR armed fun _ =>
    Keeps.bind hR (Keeps.flush flushed) fun _ l => told l _

/-- A step that begins with looking at the loop. -/
theorem Keeps.get_bind {g : EventLoop β ρ σ → LoopM β ρ σ γ} (h : ∀ l, Ends R (g l) l) :
    Keeps R (get >>= g) := by
  intro l
  rw [Ends, exec_bind_ok (exec_get l)]
  exact h l

end RingServer.EventLoop
