import RingServer.Proofs.Loop.History

/-!
What becomes of bytes that are to be sent from a pool slot. A log line (`sends_writeLog`) and a
copied reply (`sends_queueReply`) go the same way: without a free slot they are dropped, otherwise
the slot is filled, lent and pushed as a fixed write.
-/

namespace RingServer.EventLoop

open Text (Bytes)

variable {β ρ σ : Type}

/-- How an attempt to send from a slot ends. What is in the slot does not matter. -/
inductive Sends (fd : Descriptor) (l : Watched β ρ σ) : Except Fault Unit → Watched β ρ σ → Prop
  | dropped {pool : SlotPool} {m : Watched β ρ σ} :
    l.pool.acquire = (none, pool) → Idle { l with pool } m → Sends fd l (.ok ()) m
  | unlent {slot : Slot} {taken filled : SlotPool} {length : Nat} {e : Fault} {m : Watched β ρ σ} :
    l.pool.acquire = (some slot, taken) → filled.free = taken.free →
    filled.lend slot length = .error e → Idle { l with pool := filled } m → Sends fd l (.error e) m
  | refused {slot : Slot} {taken filled lent : SlotPool} {length : Nat} {loan : Loan} {e : Fault}
      {m : Watched β ρ σ} :
    l.pool.acquire = (some slot, taken) → filled.free = taken.free →
    filled.lend slot length = .ok (loan, lent) →
    Idle { l with
      pool := lent
      backend := { l.backend with refusals := l.backend.refusals + 1 } } m →
    Sends fd l (.error e) m
  | pushed {slot : Slot} {taken filled lent : SlotPool} {length : Nat} {loan : Loan}
      {m : Watched β ρ σ} :
    l.pool.acquire = (some slot, taken) → filled.free = taken.free →
    filled.lend slot length = .ok (loan, lent) →
    Idle { l with
      pool := lent
      backend := { l.backend with
        pushed := l.backend.pushed ++ [⟨.onSlot loan.index, .writeFixed fd loan⟩] } } m →
    Sends fd l (.ok ()) m

theorem exec_lendSlot (slot : Slot) (length : Nat) (l : EventLoop β ρ σ) :
    exec (lendSlot slot length) l = match l.pool.lend slot length with
      | .ok (loan, pool) => (.ok loan, { l with pool })
      | .error e => (.error e, l) := by
  unfold lendSlot
  rw [exec_bind_ok (exec_get l)]
  rcases l.pool.lend slot length with e | ⟨loan, pool⟩
  · exact exec_bind_error (exec_liftExcept _ l)
  · rw [exec_bind_ok (exec_liftExcept _ l)]
    exact exec_bind_ok (exec_modify _ l)

variable [Backend β]

/-- A slot that has been acquired and filled is lent and pushed. -/
theorem sends_sendSlot {fd : Descriptor} {slot : Slot} {length : Nat} {taken : SlotPool}
    {l m : Watched β ρ σ} {f : Counters → Counters}
    (ha : l.pool.acquire = (some slot, taken)) (hf : m.pool.free = taken.free)
    (hi : Idle { l with pool := m.pool } m) :
    Sends fd l (exec (sendSlot fd slot length >>= fun _ => count f) m).1
      (exec (sendSlot fd slot length >>= fun _ => count f) m).2 := by
  unfold sendSlot
  rw [bind_assoc]
  have lends := exec_lendSlot slot length m
  rcases hl : m.pool.lend slot length with e | ⟨loan, lent⟩
  · rw [hl] at lends
    rw [exec_bind_error lends]
    exact .unlent ha hf hl hi
  rw [hl] at lends
  rw [exec_bind_ok lends]
  rcases submit_cases (.onSlot loan.index) (.writeFixed fd loan) { m with pool := lent } with
    ⟨inner, he⟩ | ⟨e, inner, he⟩
  · rw [exec_bind_ok he]
    refine .pushed ha hf hl
      ⟨?_, hi.refusals, rfl, hi.handler, hi.handlerState, hi.connections⟩
    exact congrArg (· ++ [_]) hi.pushed
  · rw [exec_bind_error he]
    refine .refused ha hf hl ⟨hi.pushed, ?_, rfl, hi.handler, hi.handlerState, hi.connections⟩
    exact congrArg (· + 1) hi.refusals

theorem sends_writeLog (level : Level) (message : String) (l : Watched β ρ σ) :
    Sends standardError l (exec (writeLog level message) l).1
      (exec (writeLog level message) l).2 := by
  unfold writeLog acquireSlot
  rw [exec_bind_ok (exec_modifyGet _ l)]
  rcases ha : l.pool.acquire with ⟨_ | slot, taken⟩
  · exact .dropped ha ⟨rfl, rfl, rfl, rfl, rfl, rfl⟩
  · show Sends _ l (exec (readClock >>= _) _).1 (exec (readClock >>= _) _).2
    unfold readClock
    rw [exec_bind_ok (exec_modifyGet _ _), exec_bind_ok (exec_modifyGet _ _)]
    exact sends_sendSlot ha rfl ⟨rfl, rfl, rfl, rfl, rfl, rfl⟩

theorem sends_queueReply (fd : Descriptor) (bytes : Bytes) (l : Watched β ρ σ) :
    Sends fd l (exec (queueReply fd (.copied bytes)) l).1
      (exec (queueReply fd (.copied bytes)) l).2 := by
  unfold queueReply acquireSlot
  rw [exec_bind_ok (exec_modifyGet _ l)]
  rcases ha : l.pool.acquire with ⟨_ | slot, taken⟩
  · exact .dropped ha ⟨rfl, rfl, rfl, rfl, rfl, rfl⟩
  · show Sends _ l (exec (get >>= _) _).1 (exec (get >>= _) _).2
    rw [exec_bind_ok (exec_get _), exec_bind_ok (exec_modify _ _)]
    simp only []
    split
    · rw [exec_bind_ok (exec_count _ _), exec_bind_ok (exec_emit _ _ _ _)]
      exact sends_sendSlot ha rfl ⟨rfl, rfl, rfl, rfl, rfl, rfl⟩
    · exact sends_sendSlot ha rfl ⟨rfl, rfl, rfl, rfl, rfl, rfl⟩

omit [Backend β] in
/-- At most the fixed write is new. -/
theorem Sends.adds {fd : Descriptor} {l m : Watched β ρ σ} {x : Except Fault Unit}
    (h : Sends fd l x m) : m.connections = l.connections ∧ ∃ ps, Adds ps [] l m ∧
      (ps = [] ∨ ∃ loan, ps = [⟨.onSlot loan.index, .writeFixed fd loan⟩]) := by
  cases h with
  | dropped _ hi => exact ⟨hi.connections, [], (Adds.of_idle hi).of_eq rfl rfl rfl, Or.inl rfl⟩
  | unlent _ _ _ hi => exact ⟨hi.connections, [], (Adds.of_idle hi).of_eq rfl rfl rfl, Or.inl rfl⟩
  | refused _ _ _ hi =>
    have added := (Adds.refused l l.backend.inner).trans ((Adds.of_idle hi).of_eq rfl rfl rfl)
    exact ⟨hi.connections, [], added, Or.inl rfl⟩
  | @pushed _ _ _ _ _ loan _ _ _ _ hi =>
    have added := (Adds.pushed l l.backend.inner ⟨.onSlot loan.index, .writeFixed fd loan⟩).trans
      ((Adds.of_idle hi).of_eq rfl rfl rfl)
    exact ⟨hi.connections, _, added, Or.inr ⟨loan, rfl⟩⟩

end RingServer.EventLoop
