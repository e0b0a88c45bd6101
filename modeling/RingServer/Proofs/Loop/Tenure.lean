import RingServer.Proofs.Loop.Sending

/-!
What a history says of one descriptor: everything since it was accepted last (`tenure`). A tenure
begins with an accept completion that reports the descriptor. It ends with the next completion of a
close that names it, and is kept until the descriptor is accepted again.
-/

namespace RingServer

open Text (Bytes)

/-- The operation is one of those that a connection on `d` is served with. Fixed writes to standard
error are left out, as log lines go there too. -/
def Operation.serves (d : Descriptor) : Operation → Bool
  | .receive fd _ | .send fd _ | .shutdown fd | .close fd => fd = d
  | .writeFixed fd _ => fd = d ∧ fd ≠ standardError
  | .accept _ | .write _ _ => false

/-- What of a step serves the connection on `d`. -/
def served (d : Descriptor) (ps : List Submission) : List Operation :=
  (ps.map (·.operation)).filter (·.serves d)

/-- The messages on `d` among the calls of a step. -/
def messages (d : Descriptor) (cs : List Call) : List Bytes :=
  (cs.filter (·.1 = d)).map (·.2)

namespace Occurrence

/-- The step is the accept of `d`. -/
def accepts (d : Descriptor) (o : Occurrence) : Bool :=
  o.completion.any fun c => c.tag.opcode? = some .accept ∧ ¬ c.result < 0 ∧ c.result = d

/-- The step is the completion of a close of `d`. -/
def closes (d : Descriptor) (o : Occurrence) : Bool :=
  o.completion.any fun c => c.tag.opcode? = some .close ∧ c.tag.descriptor.toInt32 = d

variable {d : Descriptor} {c : Completion} {peerOf : Descriptor → Option SocketAddress}
  {ps : List Submission} {cs : List Call}

theorem accepts_some : accepts d ⟨some c, peerOf, ps, cs⟩ = true ↔
    c.tag.opcode? = some .accept ∧ ¬ c.result < 0 ∧ c.result = d := by
  rw [accepts, Option.any_some, decide_eq_true_eq]

theorem closes_some : closes d ⟨some c, peerOf, ps, cs⟩ = true ↔
    c.tag.opcode? = some .close ∧ c.tag.descriptor.toInt32 = d := by
  rw [closes, Option.any_some, decide_eq_true_eq]

/-- No step is both. -/
theorem closes_eq_false {o : Occurrence} (h : o.accepts d = true) : o.closes d = false := by
  obtain ⟨_ | c, peerOf, ps, cs⟩ := o
  · rfl
  · rw [accepts_some] at h
    rw [Bool.eq_false_iff, ne_eq, closes_some, h.1]
    simp

end Occurrence

/-- What is known of a descriptor since it was accepted last. -/
structure Tenure where
  peer : Option SocketAddress
  pushed : List Operation
  messages : List Bytes
  /-- The completion of a close has named the descriptor. -/
  closed : Bool
  deriving DecidableEq

namespace Tenure

def begin (peer : Option SocketAddress) : Tenure := ⟨peer, [], [], false⟩

def extend (d : Descriptor) (o : Occurrence) (t : Tenure) : Tenure where
  peer := t.peer
  pushed := t.pushed ++ served d o.pushed
  messages := t.messages ++ RingServer.messages d o.calls
  closed := t.closed || o.closes d

end Tenure

/-- The tenure of a descriptor after a history, if it was ever accepted. -/
def tenure (d : Descriptor) : List Occurrence → Option Tenure :=
  List.foldl (fun t o =>
    (if o.accepts d then some (.begin (o.peerOf d)) else t).map (Tenure.extend d o)) none

theorem tenure_append (d : Descriptor) (h : List Occurrence) (o : Occurrence) :
    tenure d (h ++ [o]) = (if o.accepts d then some (.begin (o.peerOf d))
      else tenure d h).map (Tenure.extend d o) := by
  rw [tenure, List.foldl_append]
  rfl

@[simp]
theorem served_nil (d : Descriptor) : served d [] = [] := rfl

@[simp]
theorem messages_nil (d : Descriptor) : messages d [] = [] := rfl

theorem served_append (d : Descriptor) (ps qs : List Submission) :
    served d (ps ++ qs) = served d ps ++ served d qs := by
  rw [served, List.map_append, List.filter_append]
  rfl

theorem messages_append (d : Descriptor) (cs ds : List Call) :
    messages d (cs ++ ds) = messages d cs ++ messages d ds := by
  rw [messages, List.filter_append, List.map_append]
  rfl

theorem served_singleton (d : Descriptor) (s : Submission) :
    served d [s] = if s.operation.serves d then [s.operation] else [] := by
  by_cases hs : s.operation.serves d <;> simp [served, hs]

namespace EventLoop

variable {β ρ σ : Type}

/-- The table with which a step begins. -/
theorem get?_begun (c : Option Completion) (l : Watched β ρ σ) (ps : List Submission)
    (cs : List Call) (d : Descriptor) : (begun c l).connections.get? d =
      if Occurrence.accepts d ⟨c, l.peerOf, ps, cs⟩ then some (.fresh (l.peerOf d))
      else if Occurrence.closes d ⟨c, l.peerOf, ps, cs⟩ then none else l.connections.get? d := by
  cases c with
  | none => rfl
  | some c =>
    have e : begun (some c) l = prepared c l := rfl
    rw [e, prepared]
    simp only [Occurrence.accepts_some, Occurrence.closes_some]
    split
    next ho =>
      split
      next hr => simp [ho, hr]
      next hr =>
        rw [tracked, ConnectionTable.get?_cons, ConnectionTable.get?_erase]
        by_cases e : d = c.result
        · simp [ho, hr, e]
        · simp [ho, hr, e, Ne.symm e]
    next ho =>
      rw [untracked, ConnectionTable.get?_erase]
      by_cases e : d = c.tag.descriptor.toInt32
      · simp [ho, e]
      · simp [ho, e, Ne.symm e]
    next h1 h2 => rw [if_neg fun h => h1 h.1, if_neg fun h => h2 h.1]

end EventLoop

end RingServer
