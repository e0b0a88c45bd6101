import RingServer.Completion

/-!
Completion queue of bounded size. A completion that finds no room waits in a backlog, and so do all
after it, until the server enters the kernel again; no completion is lost and none overtakes
another.
-/
namespace RingServer.Kernel

structure CompletionQueue where
  capacity : Nat
  ready : List Completion
  backlog : List Completion
  deriving Repr

namespace CompletionQueue

def new (capacity : Nat) : CompletionQueue := ⟨capacity, [], []⟩

def post (c : Completion) (q : CompletionQueue) : CompletionQueue :=
  if q.backlog.isEmpty && q.ready.length < q.capacity then { q with ready := q.ready ++ [c] }
  else { q with backlog := q.backlog ++ [c] }

def postAll (cs : List Completion) (q : CompletionQueue) : CompletionQueue :=
  cs.foldl (fun q c => q.post c) q

/-- Moves as much of the backlog into the queue as there is room for. -/
def refill (q : CompletionQueue) : CompletionQueue :=
  let room := q.capacity - q.ready.length
  { q with ready := q.ready ++ q.backlog.take room, backlog := q.backlog.drop room }

def drain (q : CompletionQueue) : List Completion × CompletionQueue :=
  (q.ready, { q with ready := [] })

/-- All completions that were posted and not drained, in order. -/
def toList (q : CompletionQueue) : List Completion := q.ready ++ q.backlog

theorem toList_post (c : Completion) (q : CompletionQueue) :
    (q.post c).toList = q.toList ++ [c] := by
  unfold post toList
  cases h : q.backlog <;> by_cases hr : q.ready.length < q.capacity <;> simp [hr]

theorem toList_postAll (cs : List Completion) (q : CompletionQueue) :
    (q.postAll cs).toList = q.toList ++ cs := by
  unfold postAll
  induction cs generalizing q with
  | nil => simp
  | cons c cs ih => rw [List.foldl_cons, ih, toList_post, List.append_assoc, List.singleton_append]

theorem toList_refill (q : CompletionQueue) : q.refill.toList = q.toList := by
  simp [refill, toList]

end CompletionQueue

end RingServer.Kernel
