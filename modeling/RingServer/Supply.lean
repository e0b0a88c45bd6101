/-!
Supplies: what hands out one thing at a time for as long as it has any. `draw` asks up to a given
number of times and stops at the first refusal.
-/
namespace RingServer

/-- Hands out one thing, if one is left. -/
class Supply (σ : Type) (α : outParam Type) where
  next : σ → Option α × σ

namespace Supply

variable {σ α : Type} [Supply σ α]

/-- Appends to `got` what up to `n` requests bring. -/
def drawOnto : Nat → Array α → σ → Array α × σ
  | 0, got, s => (got, s)
  | n + 1, got, s =>
    match next s with
    | (some a, s) => drawOnto n (got.push a) s
    | (none, s) => (got, s)

/-- What up to `n` requests bring, in order. -/
def draw (n : Nat) (s : σ) : List α × σ :=
  let (got, s) := drawOnto n #[] s
  (got.toList, s)

theorem size_drawOnto (n : Nat) (got : Array α) (s : σ) :
    (drawOnto n got s).1.size ≤ got.size + n := by
  induction n generalizing got s with
  | zero => simp [drawOnto]
  | succ n ih =>
    unfold drawOnto
    split
    · exact Nat.le_trans (ih _ _) (by simp; omega)
    · simp

theorem length_draw (n : Nat) (s : σ) : (draw n s).1.length ≤ n := by
  simpa [draw] using size_drawOnto n #[] s

end Supply

end RingServer
