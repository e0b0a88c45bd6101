import RingServer.Text.Bytes

/-!
Byte memory whose unwritten cells read zero, stored as a binary trie over addresses, so that a
region of any size costs only what is written to it. The two laws: a write is seen at its own
addresses (`get_write_inside`) and nowhere else (`get_write_outside`).
-/
namespace RingServer

open Text (Bytes)

/-- Cell 0 is at the root, the odd addresses are below `odd` and the other even ones below
`even`. -/
inductive Memory
  | blank
  | node (cell : UInt8) (odd even : Memory)

namespace Memory

def cell : Memory → UInt8
  | blank => 0
  | node v _ _ => v

def odd : Memory → Memory
  | blank => blank
  | node _ l _ => l

def even : Memory → Memory
  | blank => blank
  | node _ _ r => r

def get : Memory → Nat → UInt8
  | blank, _ => 0
  | node v l r, a =>
    if a = 0 then v else if a % 2 = 1 then l.get ((a - 1) / 2) else r.get ((a - 1) / 2)

/-- Stores a byte at an address that is at most `depth`. -/
def setWithin : Nat → Memory → Nat → UInt8 → Memory
  | 0, m, _, v => node v m.odd m.even
  | depth + 1, m, a, v =>
    if a = 0 then node v m.odd m.even
    else if a % 2 = 1 then node m.cell (m.odd.setWithin depth ((a - 1) / 2) v) m.even
    else node m.cell m.odd (m.even.setWithin depth ((a - 1) / 2) v)

def set (m : Memory) (a : Nat) (v : UInt8) : Memory := setWithin a m a v

theorem get_eq (m : Memory) (a : Nat) :
    m.get a = if a = 0 then m.cell else if a % 2 = 1 then m.odd.get ((a - 1) / 2)
      else m.even.get ((a - 1) / 2) := by
  cases m with
  | blank => simp [get, cell, odd, even]
  | node v l r => rfl

theorem get_node (v : UInt8) (l r : Memory) (a : Nat) :
    (node v l r).get a = if a = 0 then v else if a % 2 = 1 then l.get ((a - 1) / 2)
      else r.get ((a - 1) / 2) := rfl

theorem get_setWithin (depth : Nat) (m : Memory) (a b : Nat) (v : UInt8) (h : a ≤ depth) :
    (setWithin depth m a v).get b = if b = a then v else m.get b := by
  induction depth generalizing m a b with
  | zero =>
    have ha : a = 0 := by omega
    subst ha
    rw [setWithin, get_node, get_eq m]
    split <;> rfl
  | succ depth ih =>
    unfold setWithin
    have hd : (a - 1) / 2 ≤ depth := by omega
    split
    · next ha =>
      subst ha
      rw [get_node, get_eq m]
      split <;> rfl
    · split
      · rw [get_node, get_eq m, ih _ _ _ hd]
        by_cases hb : b = 0
        · subst hb
          have e : 0 ≠ a := by omega
          simp [e]
        · by_cases hp : b % 2 = 1
          · have e : (b - 1) / 2 = (a - 1) / 2 ↔ b = a := by omega
            simp [hb, hp, e]
          · have e : b ≠ a := by omega
            simp [hb, hp, e]
      · rw [get_node, get_eq m, ih _ _ _ hd]
        by_cases hb : b = 0
        · subst hb
          have e : 0 ≠ a := by omega
          simp [e]
        · by_cases hp : b % 2 = 1
          · have e : b ≠ a := by omega
            simp [hb, hp, e]
          · have e : (b - 1) / 2 = (a - 1) / 2 ↔ b = a := by omega
            simp [hb, hp, e]

theorem get_set (m : Memory) (a b : Nat) (v : UInt8) :
    (m.set a v).get b = if b = a then v else m.get b :=
  get_setWithin a m a b v (Nat.le_refl a)

/-- The bytes of `n` cells from address `a`. -/
def read (m : Memory) (a n : Nat) : Bytes := (List.range n).map fun i => m.get (a + i)

/-- Stores bytes from address `a` on. -/
def write (m : Memory) (a : Nat) : Bytes → Memory
  | [] => m
  | b :: bs => (m.set a b).write (a + 1) bs

theorem get_write (m : Memory) (a : Nat) (bs : Bytes) (b : Nat) :
    (m.write a bs).get b = if a ≤ b then bs[b - a]?.getD (m.get b) else m.get b := by
  induction bs generalizing m a with
  | nil => simp [write]
  | cons v vs ih =>
    rw [write, ih, get_set]
    rcases Nat.lt_trichotomy b a with h | h | h
    · simp [Nat.not_le.2 h, Nat.not_le.2 (Nat.lt_succ_of_lt h), Nat.ne_of_lt h]
    · subst h
      rw [if_neg (Nat.not_succ_le_self b), if_pos rfl, if_pos (Nat.le_refl b), Nat.sub_self]
      rfl
    · have e : b - a = b - (a + 1) + 1 := by omega
      rw [if_pos (Nat.succ_le_of_lt h), if_neg (Nat.ne_of_gt h), if_pos (Nat.le_of_lt h), e,
        List.getElem?_cons_succ]

theorem get_write_inside (m : Memory) (a : Nat) (bs : Bytes) (i : Nat) (h : i < bs.length) :
    (m.write a bs).get (a + i) = bs[i] := by
  simp [get_write, h]

theorem get_write_outside (m : Memory) (a : Nat) (bs : Bytes) (b : Nat)
    (h : b < a ∨ a + bs.length ≤ b) : (m.write a bs).get b = m.get b := by
  rw [get_write]
  split
  · rw [List.getElem?_eq_none (by omega)]
    rfl
  · rfl

@[simp]
theorem length_read (m : Memory) (a n : Nat) : (m.read a n).length = n := by simp [read]

theorem read_write_self (m : Memory) (a : Nat) (bs : Bytes) :
    (m.write a bs).read a bs.length = bs := by
  apply List.ext_getElem
  · simp
  · intro i h1 h2
    simp [read, get_write_inside m a bs i h2]

/-- A read does not see a write to other addresses. -/
theorem read_write_disjoint (m : Memory) (a : Nat) (bs : Bytes) (b n : Nat)
    (h : b + n ≤ a ∨ a + bs.length ≤ b) : (m.write a bs).read b n = m.read b n := by
  apply List.map_congr_left
  intro i hi
  have hi := List.mem_range.1 hi
  exact get_write_outside m a bs (b + i) (by omega)

/-- Pieces of one size, laid out by their numbers, do not overlap. -/
theorem pieces_disjoint (size : Nat) {i j : UInt16} (h : i ≠ j) :
    i.toNat * size + size ≤ j.toNat * size ∨ j.toNat * size + size ≤ i.toNat * size := by
  have behind : ∀ {a b : Nat}, a < b → a * size + size ≤ b * size := by
    intro a b hlt
    rw [← Nat.succ_mul]
    exact Nat.mul_le_mul_right _ hlt
  have apart : i.toNat ≠ j.toNat := fun e => h (UInt16.toNat_inj.mp e)
  rcases Nat.lt_or_gt_of_ne apart with hlt | hlt
  · exact Or.inl (behind hlt)
  · exact Or.inr (behind hlt)

end Memory

/-- The `n` low bytes of a number, lowest first. -/
def littleEndian : Nat → Nat → Bytes
  | 0, _ => []
  | n + 1, v => UInt8.ofNat v :: littleEndian n (v / 256)

/-- The number that bytes stand for, lowest first. -/
def ofLittleEndian : Bytes → Nat
  | [] => 0
  | b :: bs => b.toNat + 256 * ofLittleEndian bs

@[simp]
theorem length_littleEndian (n v : Nat) : (littleEndian n v).length = n := by
  induction n generalizing v with
  | zero => rfl
  | succ n ih => simp [littleEndian, ih]

theorem ofLittleEndian_littleEndian (n v : Nat) :
    ofLittleEndian (littleEndian n v) = v % (1 <<< (8 * n)) := by
  induction n generalizing v with
  | zero => simp [littleEndian, ofLittleEndian, Nat.mod_one]
  | succ n ih =>
    have e : (UInt8.ofNat v).toNat = v % 256 := rfl
    have w : 1 <<< (8 * (n + 1)) = 256 * (1 <<< (8 * n)) := by
      simp only [Nat.shiftLeft_eq, Nat.mul_add, Nat.pow_add]
      omega
    rw [littleEndian, ofLittleEndian, ih, e, w, Nat.mod_mul]

end RingServer
