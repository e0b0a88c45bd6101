import RingServer.Proofs.Results
import RingServer.Text.Blank
import RingServer.Text.Integer

/-!
Numerals: texts of digits, perhaps after a plus sign, and the numbers they stand for. Reading
accepts the numerals up to its limit and nothing else (`readNat_eq_ok_iff`), and the digits that a
number is written with are its numeral (`isNumeral_toDigits`). Integers may have a minus sign
instead (`readInt_eq_ok_iff`). No digit is a blank.
-/

namespace RingServer.Text

/-- A text that stands for a number. Zeros in front change nothing. -/
def IsNumeral (cs : List Char) (n : Nat) : Prop :=
  ∃ digits, digits ≠ [] ∧ (∀ c ∈ digits, c.isDigit = true) ∧ Nat.ofDigitChars 10 digits 0 = n ∧
    (cs = digits ∨ cs = '+' :: digits)

variable {cs : List Char} {n limit value : Nat} {overflow : NumberFault}

/-- A numeral is put together from digits and a sign. -/
theorem IsNumeral.mem (h : IsNumeral cs n) {c : Char} (hc : c ∈ cs) :
    c.isDigit = true ∨ c = '+' := by
  obtain ⟨digits, -, all, -, rfl | rfl⟩ := h
  · exact .inl (all c hc)
  · rcases List.mem_cons.mp hc with rfl | hc
    · exact .inr rfl
    · exact .inl (all c hc)

/-! ## Reading -/

theorem digit?_eq_some_iff {c : Char} {d : Nat} :
    digit? c = some d ↔ c.isDigit = true ∧ c.toNat - '0'.toNat = d := by
  have same : ('0' ≤ c ∧ c ≤ '9') ↔ c.isDigit = true := by
    rw [Char.isDigit_iff_toNat, Char.le_def, Char.le_def, UInt32.le_iff_toNat_le,
      UInt32.le_iff_toNat_le]
    rfl
  rw [digit?]
  split
  next h => simp [same.mp h]
  next h => simp [mt same.mpr h]

theorem le_ofDigitChars (cs : List Char) (value : Nat) : value ≤ Nat.ofDigitChars 10 cs value := by
  induction cs generalizing value with
  | nil => exact Nat.le_refl _
  | cons c cs ih =>
    have more := ih (10 * value + (c.toNat - '0'.toNat))
    rw [Nat.ofDigitChars_cons]
    omega

/-- A value that has passed the limit does not come back below it. -/
theorem readDigits_eq_ok_iff (h : value ≤ limit) : readDigits limit overflow value cs = .ok n ↔
    (∀ c ∈ cs, c.isDigit = true) ∧ Nat.ofDigitChars 10 cs value = n ∧ n ≤ limit := by
  induction cs generalizing value with
  | nil =>
    simp only [readDigits, Except.ok.injEq, Nat.ofDigitChars_nil, List.not_mem_nil, false_imp_iff,
      implies_true, true_and]
    exact ⟨fun e => ⟨e, e ▸ h⟩, fun e => e.1⟩
  | cons c cs ih =>
    rw [readDigits, Nat.ofDigitChars_cons, List.forall_mem_cons]
    cases hd : digit? c with
    | none =>
      have none : c.isDigit ≠ true := fun e => by
        rw [digit?_eq_some_iff.mpr ⟨e, rfl⟩] at hd
        cases hd
      simp [none]
    | some d =>
      obtain ⟨digit, rfl⟩ := digit?_eq_some_iff.mp hd
      simp only []
      split
      next fits => rw [ih fits, and_iff_right digit]
      next past =>
        have grown := le_ofDigitChars cs (10 * value + (c.toNat - '0'.toNat))
        constructor
        · exact nofun
        · rintro ⟨-, rfl, le⟩
          omega

/-- The numerals up to the limit are read, and nothing else is. -/
theorem readNat_eq_ok_iff : readNat limit cs = .ok n ↔ IsNumeral cs n ∧ n ≤ limit := by
  have zero := Nat.zero_le limit
  have sign : ¬('+'.isDigit = true) := by decide
  unfold readNat
  split
  · constructor
    · exact nofun
    · rintro ⟨⟨digits, ne, -, -, e | e⟩, -⟩
      · exact absurd e.symm ne
      · cases e
  · constructor
    · exact nofun
    · rintro ⟨⟨digits, ne, all, -, e | e⟩, -⟩
      · exact absurd (all '+' (by simp [← e])) sign
      · exact absurd (List.cons.inj e).2.symm ne
  next rest hne =>
    rw [readDigits_eq_ok_iff zero]
    constructor
    · rintro ⟨all, e, le⟩
      exact ⟨⟨rest, fun e => hne (e ▸ rfl), all, e, .inr rfl⟩, le⟩
    · rintro ⟨⟨digits, -, all, e, rfl | same⟩, le⟩
      · exact absurd (all '+' List.mem_cons_self) sign
      · cases same
        exact ⟨all, e, le⟩
  next none _ unsigned =>
    rw [readDigits_eq_ok_iff zero]
    constructor
    · rintro ⟨all, e, le⟩
      exact ⟨⟨cs, none, all, e, .inl rfl⟩, le⟩
    · rintro ⟨⟨digits, -, all, e, rfl | rfl⟩, le⟩
      · exact ⟨all, e, le⟩
      · exact absurd rfl (unsigned digits)

/-! ## Integers and words -/

/-- A text that stands for an integer. -/
def IsInteger (cs : List Char) (i : Int) : Prop :=
  (∃ n, IsNumeral cs n ∧ Int.ofNat n = i) ∨
    ∃ digits, digits ≠ [] ∧ (∀ c ∈ digits, c.isDigit = true) ∧ cs = '-' :: digits ∧
      -Int.ofNat (Nat.ofDigitChars 10 digits 0) = i

/-- Without a minus sign an integer is read as a number is. -/
theorem readInt_of_unsigned (h : ∀ digits, cs ≠ '-' :: digits) :
    readInt limit cs = (readNat limit cs).map Int.ofNat := by
  fun_cases readNat limit cs with
  | case1 => rfl
  | case2 => rfl
  | case3 digits more =>
    rw [readInt]
    exact more
  | case4 _ empty sign unsigned =>
    rw [readInt]
    · exact empty
    · exact sign
    · exact h []
    · exact unsigned
    · exact h

theorem readInt_minus {digits : List Char} (h : digits ≠ []) :
    readInt limit ('-' :: digits) =
      (readDigits (limit + 1) .tooSmall 0 digits).map fun n => -(Int.ofNat n) := by
  rw [readInt]
  exact h

theorem isInteger_minus_iff {digits : List Char} {i : Int} : IsInteger ('-' :: digits) i ↔
    digits ≠ [] ∧ (∀ c ∈ digits, c.isDigit = true) ∧
      -Int.ofNat (Nat.ofDigitChars 10 digits 0) = i := by
  have minus : ∀ n, ¬IsNumeral ('-' :: digits) n := by
    intro n numeral
    rcases numeral.mem List.mem_cons_self with e | e
    · exact absurd e (by decide)
    · exact absurd e (by decide)
  constructor
  · rintro (⟨n, numeral, -⟩ | ⟨_, ne, all, e, rfl⟩)
    · exact absurd numeral (minus n)
    · cases e
      exact ⟨ne, all, rfl⟩
  · rintro ⟨ne, all, e⟩
    exact .inr ⟨digits, ne, all, rfl, e⟩

theorem isInteger_iff_of_unsigned (h : ∀ digits, cs ≠ '-' :: digits) {i : Int} :
    IsInteger cs i ↔ ∃ n, IsNumeral cs n ∧ Int.ofNat n = i := by
  refine or_iff_left ?_
  rintro ⟨digits, -, -, e, -⟩
  exact h digits e

theorem readInt_minus_eq_ok_iff {digits : List Char} {i : Int} :
    readInt limit ('-' :: digits) = .ok i ↔
      IsInteger ('-' :: digits) i ∧ -(Int.ofNat limit + 1) ≤ i := by
  have zero := Nat.zero_le (limit + 1)
  rw [isInteger_minus_iff]
  by_cases empty : digits = []
  · subst empty
    exact ⟨nofun, fun h => absurd rfl h.1.1⟩
  rw [readInt_minus empty, map_eq_ok_iff]
  constructor
  · rintro ⟨n, h, rfl⟩
    obtain ⟨all, rfl, le⟩ := (readDigits_eq_ok_iff zero).mp h
    refine ⟨⟨empty, all, rfl⟩, ?_⟩
    simp only [Int.ofNat_eq_natCast]
    omega
  · rintro ⟨⟨-, all, rfl⟩, le⟩
    refine ⟨_, (readDigits_eq_ok_iff zero).mpr ⟨all, rfl, ?_⟩, rfl⟩
    simp only [Int.ofNat_eq_natCast] at le
    omega

/-- The integers from `-(limit + 1)` to `limit` are read, and nothing else is. -/
theorem readInt_eq_ok_iff {i : Int} : readInt limit cs = .ok i ↔
    IsInteger cs i ∧ -(Int.ofNat limit + 1) ≤ i ∧ i ≤ Int.ofNat limit := by
  by_cases signed : ∃ digits, cs = '-' :: digits
  · obtain ⟨digits, rfl⟩ := signed
    have below : IsInteger ('-' :: digits) i → i ≤ Int.ofNat limit := by
      intro h
      obtain ⟨-, -, rfl⟩ := isInteger_minus_iff.mp h
      simp only [Int.ofNat_eq_natCast]
      omega
    rw [readInt_minus_eq_ok_iff]
    exact ⟨fun h => ⟨h.1, h.2, below h.1⟩, fun h => ⟨h.1, h.2.1⟩⟩
  · have unsigned : ∀ digits, cs ≠ '-' :: digits := fun digits e => signed ⟨digits, e⟩
    rw [readInt_of_unsigned unsigned, map_eq_ok_iff, isInteger_iff_of_unsigned unsigned]
    constructor
    · rintro ⟨n, h, rfl⟩
      obtain ⟨numeral, le⟩ := readNat_eq_ok_iff.mp h
      refine ⟨⟨n, numeral, rfl⟩, ?_, Int.ofNat_le.mpr le⟩
      simp only [Int.ofNat_eq_natCast]
      omega
    · rintro ⟨⟨n, numeral, rfl⟩, -, le⟩
      exact ⟨n, readNat_eq_ok_iff.mpr ⟨numeral, Int.ofNat_le.mp le⟩, rfl⟩

/-- A word is read as the number that it holds. -/
theorem map_readNat_eq_ok_iff {α : Type} {ofNat : Nat → α} {toNat : α → Nat} {w : α}
    (held : ∀ k ≤ limit, toNat (ofNat k) = k) (whole : ∀ w, ofNat (toNat w) = w)
    (le : ∀ w, toNat w ≤ limit) :
    (readNat limit cs).map ofNat = .ok w ↔ IsNumeral cs (toNat w) := by
  rw [map_eq_ok_iff]
  constructor
  · rintro ⟨k, h, rfl⟩
    obtain ⟨numeral, hk⟩ := readNat_eq_ok_iff.mp h
    rwa [held k hk]
  · intro numeral
    exact ⟨_, readNat_eq_ok_iff.mpr ⟨numeral, le w⟩, whole w⟩

theorem readUInt16_eq_ok_iff {s : String} {n : UInt16} :
    readUInt16 s = .ok n ↔ IsNumeral s.toList n.toNat :=
  map_readNat_eq_ok_iff (fun _ h => UInt16.toNat_ofNat_of_lt' (Nat.lt_of_le_pred (by decide) h))
    (fun _ => UInt16.ofNat_toNat) fun w => Nat.le_pred_of_lt w.toNat_lt

theorem readUInt32_eq_ok_iff {s : String} {n : UInt32} :
    readUInt32 s = .ok n ↔ IsNumeral s.toList n.toNat :=
  map_readNat_eq_ok_iff (fun _ h => UInt32.toNat_ofNat_of_lt' (Nat.lt_of_le_pred (by decide) h))
    (fun _ => UInt32.ofNat_toNat) fun w => Nat.le_pred_of_lt w.toNat_lt

theorem readInt32_eq_ok_iff {s : String} {i : Int32} :
    readInt32 s = .ok i ↔ IsInteger s.toList i.toInt := by
  rw [readInt32, map_eq_ok_iff]
  constructor
  · rintro ⟨k, h, rfl⟩
    obtain ⟨integer, low, high⟩ := readInt_eq_ok_iff.mp h
    rwa [Int32.toInt_ofInt_of_le low (Int.lt_add_one_of_le high)]
  · intro integer
    have high : i.toInt ≤ Int.ofNat 0x7fffffff := Int.le_of_lt_add_one i.toInt_lt
    exact ⟨_, readInt_eq_ok_iff.mpr ⟨integer, i.le_toInt, high⟩, Int32.ofInt_toInt i⟩

theorem readSize_eq_ok_iff {s : String} {n : Nat} :
    readSize s = .ok n ↔ IsNumeral s.toList n ∧ n < UInt64.size := by
  rw [readSize, readNat_eq_ok_iff]
  exact and_congr_right fun _ => Nat.le_sub_one_iff_lt (by decide)

/-! ## Writing -/

theorem isNumeral_toDigits (n : Nat) : IsNumeral (Nat.toDigits 10 n) n :=
  ⟨_, Nat.toDigits_ne_nil, fun _ hc => Nat.isDigit_of_mem_toDigits (by decide) (by decide) hc,
    Nat.ofDigitChars_ten_toDigits, .inl rfl⟩

/-! ## Blanks -/

theorem isBlank_of_isDigit {c : Char} (h : c.isDigit = true) : isBlank c = false := by
  have value : 48 ≤ c.toNat ∧ c.toNat ≤ 57 := Char.isDigit_iff_toNat.mp h
  have apart : ∀ r ∈ blankRanges, r.2 < 48 ∨ 57 < r.1 := by decide
  rw [isBlank, inRanges, List.any_eq_false]
  intro r hr
  have outside := apart r hr
  rw [Bool.and_eq_true, decide_eq_true_iff, decide_eq_true_iff]
  omega

end RingServer.Text
