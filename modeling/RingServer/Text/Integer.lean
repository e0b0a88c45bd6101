/-!
Decimal integers as configuration texts write them: ASCII digits with an optional sign, no blanks.
Reading goes from the left and stops at the first fault, so a value that is already too large wins
over a bad character behind it.
-/
namespace RingServer.Text

/-- Why a text is no integer of the wanted range. -/
inductive NumberFault
  | empty
  | invalidDigit
  | tooLarge
  | tooSmall
  deriving DecidableEq, Repr

def NumberFault.message : NumberFault → String
  | .empty => "cannot parse integer from empty string"
  | .invalidDigit => "invalid digit found in string"
  | .tooLarge => "number too large to fit in target type"
  | .tooSmall => "number too small to fit in target type"

def digit? (c : Char) : Option Nat :=
  if '0' ≤ c ∧ c ≤ '9' then some (c.toNat - '0'.toNat) else none

/-- Appends the digits to `value`; past `limit` the answer is `overflow`. -/
def readDigits (limit : Nat) (overflow : NumberFault) : Nat → List Char → Except NumberFault Nat
  | value, [] => .ok value
  | value, c :: cs =>
    match digit? c with
    | none => .error .invalidDigit
    | some d =>
      if 10 * value + d ≤ limit then readDigits limit overflow (10 * value + d) cs
      else .error overflow

/-- An unsigned integer up to `limit`. Only `+` is a sign here. -/
def readNat (limit : Nat) : List Char → Except NumberFault Nat
  | [] => .error .empty
  | ['+'] => .error .invalidDigit
  | '+' :: cs => readDigits limit .tooLarge 0 cs
  | cs => readDigits limit .tooLarge 0 cs

/-- A signed integer from `-(limit + 1)` to `limit`. -/
def readInt (limit : Nat) : List Char → Except NumberFault Int
  | [] => .error .empty
  | ['+'] => .error .invalidDigit
  | ['-'] => .error .invalidDigit
  | '+' :: cs => (readDigits limit .tooLarge 0 cs).map Int.ofNat
  | '-' :: cs => (readDigits (limit + 1) .tooSmall 0 cs).map fun n => -(Int.ofNat n)
  | cs => (readDigits limit .tooLarge 0 cs).map Int.ofNat

def readUInt16 (s : String) : Except NumberFault UInt16 :=
  (readNat (UInt16.size - 1) s.toList).map UInt16.ofNat

def readUInt32 (s : String) : Except NumberFault UInt32 :=
  (readNat (UInt32.size - 1) s.toList).map UInt32.ofNat

def readInt32 (s : String) : Except NumberFault Int32 :=
  (readInt 0x7fffffff s.toList).map Int32.ofInt

/-- A size in bytes or entries, which a 64-bit word holds. -/
def readSize (s : String) : Except NumberFault Nat := readNat (UInt64.size - 1) s.toList

/-- Digits of a natural number in lower case. -/
def hex (n : Nat) : String := String.ofList (Nat.toDigits 16 n)

example : readNat 255 ['2', '5', '6', 'x'] = .error .tooLarge := rfl

example : readNat 255 ['9', '9', 'x'] = .error .invalidDigit := rfl

end RingServer.Text
