import RingServer.Text.Bytes

/-!
Bytes as hexadecimal text, two digits a byte. `readHex?_hexChars` says that what is written is read
back.
-/
namespace RingServer.Text

/-- The value of a hexadecimal digit in either case. -/
def hexDigit? (c : Char) : Option Nat :=
  if '0' ≤ c ∧ c ≤ '9' then some (c.toNat - '0'.toNat)
  else if 'a' ≤ c ∧ c ≤ 'f' then some (c.toNat - 'a'.toNat + 10)
  else if 'A' ≤ c ∧ c ≤ 'F' then some (c.toNat - 'A'.toNat + 10)
  else none

def hexPair (b : UInt8) : List Char := [hexDigit (b.toNat / 16), hexDigit b.toNat]

def hexChars (bytes : Bytes) : List Char := bytes.flatMap hexPair

def readHex? : List Char → Option Bytes
  | [] => some []
  | [_] => none
  | high :: low :: rest => do
    let high ← hexDigit? high
    let low ← hexDigit? low
    return UInt8.ofNat (16 * high + low) :: (← readHex? rest)

def hexOfBytes (bytes : Bytes) : String := String.ofList (hexChars bytes)

def bytesOfHex? (s : String) : Option Bytes := readHex? s.toList

theorem hexDigit?_hexDigit (n : Nat) : hexDigit? (hexDigit n) = some (n % 16) := by
  have table : ∀ m, m < 16 → hexDigit? (hexDigit m) = some m := by decide
  have h := table (n % 16) (Nat.mod_lt n (by decide))
  simpa [hexDigit] using h

theorem readHex?_hexChars (bytes : Bytes) : readHex? (hexChars bytes) = some bytes := by
  induction bytes with
  | nil => rfl
  | cons b bs ih =>
    have hb := b.toNat_lt
    have e : 16 * (b.toNat / 16 % 16) + b.toNat % 16 = b.toNat := by omega
    have h : hexChars (b :: bs) = hexDigit (b.toNat / 16) :: hexDigit b.toNat :: hexChars bs := rfl
    simp only [h, readHex?, hexDigit?_hexDigit, ih, e, Option.bind_eq_bind, Option.bind_some,
      UInt8.ofNat_toNat, pure]

theorem bytesOfHex?_hexOfBytes (bytes : Bytes) : bytesOfHex? (hexOfBytes bytes) = some bytes := by
  simp [bytesOfHex?, hexOfBytes, readHex?_hexChars]

end RingServer.Text
