/-!
Texts as bytes and bytes as texts: the UTF-8 bytes of a text, and the printable form of arbitrary
bytes that log lines use. `escaped_printable` says that this form is printable ASCII throughout.
-/
namespace RingServer.Text

abbrev Bytes := List UInt8

def utf8 (s : String) : Bytes := s.toList.flatMap String.utf8EncodeChar

theorem utf8_append (s t : String) : utf8 (s ++ t) = utf8 s ++ utf8 t := by
  simp [utf8, String.toList_append]

def hexDigit (n : Nat) : Char := (Nat.digitChar (n % 16))

/-- Printable ASCII stays, quotes and backslashes get a backslash, three blanks have short names,
and any other byte is written in two hexadecimal digits. -/
def escapeByte (b : UInt8) : List Char :=
  if b = 0x09 then ['\\', 't']
  else if b = 0x0d then ['\\', 'r']
  else if b = 0x0a then ['\\', 'n']
  else if b = 0x27 then ['\\', '\x27']
  else if b = 0x22 then ['\\', '"']
  else if b = 0x5c then ['\\', '\\']
  else if 0x20 ≤ b && b ≤ 0x7e then [Char.ofNat b.toNat]
  else ['\\', 'x', hexDigit (b.toNat / 16), hexDigit b.toNat]

def escaped (bytes : Bytes) : String := String.ofList (bytes.flatMap escapeByte)

def IsPrintableAscii (c : Char) : Prop := 0x20 ≤ c.toNat ∧ c.toNat ≤ 0x7e

instance (c : Char) : Decidable (IsPrintableAscii c) := by unfold IsPrintableAscii; infer_instance

theorem hexDigit_printable (n : Nat) : IsPrintableAscii (hexDigit n) := by
  have table : ∀ m, m < 16 → IsPrintableAscii (Nat.digitChar m) := by decide
  exact table (n % 16) (Nat.mod_lt n (by decide))

theorem ofNat_printable (n : Nat) (h : 0x20 ≤ n) (h' : n ≤ 0x7e) :
    IsPrintableAscii (Char.ofNat n) := by
  have valid : n.isValidChar := Or.inl (by omega)
  have e : Char.ofNat n = Char.ofNatAux n valid := dif_pos valid
  rw [e]
  exact ⟨h, h'⟩

theorem escapeByte_printable (b : UInt8) : ∀ c ∈ escapeByte b, IsPrintableAscii c := by
  have backslash : IsPrintableAscii '\\' := by decide
  have short : ∀ d, IsPrintableAscii d → ∀ c ∈ ['\\', d], IsPrintableAscii c := by
    intro d hd
    simp [backslash, hd]
  unfold escapeByte
  split
  · exact short 't' (by decide)
  split
  · exact short 'r' (by decide)
  split
  · exact short 'n' (by decide)
  split
  · exact short '\x27' (by decide)
  split
  · exact short '"' (by decide)
  split
  · exact short '\\' (by decide)
  split
  · next h =>
    simp only [Bool.and_eq_true, decide_eq_true_eq, UInt8.le_iff_toNat_le] at h
    simpa using ofNat_printable b.toNat h.1 h.2
  · have x : IsPrintableAscii 'x' := by decide
    simp [backslash, x, hexDigit_printable]

theorem escaped_printable (bytes : Bytes) : ∀ c ∈ (escaped bytes).toList, IsPrintableAscii c := by
  intro c hc
  simp only [escaped, String.toList_ofList, List.mem_flatMap] at hc
  obtain ⟨b, -, hb⟩ := hc
  exact escapeByte_printable b c hb

end RingServer.Text
