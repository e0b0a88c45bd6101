import RingServer.Connection
import RingServer.Proofs.LogLine

/-!
Text that shows as it is. Numbers, addresses and escaped bytes are printable ASCII throughout, and
so is all that is put together from them. A log line with a printable message is therefore one line
and no more, wherever it is cut (`LogLine.isLine_line`): each character is one byte, and the line
end comes last.
-/

namespace RingServer

open Text (Bytes IsPrintableAscii utf8)

namespace Text

/-- Nothing but printable ASCII. -/
def Printable (s : String) : Prop := ∀ c ∈ s.toList, IsPrintableAscii c

instance (s : String) : Decidable (Printable s) :=
  List.decidableBAll IsPrintableAscii s.toList

variable {s t : String}

@[simp]
theorem printable_append : Printable (s ++ t) ↔ Printable s ∧ Printable t := by
  simp only [Printable, String.toList_append, List.mem_append, or_imp, forall_and]

theorem printable_escaped (bytes : Bytes) : Printable (escaped bytes) := escaped_printable bytes

theorem printable_intercalate {ss : List String} (hs : Printable s) (h : ∀ t ∈ ss, Printable t) :
    Printable (s.intercalate ss) := by
  induction ss with
  | nil => exact fun c hc => nomatch hc
  | cons t rest ih =>
    have first := h t List.mem_cons_self
    cases rest with
    | nil => simpa using first
    | cons u rest =>
      rw [String.intercalate_cons_cons, printable_append, printable_append]
      exact ⟨⟨first, hs⟩, ih fun v hv => h v (List.mem_cons_of_mem _ hv)⟩

/-! ## Numbers -/

theorem toDigits_printable {base : Nat} (h : 1 < base) (h' : base ≤ 16) (n : Nat) :
    ∀ c ∈ Nat.toDigits base n, IsPrintableAscii c := by
  have digit : ∀ m, m < base → IsPrintableAscii m.digitChar := by
    intro m hm
    have shown := hexDigit_printable m
    rwa [hexDigit, Nat.mod_eq_of_lt (Nat.lt_of_lt_of_le hm h')] at shown
  induction n using Nat.strongRecOn with
  | _ n ih =>
    rcases Nat.lt_or_ge n base with single | more
    · rw [Nat.toDigits_of_lt_base single]
      simpa using digit n single
    · have fewer : n / base < n := Nat.div_lt_self (by omega) h
      rw [Nat.toDigits_of_base_le h more]
      intro c hc
      rcases List.mem_append.mp hc with hc | hc
      · exact ih _ fewer c hc
      · rw [List.mem_singleton.mp hc]
        exact digit _ (Nat.mod_lt _ (by omega))

theorem printable_hex (n : Nat) : Printable (hex n) := by
  rw [hex, Printable, String.toList_ofList]
  exact toDigits_printable (by decide) (by decide) n

theorem printable_nat (n : Nat) : Printable (toString n) := by
  show ∀ c ∈ (String.ofList (Nat.toDigits 10 n)).toList, IsPrintableAscii c
  rw [String.toList_ofList]
  exact toDigits_printable (by decide) (by decide) n

theorem printable_int (n : Int) : Printable (toString n) := by
  cases n with
  | ofNat n => exact printable_nat n
  | negSucc n =>
    show Printable ("-" ++ toString (n + 1))
    exact printable_append.mpr ⟨by decide, printable_nat _⟩

/-! ## Bytes -/

/-- Each character takes one byte. -/
theorem utf8_printable (h : Printable s) : ∀ b ∈ utf8 s, 0x20 ≤ b ∧ b ≤ 0x7e := by
  intro b hb
  obtain ⟨c, hc, hb⟩ := List.mem_flatMap.mp hb
  obtain ⟨low, high⟩ : 0x20 ≤ c.val.toNat ∧ c.val.toNat ≤ 0x7e := h c hc
  have single : String.utf8EncodeChar c = [UInt8.ofNat c.val.toNat] :=
    if_pos (Nat.le_trans high (by decide))
  have value : (UInt8.ofNat c.val.toNat).toNat = c.val.toNat :=
    UInt8.toNat_ofNat_of_lt' (Nat.lt_of_le_of_lt high (by decide))
  rw [single, List.mem_singleton] at hb
  rw [hb, UInt8.le_iff_toNat_le, UInt8.le_iff_toNat_le, value]
  exact ⟨low, high⟩

end Text

open Text

/-! ## Addresses -/

theorem IPv4.printable_text (x : IPv4) : Printable x.text := by
  unfold IPv4.text
  simp only [printable_append, and_assoc]
  have dot : Printable "." := by decide
  have number : ∀ b : UInt8, Printable (toString b) := fun b => printable_nat b.toNat
  exact ⟨number _, dot, number _, dot, number _, dot, number _⟩

theorem IPv6.printable_groupTexts (groups : List UInt16) : Printable (groupTexts groups) := by
  refine printable_intercalate (by decide) fun t ht => ?_
  obtain ⟨g, -, rfl⟩ := List.mem_map.mp ht
  exact printable_hex _

theorem IPv6.printable_text (x : IPv6) : Printable x.text := by
  unfold IPv6.text
  split
  · exact printable_append.mpr ⟨by decide, IPv4.printable_text _⟩
  · simp only []
    split
    · simp only [printable_append, and_assoc]
      exact ⟨printable_groupTexts _, by decide, printable_groupTexts _⟩
    · exact printable_groupTexts _

theorem SocketAddress.printable_text (x : SocketAddress) : Printable x.text := by
  cases x with
  | v4 host port =>
    unfold SocketAddress.text
    simp only [printable_append, and_assoc]
    exact ⟨host.printable_text, by decide, printable_nat port.toNat⟩
  | v6 host scope port =>
    simp only [SocketAddress.text]
    split
    · simp only [printable_append, and_assoc]
      exact ⟨by decide, host.printable_text, by decide, printable_nat port.toNat⟩
    · simp only [printable_append, and_assoc]
      exact ⟨by decide, host.printable_text, by decide, printable_nat scope.toNat, by decide,
        printable_nat port.toNat⟩

theorem printable_peerText (peer : Option SocketAddress) : Printable (peerText peer) := by
  cases peer with
  | none => decide
  | some address => exact address.printable_text

/-! ## Log lines -/

theorem Instant.printable_text (t : Instant) : Printable t.text := by
  have zeros : Printable
      (if t.milliseconds < 10 then "00" else if t.milliseconds < 100 then "0" else "") := by
    split
    · decide
    split <;> decide
  unfold Instant.text
  simp only [printable_append, and_assoc]
  exact ⟨printable_nat _, by decide, zeros, printable_nat _⟩

theorem Level.printable_name (level : Level) : Printable level.name := by
  cases level <;> decide

namespace LogLine

variable {size : Nat} {slot : UInt16} {level : Level} {now : Instant} {message : String}

theorem printable_header (slot : UInt16) (level : Level) (now : Instant) :
    Printable (header slot level now) := by
  unfold header
  simp only [printable_append, and_assoc]
  exact ⟨now.printable_text, by decide, printable_nat slot.toNat, by decide,
    level.printable_name, by decide⟩

/-- One line of printable text, no longer than a slot. -/
structure IsLine (size : Nat) (bytes : Bytes) : Prop where
  nonempty : 0 < bytes.length
  fits : bytes.length ≤ size
  ends : bytes.getLast? = some 0x0a
  alone : 0x0a ∉ bytes.dropLast
  printable : ∀ b ∈ bytes.dropLast, 0x20 ≤ b ∧ b ≤ 0x7e

/-- A printable message makes one line, wherever the end of the slot cuts it. -/
theorem isLine_line (h : 0 < size) (hm : Printable message) :
    IsLine size (line size slot level now message) := by
  have whole : (line size slot level now message).length ≤ size := length_line_le
  have text : ∀ b ∈ (line size slot level now message).dropLast, 0x20 ≤ b ∧ b ≤ 0x7e := by
    intro b hb
    rw [line, if_neg (Nat.ne_of_gt h), List.dropLast_concat] at hb
    rcases List.mem_append.mp (List.mem_of_mem_take hb) with hb | hb
    · exact utf8_printable (printable_header slot level now) b hb
    · exact utf8_printable hm b hb
  refine ⟨?_, whole, ?_, fun newline => ?_, text⟩
  · rw [line, if_neg (Nat.ne_of_gt h), List.length_append]
    exact Nat.succ_pos _
  · rw [line, if_neg (Nat.ne_of_gt h)]
    exact List.getLast?_concat
  · exact absurd (text _ newline).1 (by decide)

end LogLine

end RingServer
