import RingServer.RingParams
import RingServer.Proofs.Numeral
import RingServer.Proofs.Pieces
import RingServer.Proofs.Requirement

/-!
Descriptions of buffer rings as text. `Describes s p` is their grammar, in which blanks may stand
around three numerals, and zeros and a plus sign in front of each of them. A text is read exactly if
it describes a ring that is valid (`parse_eq_ok_iff`), and the text of a ring describes it
(`describes_text`).
-/

namespace RingServer.RingParams

open Text (IsNumeral isBlank)

/-- The three numerals of a ring with colons between them. -/
def IsTriple (cs : List Char) (p : RingParams) : Prop :=
  ∃ entries size group, cs = entries ++ ':' :: (size ++ ':' :: group) ∧
    IsNumeral entries p.entries.toNat ∧ IsNumeral size p.entrySize.toNat ∧
    IsNumeral group p.group.toNat

/-- A text with the numbers of a ring, and blanks around them if any. -/
def Describes (s : String) (p : RingParams) : Prop :=
  ∃ before triple after, s.toList = before ++ triple ++ after ∧ IsTriple triple p ∧
    (∀ c ∈ before, isBlank c = true) ∧ ∀ c ∈ after, isBlank c = true

/-- What is asked of a ring: a power of two of entries, but not too many, and buffers that are not
empty. -/
structure IsValid (p : RingParams) : Prop where
  powerOfTwo : p.entries.toNat.isPowerOfTwo
  entries_le : p.entries.toNat ≤ maxEntries
  one_le_entrySize : 1 ≤ p.entrySize.toNat

variable {p : RingParams} {s : String} {cs : List Char}

/-! ## Numerals between colons -/

theorem colon_not_mem {n : Nat} (h : IsNumeral cs n) : ':' ∉ cs := by
  intro hc
  rcases h.mem hc with e | e
  · exact absurd e (by decide)
  · exact absurd e (by decide)

theorem split_triple {entries size group : List Char} {k m n : Nat} (hk : IsNumeral entries k)
    (hm : IsNumeral size m) (hn : IsNumeral group n) :
    (entries ++ ':' :: (size ++ ':' :: group)).splitOn ':' = [entries, size, group] := by
  rw [List.splitOn_append_cons_self_of_not_mem (colon_not_mem hk),
    List.splitOn_append_cons_self_of_not_mem (colon_not_mem hm),
    List.splitOn_eq_singleton (colon_not_mem hn)]

theorem IsTriple.mem (h : IsTriple cs p) {c : Char} (hc : c ∈ cs) :
    c.isDigit = true ∨ c = '+' ∨ c = ':' := by
  have numeral : ∀ {ds n}, IsNumeral ds n → c ∈ ds → c.isDigit = true ∨ c = '+' ∨ c = ':' :=
    fun hds hc => (hds.mem hc).imp_right .inl
  obtain ⟨entries, size, group, rfl, hk, hm, hn⟩ := h
  simp only [List.mem_append, List.mem_cons] at hc
  rcases hc with hc | rfl | hc | rfl | hc
  · exact numeral hk hc
  · exact .inr (.inr rfl)
  · exact numeral hm hc
  · exact .inr (.inr rfl)
  · exact numeral hn hc

theorem isBlank_of_mem (h : IsTriple cs p) {c : Char} (hc : c ∈ cs) : isBlank c = false := by
  rcases h.mem hc with e | rfl | rfl
  · exact Text.isBlank_of_isDigit e
  · decide
  · decide

theorem IsTriple.ne_nil (h : IsTriple cs p) : cs ≠ [] := by
  obtain ⟨entries, size, group, rfl, -⟩ := h
  simp

theorem toOption_readNat {limit n : Nat} :
    (Text.readNat limit cs).toOption = some n ↔ IsNumeral cs n ∧ n ≤ limit :=
  toOption_eq_some_iff.trans Text.readNat_eq_ok_iff

/-- Exactly the triples are read. Numbers that are too large for their field are refused. -/
theorem fields?_eq_some_iff : fields? cs = some p ↔ IsTriple cs p := by
  constructor
  · intro h
    rw [fields?] at h
    split at h
    next entries size group hs =>
      simp only [Option.bind_eq_bind, Option.bind_eq_some_iff, toOption_readNat] at h
      obtain ⟨k, ⟨hk, hk'⟩, m, ⟨hm, hm'⟩, n, ⟨hn, hn'⟩, e⟩ := h
      cases e
      refine ⟨entries, size, group, ?_, ?_, ?_, ?_⟩
      · have joined : [':'].intercalate (cs.splitOn ':') = cs := List.intercalate_splitOn ':'
        rw [hs] at joined
        simpa [List.intercalate_cons_cons] using joined.symm
      · rwa [UInt16.toNat_ofNat_of_lt' (Nat.lt_of_le_pred (by decide) hk')]
      · rwa [UInt32.toNat_ofNat_of_lt' (Nat.lt_of_le_pred (by decide) hm')]
      · rwa [UInt16.toNat_ofNat_of_lt' (Nat.lt_of_le_pred (by decide) hn')]
    next => cases h
  · rintro ⟨entries, size, group, rfl, hk, hm, hn⟩
    have entries' : (Text.readNat (UInt16.size - 1) entries).toOption = _ :=
      toOption_readNat.mpr ⟨hk, Nat.le_pred_of_lt p.entries.toNat_lt⟩
    have size' : (Text.readNat (UInt32.size - 1) size).toOption = _ :=
      toOption_readNat.mpr ⟨hm, Nat.le_pred_of_lt p.entrySize.toNat_lt⟩
    have group' : (Text.readNat (UInt16.size - 1) group).toOption = _ :=
      toOption_readNat.mpr ⟨hn, Nat.le_pred_of_lt p.group.toNat_lt⟩
    simp only [fields?, split_triple hk hm hn, entries', size', group', Option.bind_eq_bind,
      Option.bind_some, UInt16.ofNat_toNat, UInt32.ofNat_toNat]
    rfl

/-! ## Validity -/

theorem isPowerOfTwo_iff {n : Nat} : isPowerOfTwo n = true ↔ n.isPowerOfTwo := by
  rw [← Nat.ne_zero_and_sub_one_eq_zero_iff_isPowerOfTwo]
  simp [isPowerOfTwo]

/-- What is asked of a ring, in the order in which it is checked. -/
def requirements (p : RingParams) : List Requirement :=
  [⟨p.entries.toNat.isPowerOfTwo ∧ p.entries.toNat ≤ maxEntries,
      .config (.ringEntries p.group p.entries)⟩,
    ⟨1 ≤ p.entrySize.toNat, .config (.ringEntrySize p.group)⟩]

theorem requirements_met_iff : (∀ r ∈ p.requirements, r.met) ↔ p.IsValid := by
  simp only [requirements, List.forall_mem_cons, List.not_mem_nil, false_imp_iff, implies_true,
    and_true]
  exact ⟨fun h => ⟨h.1.1, h.1.2, h.2⟩, fun h => ⟨⟨h.powerOfTwo, h.entries_le⟩, h.one_le_entrySize⟩⟩

theorem config_of_mem_requirements {r : Requirement} (h : r ∈ p.requirements) :
    ∃ cause, r.fault = .config cause := by
  simp only [requirements, List.mem_cons, List.not_mem_nil, or_false] at h
  rcases h with rfl | rfl <;> exact ⟨_, rfl⟩

theorem validate_checks (p : RingParams) : Checks p.requirements p.validate := by
  unfold validate requirements
  refine .guard ?_ rfl ?_
  · rw [Bool.and_eq_true, isPowerOfTwo_iff, decide_eq_true_iff]
  rw [← ite_not]
  refine .guard ?_ rfl (.ok ())
  rw [← UInt32.toNat_inj]
  exact Nat.pos_iff_ne_zero.symm

theorem validate_eq_ok_iff : p.validate = .ok () ↔ p.IsValid :=
  p.validate_checks.eq_ok_iff.trans requirements_met_iff

/-- What is not valid is refused as a configuration. -/
theorem validate_eq_error (h : ¬p.IsValid) : ∃ cause, p.validate = .error (.config cause) := by
  rw [← validate_eq_ok_iff] at h
  cases hv : p.validate with
  | ok u => exact absurd hv h
  | error f =>
    obtain ⟨r, hr, rfl⟩ := (p.validate_checks.failed f hv).exists_mem
    obtain ⟨cause, e⟩ := config_of_mem_requirements hr
    exact ⟨cause, congrArg Except.error e⟩

/-! ## Reading -/

theorem describes_iff : Describes s p ↔ IsTriple (Text.trim s.toList) p := by
  constructor
  · rintro ⟨before, triple, after, e, h, hb, ha⟩
    rwa [e, (Text.isTrimmed_of_around hb (fun c => isBlank_of_mem h) ha).trim_eq]
  · intro h
    obtain ⟨before, after, e, hb, ha⟩ := (Text.isTrimmed_trim s.toList).around
    exact ⟨before, _, after, e, h, hb, ha⟩

theorem parse_of_not_describes (h : ∀ p, ¬Describes s p) :
    parse s = .error (.config (.ringText s)) := by
  rw [parse]
  cases hf : fields? (Text.trim s.toList) with
  | none => rfl
  | some p => exact absurd (describes_iff.mpr (fields?_eq_some_iff.mp hf)) (h p)

theorem parse_of_describes (h : Describes s p) : parse s = p.validate.map fun _ => p := by
  rw [parse, fields?_eq_some_iff.mpr (describes_iff.mp h)]

theorem parse_eq_ok_iff : parse s = .ok p ↔ Describes s p ∧ p.IsValid := by
  constructor
  · intro h
    by_cases hd : ∃ q, Describes s q
    · obtain ⟨q, hd⟩ := hd
      rw [parse_of_describes hd, map_eq_ok_iff] at h
      obtain ⟨u, valid, rfl⟩ := h
      exact ⟨hd, validate_eq_ok_iff.mp valid⟩
    · rw [parse_of_not_describes fun q hq => hd ⟨q, hq⟩] at h
      cases h
  · rintro ⟨hd, hv⟩
    rw [parse_of_describes hd, validate_eq_ok_iff.mpr hv]
    rfl

/-- Whatever is not read is refused as a configuration. -/
theorem parse_eq_error (h : ¬∃ p, Describes s p ∧ p.IsValid) :
    ∃ cause, parse s = .error (.config cause) := by
  by_cases hd : ∃ p, Describes s p
  · obtain ⟨p, hd⟩ := hd
    obtain ⟨cause, e⟩ := validate_eq_error fun hv => h ⟨p, hd, hv⟩
    exact ⟨cause, by rw [parse_of_describes hd, e]; rfl⟩
  · exact ⟨_, parse_of_not_describes fun p hp => hd ⟨p, hp⟩⟩

/-! ## Writing -/

theorem toList_text (p : RingParams) : p.text.toList = Nat.toDigits 10 p.entries.toNat ++
    ':' :: (Nat.toDigits 10 p.entrySize.toNat ++ ':' :: Nat.toDigits 10 p.group.toNat) := by
  have number : ∀ n : Nat, (toString n).toList = Nat.toDigits 10 n := fun n => Nat.toList_repr
  show (toString p.entries.toNat ++ ":" ++ toString p.entrySize.toNat ++ ":" ++
    toString p.group.toNat).toList = _
  simp only [String.toList_append, number, List.append_assoc]
  rfl

theorem isTriple_text (p : RingParams) : IsTriple p.text.toList p :=
  ⟨_, _, _, toList_text p, Text.isNumeral_toDigits _, Text.isNumeral_toDigits _,
    Text.isNumeral_toDigits _⟩

theorem describes_text (p : RingParams) : Describes p.text p :=
  ⟨[], _, [], by rw [List.nil_append, List.append_nil], isTriple_text p, nofun, nofun⟩

/-- What is written is read back. -/
theorem parse_text (h : p.IsValid) : parse p.text = .ok p :=
  parse_eq_ok_iff.mpr ⟨describes_text p, h⟩

/-- The texts that are read are those with the three numbers of a valid ring, and blanks around them
if any; all others are refused as configurations. A valid ring is read back from its text, and so is
one that was read. -/
theorem valid_descriptions_are_read (s : String) :
    (∀ p, parse s = .ok p ↔ Describes s p ∧ p.IsValid) ∧
      ((¬∃ p, Describes s p ∧ p.IsValid) → ∃ cause, parse s = .error (.config cause)) ∧
      (∀ p, p.validate = .ok () → parse p.text = .ok p) ∧
      ∀ p, parse s = .ok p → parse p.text = .ok p := by
  refine ⟨fun p => parse_eq_ok_iff, parse_eq_error, fun p h => ?_, fun p h => ?_⟩
  · exact parse_text (validate_eq_ok_iff.mp h)
  · obtain ⟨-, valid⟩ := parse_eq_ok_iff.mp h
    exact parse_text valid

/-- Zeros, a plus sign and blanks are read over; a number of entries that is no power of two is
refused. -/
theorem valid_descriptions_are_read_with_zeros :
    Describes " +016:001024:7\n" ⟨16, 1024, 7⟩ ∧ IsValid ⟨16, 1024, 7⟩ ∧
      parse " +016:001024:7\n" = .ok ⟨16, 1024, 7⟩ ∧ parse "16:1024:7" = .ok ⟨16, 1024, 7⟩ ∧
      (¬∃ p, Describes "12:1024:7" p ∧ p.IsValid) ∧
      ∃ cause, parse "12:1024:7" = .error (.config cause) := by
  have described : Describes " +016:001024:7\n" ⟨16, 1024, 7⟩ := by
    refine ⟨[' '], _, ['\n'], ?_, ⟨"+016".toList, "001024".toList, "7".toList, rfl, ?_, ?_, ?_⟩,
      List.all_eq_true.mp (by decide), List.all_eq_true.mp (by decide)⟩
    · decide
    · exact ⟨"016".toList, by decide, List.all_eq_true.mp (by decide), by decide, .inr (by decide)⟩
    · exact ⟨"001024".toList, by decide, List.all_eq_true.mp (by decide), by decide, .inl rfl⟩
    · exact ⟨"7".toList, by decide, List.all_eq_true.mp (by decide), by decide, .inl rfl⟩
  have valid : IsValid ⟨16, 1024, 7⟩ := validate_eq_ok_iff.mp rfl
  obtain ⟨reads, -, -, again⟩ := valid_descriptions_are_read " +016:001024:7\n"
  have read := (reads _).mpr ⟨described, valid⟩
  have written : text ⟨16, 1024, 7⟩ = "16:1024:7" := by decide
  obtain ⟨reads', refuses, -⟩ := valid_descriptions_are_read "12:1024:7"
  have refused : parse "12:1024:7" = .error (.config (.ringEntries 7 12)) := by decide
  have none : ¬∃ p, Describes "12:1024:7" p ∧ p.IsValid := by
    rintro ⟨p, hp⟩
    have wrong := (reads' p).mpr hp
    rw [refused] at wrong
    cases wrong
  exact ⟨described, valid, read, written ▸ again _ read, none, refuses none⟩

end RingServer.RingParams
