import RingServer.LogLine

/-!
What a log line is, apart from the memory that it is written to: `line` gives its bytes, and
`format_eq` says that formatting stores exactly these. A line fits its slot and ends in a line end,
unless the slot is empty. `text` is what a line says: the time that a clock shows (`Instant.Shows`),
slot, level and message. As much of it is stored as fits in front of the line end, however the text
is cut in parts on its way there (`lines_are_cut_to_fit`).
-/

namespace RingServer

open Text (Bytes utf8)

namespace Memory

/-- Two writes on end are one. -/
theorem write_append (m : Memory) (a : Nat) (bs cs : Bytes) :
    m.write a (bs ++ cs) = (m.write a bs).write (a + bs.length) cs := by
  induction bs generalizing m a with
  | nil => rfl
  | cons b bs ih =>
    have moved : a + (b :: bs).length = a + 1 + bs.length := by
      rw [List.length_cons]
      omega
    rw [List.cons_append, write, ih, moved]
    rfl

end Memory

namespace SlotWriter

/-- The writer has stored the beginning of a text, as far as it fits. -/
structure Holds (memory : Memory) (base capacity : Nat) (text : Bytes) (w : SlotWriter) : Prop where
  stored : w.memory = memory.write base (text.take capacity)
  length : w.length = (text.take capacity).length
  start : w.base = base
  room : w.capacity = capacity

variable {memory : Memory} {base capacity : Nat} {text : Bytes} {w : SlotWriter}

theorem holds_new (memory : Memory) (base capacity : Nat) :
    Holds memory base capacity [] (.new memory base capacity) := by
  refine ⟨?_, ?_, rfl, rfl⟩ <;> rw [List.take_nil] <;> rfl

theorem Holds.write (h : Holds memory base capacity text w) (s : String) :
    Holds memory base capacity (text ++ utf8 s) (w.write s) := by
  have kept : (text ++ utf8 s).take capacity =
      text.take capacity ++ (utf8 s).take (w.capacity - w.length) := by
    rw [List.take_append, h.room, h.length, List.length_take]
    congr 2
    omega
  refine ⟨?_, ?_, h.start, h.room⟩
  · show w.memory.write (w.base + w.length) _ = _
    rw [kept, Memory.write_append, ← h.stored, ← h.length, h.start]
  · show w.length + _ = _
    rw [kept, List.length_append, ← h.length]

/-- Texts written one after the other are stored as if they were one. -/
theorem Holds.writeAll (h : Holds memory base capacity text w) (parts : List String) :
    Holds memory base capacity (text ++ parts.flatMap utf8) (parts.foldl SlotWriter.write w) := by
  induction parts generalizing text w with
  | nil => simpa using h
  | cons s parts ih => simpa using ih (h.write s)

end SlotWriter

/-- What a clock shows: whole seconds since 1970 and the milliseconds of the second under way. A
time before 1970 shows as its start. -/
inductive Instant.Shows (t : Instant) : Nat → Nat → Prop
  | early (h : t.nanoseconds < 0) : Shows t 0 0
  | since (secs millis rest : Nat) (hm : millis < 1000) (hr : rest < 1000000)
      (h : t.nanoseconds = Int.ofNat (secs * 1000000000 + millis * 1000000 + rest)) :
      Shows t secs millis

theorem Instant.shows (t : Instant) : t.Shows t.seconds t.milliseconds := by
  unfold seconds milliseconds perSecond perMillisecond
  by_cases h : t.nanoseconds < 0
  · have zero : t.nanoseconds.toNat = 0 := by omega
    rw [zero]
    exact .early h
  · refine .since _ _ (t.nanoseconds.toNat % 1000000) ?_ ?_ ?_
    · omega
    · omega
    · show t.nanoseconds = ((_ : Nat) : Int)
      omega

namespace LogLine

variable {size : Nat} {slot : UInt16} {level : Level} {now : Instant} {message : String}

/-- The bytes of a line in a slot of a given size. -/
def line (size : Nat) (slot : UInt16) (level : Level) (now : Instant) (message : String) : Bytes :=
  if size = 0 then []
  else (utf8 (header slot level now) ++ utf8 message).take (size - 1) ++ [0x0a]

theorem length_line_le : (line size slot level now message).length ≤ size := by
  unfold line
  split
  · exact Nat.zero_le _
  · rw [List.length_append, List.length_take, List.length_singleton]
    omega

theorem format_eq (memory : Memory) (base : Nat) :
    format memory base size slot level now message =
      ((line size slot level now message).length,
        memory.write base (line size slot level now message)) := by
  unfold format line
  split
  · rfl
  have whole := ((SlotWriter.holds_new memory base (size - 1)).write
    (header slot level now)).write message
  rw [List.nil_append] at whole
  rw [Memory.write_append, List.length_append, ← whole.stored, ← whole.length]
  rfl

/-! ## The text of a line -/

/-- A number below a thousand in three digits. -/
def threeDigits (n : Nat) : String :=
  String.ofList [Nat.digitChar (n / 100), Nat.digitChar (n / 10 % 10), Nat.digitChar (n % 10)]

theorem threeDigits_eq {n : Nat} (h : n < 1000) :
    (if n < 10 then "00" else if n < 100 then "0" else "") ++ toString n = threeDigits n := by
  have number : (toString n).toList = Nat.toDigits 10 n := Nat.toList_repr
  apply String.toList_inj.mp
  rw [String.toList_append, number, threeDigits, String.toList_ofList]
  split
  next one =>
    have high : n / 100 = 0 := by omega
    have middle : n / 10 % 10 = 0 := by omega
    rw [Nat.toDigits_of_lt_base one, high, middle, Nat.mod_eq_of_lt one]
    rfl
  split
  next more two =>
    have high : n / 100 = 0 := by omega
    have middle : n / 10 < 10 := by omega
    rw [Nat.toDigits_of_base_le (by decide) (Nat.not_lt.mp more), Nat.toDigits_of_lt_base middle,
      high, Nat.mod_eq_of_lt middle]
    rfl
  next more three =>
    have high : n / 10 / 10 < 10 := by omega
    have tens : 10 ≤ n / 10 := by omega
    rw [Nat.toDigits_of_base_le (by decide) (Nat.not_lt.mp more),
      Nat.toDigits_of_base_le (by decide) tens, Nat.toDigits_of_lt_base high,
      Nat.div_div_eq_div_mul]
    rfl

/-- A line that nothing cuts, without its line end. -/
def text (secs millis : Nat) (slot : UInt16) (level : Level) (message : String) : String :=
  s!"{secs}.{threeDigits millis} [{slot}] [{level.name}] {message}"

theorem header_append (slot : UInt16) (level : Level) (now : Instant) (message : String) :
    header slot level now ++ message = text now.seconds now.milliseconds slot level message := by
  have below : now.milliseconds < 1000 := by
    unfold Instant.milliseconds Instant.perSecond Instant.perMillisecond
    omega
  have same : ∀ s : String, toString s = s := fun _ => rfl
  unfold header text Instant.text
  rw [← threeDigits_eq below]
  simp only [same, String.append_assoc]

theorem line_eq (h : 0 < size) (slot : UInt16) (level : Level) (now : Instant) (message : String) :
    line size slot level now message =
      (utf8 (text now.seconds now.milliseconds slot level message)).take (size - 1) ++ [0x0a] := by
  rw [line, if_neg (Nat.ne_of_gt h), ← Text.utf8_append, header_append]

/-- A line is as much of its text as fits in front of the line end, whatever the size of the buffer
and in however many parts the text arrives. Nothing is written to an empty buffer, and nothing
outside the line. -/
theorem lines_are_cut_to_fit (memory : Memory) (base size : Nat) (slot : UInt16) (level : Level)
    (now : Instant) (message : String) :
    ∃ secs millis, now.Shows secs millis ∧
      (size = 0 → format memory base size slot level now message = (0, memory)) ∧
      (0 < size → ∃ n stored, format memory base size slot level now message = (n, stored) ∧
        n = min (utf8 (text secs millis slot level message)).length (size - 1) + 1 ∧
        stored.read base (n - 1) = (utf8 (text secs millis slot level message)).take (n - 1) ∧
        stored.get (base + (n - 1)) = 0x0a ∧
        (∀ a, a < base ∨ base + n ≤ a → stored.get a = memory.get a) ∧
        ∀ parts : List String, parts.flatMap utf8 = utf8 (text secs millis slot level message) →
          let w := parts.foldl SlotWriter.write (.new memory base (size - 1))
          (w.length + 1, w.memory.write (base + w.length) [0x0a]) = (n, stored)) := by
  refine ⟨_, _, now.shows, ?_, fun h => ?_⟩
  · rintro rfl
    rfl
  have cut := line_eq h slot level now message
  generalize utf8 (text now.seconds now.milliseconds slot level message) = bytes at cut ⊢
  generalize hk : bytes.take (size - 1) = kept at cut
  have length : kept.length = min bytes.length (size - 1) := by
    rw [← hk, List.length_take, Nat.min_comm]
  have stored : memory.write base (line size slot level now message) =
      (memory.write base kept).write (base + kept.length) [0x0a] := by
    rw [cut, Memory.write_append]
  have count : (line size slot level now message).length = kept.length + 1 := by
    rw [cut, List.length_append, List.length_singleton]
  rw [format_eq, stored, count]
  refine ⟨_, _, rfl, by rw [length], ?_, ?_, ?_, ?_⟩
  · rw [Nat.add_sub_cancel, Memory.read_write_disjoint _ _ _ _ _ (Or.inl (Nat.le_refl _)),
      Memory.read_write_self, ← hk, List.length_take, List.take_eq_take_iff]
    omega
  · exact Memory.get_write_inside _ _ [0x0a] 0 (Nat.succ_pos 0)
  · intro a ha
    have apart : a < base + kept.length ∨ base + kept.length + [(0x0a : UInt8)].length ≤ a := by
      rw [List.length_singleton]
      omega
    rw [Memory.get_write_outside _ _ _ _ apart, Memory.get_write_outside _ _ _ _ (by omega)]
  · intro parts hp
    have arrived := (SlotWriter.holds_new memory base (size - 1)).writeAll parts
    rw [List.nil_append, hp] at arrived
    simp only [arrived.stored, arrived.length, hk]

/-- The last letter takes two bytes, and there is room for the first of them. -/
theorem lines_are_cut_to_fit_in_letter : ∃ stored,
    format .blank 4 20 0 .warn ⟨1007000000⟩ "aé" = (20, stored) ∧
      stored.read 4 19 = utf8 "1.007 [0] [WARN] a" ++ [0xc3] ∧
      stored.get 23 = 0x0a ∧ stored.get 3 = 0 ∧ stored.get 24 = 0 ∧
      let w := ["1.", "007", " [0] [WARN] ", "aé"].foldl SlotWriter.write (.new .blank 4 19)
      (w.length + 1, w.memory.write (4 + w.length) [0x0a]) = (20, stored) := by
  obtain ⟨secs, millis, shown, -, cut⟩ :=
    lines_are_cut_to_fit .blank 4 20 0 .warn ⟨1007000000⟩ "aé"
  obtain ⟨rfl, rfl⟩ : secs = 1 ∧ millis = 7 := by
    cases shown with
    | early h => exact absurd h (by decide)
    | since secs millis rest hm hr h =>
      have same : 1007000000 = secs * 1000000000 + millis * 1000000 + rest := Int.ofNat.inj h
      omega
  have whole : utf8 (text 1 7 0 .warn "aé") = utf8 "1.007 [0] [WARN] a" ++ [0xc3, 0xa9] := by decide
  obtain ⟨n, stored, formatted, count, kept, newline, outside, parts⟩ := cut (by decide)
  rw [whole] at count kept parts
  obtain rfl : n = 20 := count
  exact ⟨stored, formatted, kept, newline, outside 3 (by decide), outside 24 (by decide),
    parts _ (by decide)⟩

end LogLine

end RingServer
