import RingServer.Proofs.LogLine

/-!
Texts that are written in parts. However a text is cut, a writer keeps the beginning of it that fits
and knows whether there was more (`parts_are_kept_as_one_text`). What carries this is that a writer
that has left something out is full (`Kept.write`): no later part, short as it may be, is stored
behind the gap.
-/

namespace RingServer

open Text (Bytes utf8 utf8_append)

theorem Text.utf8_join (parts : List String) : utf8 (String.join parts) = parts.flatMap utf8 := by
  induction parts with
  | nil => rfl
  | cons s parts ih => rw [String.join_cons, utf8_append, ih, List.flatMap_cons]

namespace SlotWriter

/-- Writing with every place checked: there is nothing if the writer is past the end of its window
or would get there. -/
def write? (w : SlotWriter) (s : String) : Option SlotWriter :=
  let bytes := utf8 s
  let n := min bytes.length (w.capacity - w.length)
  if w.length ≤ w.capacity ∧ w.length + n ≤ w.capacity then
    some { w with
      memory := w.memory.write (w.base + w.length) (bytes.take n)
      length := w.length + n
      truncated := w.truncated || n < bytes.length }
  else none

/-- The writer has stored the beginning of a text, as far as it fits, and knows whether it does. -/
structure Kept (memory : Memory) (base capacity : Nat) (text : Bytes) (w : SlotWriter) : Prop
    extends Holds memory base capacity text w where
  truncated : w.truncated = decide (capacity < text.length)

variable {memory : Memory} {base capacity : Nat} {text : Bytes} {w : SlotWriter}

theorem write?_eq_some (h : w.length ≤ w.capacity) (s : String) :
    w.write? s = some (w.write s) := by
  have room : w.length + min (utf8 s).length (w.capacity - w.length) ≤ w.capacity := by omega
  have kept : (utf8 s).take (min (utf8 s).length (w.capacity - w.length)) =
      (utf8 s).take (w.capacity - w.length) := by
    rw [List.take_eq_take_iff]
    omega
  have count : ((utf8 s).take (w.capacity - w.length)).length =
      min (utf8 s).length (w.capacity - w.length) := by
    rw [List.length_take, Nat.min_comm]
  rw [write?, if_pos ⟨h, room⟩, write, kept, count]

theorem Holds.length_le (h : Holds memory base capacity text w) : w.length ≤ w.capacity := by
  rw [h.length, h.room]
  exact List.length_take_le ..

theorem kept_new (memory : Memory) (base capacity : Nat) :
    Kept memory base capacity [] (.new memory base capacity) where
  toHolds := holds_new memory base capacity
  truncated := rfl

namespace Kept

/-- If something was left out before, there is no room, and this part is left out as well. -/
theorem write (h : Kept memory base capacity text w) (s : String) :
    Kept memory base capacity (text ++ utf8 s) (w.write s) where
  toHolds := h.toHolds.write s
  truncated := by
    have full : w.length = min capacity text.length := by rw [h.length, List.length_take]
    show (w.truncated || decide (((utf8 s).take (w.capacity - w.length)).length < _)) = _
    rw [h.truncated, h.room, full, ← Bool.decide_or, List.length_take, List.length_append]
    exact decide_eq_decide.mpr (by omega)

/-- No part is refused, and all of them are kept as if they were one. -/
theorem writeAll (h : Kept memory base capacity text w) (parts : List String) :
    parts.foldlM write? w = some (parts.foldl SlotWriter.write w) ∧
      Kept memory base capacity (text ++ parts.flatMap utf8) (parts.foldl SlotWriter.write w) := by
  induction parts generalizing text w with
  | nil => exact ⟨rfl, by simpa using h⟩
  | cons s parts ih =>
    obtain ⟨accepted, kept⟩ := ih (h.write s)
    refine ⟨?_, by simpa using kept⟩
    rw [List.foldlM_cons, write?_eq_some h.length_le]
    exact accepted

/-- The text is all that counts. -/
theorem eq (h : Kept memory base capacity text w) : w =
    ⟨memory.write base (text.take capacity), base, capacity, (text.take capacity).length,
      capacity < text.length⟩ := by
  rw [← h.stored, ← h.length, ← h.truncated]
  obtain rfl := h.start
  obtain rfl := h.room
  rfl

end Kept

/-- No part of a text is refused. What is stored of all of them is as much of the text as fits, in
its place, and nothing outside; something is said to be missing exactly if it did not fit; and other
parts of the same text leave the writer in the same state. -/
theorem parts_are_kept_as_one_text (memory : Memory) (base capacity : Nat) (parts : List String) :
    let text := utf8 (String.join parts)
    let w := parts.foldl write (new memory base capacity)
    parts.foldlM write? (new memory base capacity) = some w ∧
      w.length = min capacity text.length ∧
      w.memory.read base w.length = text.take w.length ∧
      (∀ a, a < base ∨ base + w.length ≤ a → w.memory.get a = memory.get a) ∧
      (w.truncated = true ↔ capacity < text.length) ∧
      ∀ others, String.join others = String.join parts →
        others.foldl write (new memory base capacity) = w := by
  intro text w
  have all (parts : List String) := (kept_new memory base capacity).writeAll parts
  simp only [List.nil_append, ← Text.utf8_join] at all
  obtain ⟨accepted, kept⟩ := all parts
  refine ⟨accepted, ?_, ?_, fun a outside => ?_, ?_, fun others same => ?_⟩
  · rw [kept.length, List.length_take]
  · rw [kept.stored, kept.length, Memory.read_write_self, List.length_take, List.take_eq_take_iff]
    omega
  · rw [kept.stored, Memory.get_write_outside]
    rwa [← kept.length]
  · rw [kept.truncated, decide_eq_true_iff]
  · rw [(all others).2.eq, same]
    exact kept.eq.symm

/-- Four bytes, with nothing in two of the parts. The third is cut in the middle of a letter, and
the last would still fit where that letter was. -/
theorem parts_are_kept_as_one_text_past_gap :
    let w := ["", "ab", "cé", "", "d"].foldl write (new .blank 2 4)
    ["", "ab", "cé", "", "d"].foldlM write? (new .blank 2 4) = some w ∧ w.length = 4 ∧
      w.memory.read 2 4 = [0x61, 0x62, 0x63, 0xc3] ∧ w.memory.get 6 = 0 ∧
      w.truncated = true ∧ ["abcéd"].foldl write (new .blank 2 4) = w := by
  intro w
  obtain ⟨accepted, length, stored, outside, cut, alike⟩ :=
    parts_are_kept_as_one_text .blank 2 4 ["", "ab", "cé", "", "d"]
  have four : w.length = 4 := length.trans (by decide)
  change w.memory.read 2 w.length = (utf8 _).take w.length at stored
  rw [four] at stored
  refine ⟨accepted, four, stored.trans (by decide),
    outside 6 (.inr (Nat.le_of_eq (congrArg (2 + ·) four))), cut.mpr (by decide),
    alike ["abcéd"] (by decide)⟩

end SlotWriter

end RingServer
