import RingServer.Environment
import Mathlib.Data.List.Forall2
import Mathlib.Data.List.TakeWhile

/-!
Texts without the blanks around them, and texts cut at a separator, each said without the function
that computes it. What is trimmed begins and ends without a blank and leaves out nothing but blanks
(`isTrimmed_iff`). The parts of a text give it back when they are joined, and the separator is in
none of them (`isSplit_iff`). Both together make the pieces of a list (`Variable.isPieces_iff`).
-/

namespace RingServer

namespace Text

variable {cs middle before after : List Char} {sep : Char} {parts : List (List Char)}

/-! ## Blanks -/

/-- What is left of a text without the blanks at both ends. -/
structure IsTrimmed (cs middle : List Char) : Prop where
  around : ∃ before after, cs = before ++ middle ++ after ∧ (∀ c ∈ before, isBlank c = true) ∧
    ∀ c ∈ after, isBlank c = true
  first : ∀ c ∈ middle.head?, isBlank c = false
  last : ∀ c ∈ middle.getLast?, isBlank c = false

/-- Blanks around a text without any are what is removed. -/
theorem isTrimmed_of_around (hb : ∀ c ∈ before, isBlank c = true)
    (hm : ∀ c ∈ middle, isBlank c = false) (ha : ∀ c ∈ after, isBlank c = true) :
    IsTrimmed (before ++ middle ++ after) middle where
  around := ⟨before, after, rfl, hb, ha⟩
  first c hc := hm c (List.mem_of_mem_head? hc)
  last c hc := hm c (List.mem_of_mem_getLast? hc)

theorem isTrimmed_self (h : ∀ c ∈ cs, isBlank c = false) : IsTrimmed cs cs := by
  have whole := @isTrimmed_of_around cs [] [] nofun h nofun
  rwa [List.nil_append, List.append_nil] at whole

theorem dropWhile_of_head (h : ∀ c ∈ cs.head?, isBlank c = false) : cs.dropWhile isBlank = cs := by
  cases cs with
  | nil => rfl
  | cons c cs => exact List.dropWhile_cons_of_neg (by simp [h c rfl])

/-- Nothing is left of a text that is blank throughout, and of no other. -/
theorem trim_nil_iff (cs : List Char) : trim cs = [] ↔ ∀ c ∈ cs, isBlank c = true := by
  rw [trim, List.reverse_eq_nil_iff, List.dropWhile_eq_nil_iff]
  simp only [List.mem_reverse]
  constructor
  · intro rest c hc
    have whole := List.takeWhile_append_dropWhile (p := isBlank) (l := cs)
    rw [← whole, List.mem_append] at hc
    exact hc.elim List.mem_takeWhile_imp (rest c)
  · exact fun all c hc => all c (List.dropWhile_subset _ hc)

theorem IsTrimmed.trim_eq (h : IsTrimmed cs middle) : trim cs = middle := by
  obtain ⟨before, after, rfl, hb, ha⟩ := h.around
  by_cases empty : middle = []
  · rw [empty, List.append_nil, trim_nil_iff]
    intro c hc
    exact (List.mem_append.mp hc).elim (hb c) (ha c)
  have start : ∀ c ∈ (middle ++ after).head?, isBlank c = false := by
    rw [List.head?_append_of_ne_nil _ empty]
    exact h.first
  have ending : ∀ c ∈ middle.reverse.head?, isBlank c = false := by
    rw [List.head?_reverse]
    exact h.last
  have back : ∀ c ∈ after.reverse, isBlank c = true := fun c hc => ha c (List.mem_reverse.mp hc)
  rw [trim, List.append_assoc, List.dropWhile_append_of_pos hb, dropWhile_of_head start,
    List.reverse_append, List.dropWhile_append_of_pos back, dropWhile_of_head ending,
    List.reverse_reverse]

theorem isTrimmed_trim (cs : List Char) : IsTrimmed cs (trim cs) := by
  have whole : cs.dropWhile isBlank =
      trim cs ++ ((cs.dropWhile isBlank).reverse.takeWhile isBlank).reverse := by
    rw [trim, ← List.reverse_append, List.takeWhile_append_dropWhile, List.reverse_reverse]
  refine ⟨⟨cs.takeWhile isBlank, ((cs.dropWhile isBlank).reverse.takeWhile isBlank).reverse, ?_,
    fun c hc => List.mem_takeWhile_imp hc,
    fun c hc => List.mem_takeWhile_imp (List.mem_reverse.mp hc)⟩, ?_, ?_⟩
  · rw [List.append_assoc, ← whole, List.takeWhile_append_dropWhile]
  · intro c hc
    have first := List.head?_dropWhile_not isBlank cs
    rwa [whole, List.head?_append, Option.mem_def.mp hc] at first
  · intro c hc
    have first := List.head?_dropWhile_not isBlank (cs.dropWhile isBlank).reverse
    rw [trim, List.getLast?_reverse] at hc
    rwa [Option.mem_def.mp hc] at first

theorem isTrimmed_iff : IsTrimmed cs middle ↔ trim cs = middle :=
  ⟨IsTrimmed.trim_eq, fun h => h ▸ isTrimmed_trim cs⟩

/-! ## Separators -/

/-- The parts of a text between its separators. -/
structure IsSplit (sep : Char) (cs : List Char) (parts : List (List Char)) : Prop where
  nonempty : parts ≠ []
  joined : [sep].intercalate parts = cs
  free : ∀ part ∈ parts, sep ∉ part

theorem not_mem_of_mem_splitOn {part : List Char} (h : part ∈ cs.splitOn sep) : sep ∉ part := by
  induction cs generalizing part with
  | nil => simp_all
  | cons c cs ih =>
    rw [List.splitOn_cons_eq_if_modifyHead] at h
    split at h
    · rcases List.mem_cons.mp h with rfl | h
      · exact List.not_mem_nil
      · exact ih h
    next other =>
      have ne : sep ≠ c := fun e => other (beq_iff_eq.mpr e.symm)
      cases hs : cs.splitOn sep with
      | nil => exact absurd hs (List.splitOn_ne_nil sep cs)
      | cons first rest =>
        rw [hs] at h ih
        rcases List.mem_cons.mp h with rfl | h
        · exact List.not_mem_cons_of_ne_of_not_mem ne (ih List.mem_cons_self)
        · exact ih (List.mem_cons_of_mem _ h)

theorem isSplit_iff : IsSplit sep cs parts ↔ cs.splitOn sep = parts := by
  constructor
  · rintro ⟨nonempty, rfl, free⟩
    exact List.splitOn_intercalate sep free nonempty
  · rintro rfl
    exact ⟨List.splitOn_ne_nil sep cs, List.intercalate_splitOn sep,
      fun part => not_mem_of_mem_splitOn⟩

theorem mem_intercalate {c : Char} (h : c ∈ [sep].intercalate parts) :
    c = sep ∨ ∃ part ∈ parts, c ∈ part := by
  induction parts with
  | nil => cases h
  | cons part parts ih =>
    cases parts with
    | nil =>
      rw [List.intercalate_singleton] at h
      exact .inr ⟨part, List.mem_cons_self, h⟩
    | cons next rest =>
      rw [List.intercalate_cons_cons] at h
      rcases List.mem_append.mp h with h | h
      · rcases List.mem_append.mp h with h | h
        · exact .inr ⟨part, List.mem_cons_self, h⟩
        · exact .inl (List.mem_singleton.mp h)
      · rcases ih h with e | ⟨p, hp, hc⟩
        · exact .inl e
        · exact .inr ⟨p, List.mem_cons_of_mem _ hp, hc⟩

end Text

/-! ## Pieces -/

namespace Variable

variable {s : String} {ps : List String}

/-- What a text has between its commas, without the blanks around each piece and without the empty
pieces. -/
def IsPieces (s : String) (ps : List String) : Prop :=
  ∃ parts trimmed, Text.IsSplit ',' s.toList parts ∧ List.Forall₂ Text.IsTrimmed parts trimmed ∧
    ps.map String.toList = trimmed.filter fun cs => cs ≠ []

theorem isPieces_iff : IsPieces s ps ↔ pieces s = ps := by
  have trims : ∀ parts trimmed, List.Forall₂ Text.IsTrimmed parts trimmed ↔
      parts.map Text.trim = trimmed := by
    intro parts trimmed
    have same : Text.IsTrimmed = fun cs middle => Eq (Text.trim cs) middle := by
      funext cs middle
      exact propext Text.isTrimmed_iff
    rw [same, ← List.forall₂_map_left_iff, List.forall₂_eq_eq_eq]
  have texts : ∀ css : List (List Char),
      ps.map String.toList = css ↔ css.map String.ofList = ps := by
    intro css
    constructor
    · rintro rfl
      simp
    · rintro rfl
      simp
  simp only [IsPieces, Text.isSplit_iff, trims, texts, pieces, exists_eq_left', exists_and_left]

end Variable

end RingServer
