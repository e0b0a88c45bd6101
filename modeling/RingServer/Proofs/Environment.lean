import RingServer.Settings
import RingServer.Proofs.Pieces
import RingServer.Proofs.Results
import RingServer.Proofs.RingParams

/-!
What the variables of an environment give. A variable is silent, or it gives a text that has no
blanks around it. A list is read piece by piece, in order, and the first piece that cannot be read
is what its answer is about (`Variable.lists_are_read_whole`). Rings are read back from the text
that the settings are reported with.
-/

namespace RingServer

namespace Variable

variable {v : Variable} {s t : String}

/-! ## Variables -/

/-- The text of a variable, without the blanks around it, if anything is left. -/
inductive Gives : Variable → String → Prop
  | text {t s : String} (h : Text.IsTrimmed t.toList s.toList) (hs : s ≠ "") : Gives (text t) s

/-- A variable that is not set, or not to a text, or to a text of nothing but blanks. -/
inductive Silent : Variable → Prop
  | unset : Silent unset
  | garbled : Silent garbled
  | blank {t : String} (h : ∀ c ∈ t.toList, Text.isBlank c = true) : Silent (text t)

theorem value?_eq_some_iff : v.value? = some s ↔ v.Gives s := by
  constructor
  · intro h
    cases v with
    | unset => cases h
    | garbled => cases h
    | text t =>
      rw [value?] at h
      split at h
      · cases h
      next more =>
        cases h
        refine .text ?_ fun e => more ?_
        · rw [String.toList_ofList]
          exact Text.isTrimmed_trim t.toList
        · exact String.ofList_eq_empty_iff.mp e
  · rintro ⟨h, hs⟩
    have more : s.toList ≠ [] := fun e => hs (String.toList_eq_nil_iff.mp e)
    rw [value?, h.trim_eq, if_neg more, String.ofList_toList]

theorem value?_eq_none_iff : v.value? = none ↔ v.Silent := by
  cases v with
  | unset => exact ⟨fun _ => .unset, fun _ => rfl⟩
  | garbled => exact ⟨fun _ => .garbled, fun _ => rfl⟩
  | text t =>
    rw [value?]
    split
    next none => exact ⟨fun _ => .blank ((Text.trim_nil_iff _).mp none), fun _ => rfl⟩
    next more =>
      refine ⟨nofun, fun h => ?_⟩
      cases h with
      | blank h => exact absurd ((Text.trim_nil_iff _).mpr h) more

theorem silent_or_gives (v : Variable) : v.Silent ∨ ∃ s, v.Gives s := by
  cases h : v.value? with
  | none => exact .inl (value?_eq_none_iff.mp h)
  | some s => exact .inr ⟨s, value?_eq_some_iff.mp h⟩

theorem Gives.not_silent (h : v.Gives s) : ¬v.Silent := by
  rw [← value?_eq_none_iff, value?_eq_some_iff.mpr h]
  exact nofun

section Reading

variable {ε α : Type} {read : String → Except ε α} {ps : List String}

theorem Silent.readList_eq (h : v.Silent) (default : List α) :
    v.readList read default = .ok default := by
  rw [readList, value?_eq_none_iff.mpr h]

theorem Gives.readList_eq (h : v.Gives s) (hp : IsPieces s ps) (default : List α) :
    v.readList read default = ps.mapM read := by
  rw [readList, value?_eq_some_iff.mpr h, ← isPieces_iff.mp hp]

end Reading

end Variable

/-! ## Rings -/

namespace Settings

variable {s : Settings}

theorem toList_ringsText (s : Settings) :
    s.ringsText.toList = [','].intercalate (s.rings.map fun p => p.text.toList) := by
  rw [ringsText, String.toList_intercalate, List.map_map]
  rfl

theorem isBlank_of_mem_ringsText {c : Char} (h : c ∈ s.ringsText.toList) :
    Text.isBlank c = false := by
  rw [toList_ringsText] at h
  rcases Text.mem_intercalate h with rfl | ⟨part, hp, hc⟩
  · decide
  · obtain ⟨p, -, rfl⟩ := List.mem_map.mp hp
    exact RingParams.isBlank_of_mem p.isTriple_text hc

theorem isPieces_ringsText (h : s.rings ≠ []) :
    Variable.IsPieces s.ringsText (s.rings.map RingParams.text) := by
  have parts : Text.IsSplit ',' s.ringsText.toList (s.rings.map fun p => p.text.toList) := by
    refine ⟨?_, (toList_ringsText s).symm, fun part hp comma => ?_⟩
    · simpa using h
    · obtain ⟨p, -, rfl⟩ := List.mem_map.mp hp
      rcases p.isTriple_text.mem comma with e | e | e <;> exact absurd e (by decide)
  refine ⟨_, _, parts, List.forall₂_same.mpr fun part hp => ?_, ?_⟩
  · obtain ⟨p, -, rfl⟩ := List.mem_map.mp hp
    exact Text.isTrimmed_self fun c hc => RingParams.isBlank_of_mem p.isTriple_text hc
  · rw [List.map_map, List.filter_eq_self.mpr]
    · rfl
    · intro part hp
      obtain ⟨p, -, rfl⟩ := List.mem_map.mp hp
      exact decide_eq_true p.isTriple_text.ne_nil

theorem gives_ringsText (h : s.rings ≠ []) : (Variable.text s.ringsText).Gives s.ringsText := by
  refine .text (Text.isTrimmed_self fun c => isBlank_of_mem_ringsText) fun empty => ?_
  have none : Variable.pieces "" = [] := by decide
  have pieces := Variable.isPieces_iff.mp (isPieces_ringsText h)
  rw [empty, none] at pieces
  exact h (List.map_eq_nil_iff.mp pieces.symm)

end Settings

namespace Variable

/-- A list is the default if its variable is silent, and nothing but what the pieces of its text are
read as otherwise: all of them in order, or the fault of the first that cannot be read. Rings that
are valid are read back from the text that the settings are reported with. -/
theorem lists_are_read_whole {ε α : Type} (read : String → Except ε α) (v : Variable) :
    ((v.Silent ∧ ∀ default, v.readList read default = .ok default) ∨
      (¬v.Silent ∧ ∃ s ps, v.Gives s ∧ (∀ qs, IsPieces s qs ↔ qs = ps) ∧ ∀ default,
        (∀ xs, v.readList read default = .ok xs ↔
          List.Forall₂ (fun p x => read p = .ok x) ps xs) ∧
        ∀ e, v.readList read default = .error e ↔ ∃ before p after, ps = before ++ p :: after ∧
          (∀ q ∈ before, ∃ x, read q = .ok x) ∧ read p = .error e)) ∧
    (Nonempty α → ((∀ default, v.readList read default = .ok default) ↔ v.Silent)) ∧
    ∀ s : Settings, s.rings ≠ [] → (∀ p ∈ s.rings, p.validate = .ok ()) →
      ("buf_rings", s.ringsText) ∈ s.event.fields ∧
        ∀ default, (text s.ringsText).readList RingParams.parse default = .ok s.rings := by
  refine ⟨?_, ?_, ?_⟩
  · rcases v.silent_or_gives with silent | ⟨s, given⟩
    · exact .inl ⟨silent, silent.readList_eq⟩
    · refine .inr ⟨given.not_silent, s, pieces s, given, fun qs => isPieces_iff.trans eq_comm, ?_⟩
      intro default
      rw [given.readList_eq (isPieces_iff.mpr rfl)]
      exact ⟨fun xs => mapM_eq_ok_iff, fun e => mapM_eq_error_iff⟩
  · rintro ⟨x⟩
    refine ⟨fun h => ?_, Silent.readList_eq⟩
    -- A list that is given is read alike whatever its default is.
    rcases v.silent_or_gives with silent | ⟨s, given⟩
    · exact silent
    have pieces : IsPieces s (pieces s) := isPieces_iff.mpr rfl
    have none := h []
    have one := h [x]
    rw [given.readList_eq pieces] at none one
    rw [none] at one
    cases one
  · intro s some valid
    refine ⟨by simp [Settings.event], fun default => ?_⟩
    rw [(Settings.gives_ringsText some).readList_eq (Settings.isPieces_ringsText some),
      mapM_eq_ok_iff, List.forall₂_map_left_iff, List.forall₂_same]
    exact fun p hp => RingParams.parse_text (RingParams.validate_eq_ok_iff.mp (valid p hp))

/-- A piece of blanks is left out, and the first number that is too large is what the answer is
about. The default rings are read back. -/
theorem lists_are_read_whole_past_gap :
    (text " 1, ,70000,x").readList Text.readUInt16 [9] = .error .tooLarge ∧ Nonempty UInt16 ∧
      (¬∀ default, (text " 1, ,70000,x").readList Text.readUInt16 default = .ok default) ∧
      Settings.default.rings ≠ [] ∧ (∀ p ∈ Settings.default.rings, p.validate = .ok ()) ∧
      ∀ default, (text Settings.default.ringsText).readList RingParams.parse default =
        .ok Settings.default.rings := by
  obtain ⟨outcome, defaults, rings⟩ := lists_are_read_whole Text.readUInt16 (text " 1, ,70000,x")
  have filled : Settings.default.rings ≠ [] := nofun
  have valid : ∀ p ∈ Settings.default.rings, p.validate = .ok () := by decide
  have value : (text " 1, ,70000,x").value? = some "1, ,70000,x" := by decide
  have given := value?_eq_some_iff.mp value
  have several : Nonempty UInt16 := ⟨0⟩
  rcases outcome with ⟨silent, -⟩ | ⟨loud, s, ps, given', pieces, answers⟩
  · exact absurd silent given.not_silent
  obtain rfl : "1, ,70000,x" = s :=
    Option.some.inj (value.symm.trans (value?_eq_some_iff.mpr given'))
  have three : Variable.pieces "1, ,70000,x" = ["1", "70000", "x"] := by decide
  obtain rfl := (pieces _).mp (isPieces_iff.mpr three)
  have refused := ((answers [9]).2 .tooLarge).mpr
    ⟨["1"], "70000", ["x"], rfl, by simpa using ⟨1, by decide⟩, by decide⟩
  exact ⟨refused, several, mt (defaults several).mp loud, filled, valid,
    (rings Settings.default filled valid).2⟩

end Variable

end RingServer
