import RingServer.Proofs.Environment
import Mathlib.Data.List.Nodup
import Mathlib.Logic.Function.Basic

/-!
Settings from an environment. Each field is set by a variable of its own (`Field.key`), and a text
may stand for a value of the field (`Field.Denotes`). Every field but the rings is what its reader
makes of its variable, and the default for want of that (`Field.get_of_ok`), so nothing but the list
of rings can make a configuration fail, and no variable reaches into the field of another
(`variables_do_not_interfere`).
-/

namespace RingServer

open Text (IsNumeral IsInteger)

/-! ## Words -/

namespace Text

/-- The same word, any of whose letters may be capitals. -/
def IsCaseOf (s word : String) : Prop :=
  List.Forall₂ (fun c d => c = d ∨ c.isUpper = true ∧ c.toNat + 32 = d.toNat) s.toList word.toList

theorem toLower_eq_iff {c d : Char} (h : d.isUpper = false) :
    c.toLower = d ↔ c = d ∨ c.isUpper = true ∧ c.toNat + 32 = d.toNat := by
  unfold Char.toLower
  split
  next letter =>
    have capital : c.isUpper = true := decide_eq_true letter
    have small : c.val.toNat ≤ 90 := UInt32.le_iff_toNat_le.mp letter.2
    have moved : (c.val + 32).toNat = c.val.toNat + 32 := by
      rw [UInt32.toNat_add]
      show (c.val.toNat + 32) % 4294967296 = _
      omega
    have other : c ≠ d := by
      rintro rfl
      rw [capital] at h
      cases h
    rw [Char.ext_iff, ← UInt32.toNat_inj, or_iff_right other, and_iff_right capital]
    show (c.val + 32).toNat = d.val.toNat ↔ c.val.toNat + 32 = d.val.toNat
    rw [moved]
  next other =>
    have plain : ¬c.isUpper = true := fun e => other (of_decide_eq_true e)
    rw [or_iff_left fun e => plain e.1]

theorem map_toLower_eq_iff {cs ds : List Char} (h : ∀ d ∈ ds, d.isUpper = false) :
    cs.map Char.toLower = ds ↔
      List.Forall₂ (fun c d => c = d ∨ c.isUpper = true ∧ c.toNat + 32 = d.toNat) cs ds := by
  induction cs generalizing ds with
  | nil => rw [List.map_nil, List.forall₂_nil_left_iff, eq_comm]
  | cons c cs ih =>
    cases ds with
    | nil => simp
    | cons d ds =>
      obtain ⟨hd, hds⟩ := List.forall_mem_cons.mp h
      rw [List.map_cons, List.cons.injEq, toLower_eq_iff hd, ih hds, List.forall₂_cons]

/-- No letter of the word is a capital. -/
def isSmall (word : String) : Bool := word.toList.all fun d => !d.isUpper

theorem lowerAscii_eq_iff {s word : String} (h : isSmall word = true) :
    lowerAscii s = word ↔ IsCaseOf s word := by
  have small : ∀ d ∈ word.toList, d.isUpper = false := fun d hd => by
    simpa using List.all_eq_true.mp h d hd
  rw [IsCaseOf, ← map_toLower_eq_iff small, ← String.toList_inj, lowerAscii, String.toList_ofList]

theorem lowerAscii_mem_iff {s : String} {words : List String}
    (h : ∀ word ∈ words, isSmall word = true) :
    lowerAscii s ∈ words ↔ ∃ word ∈ words, IsCaseOf s word := by
  constructor
  · exact fun hs => ⟨_, hs, (lowerAscii_eq_iff (h _ hs)).mp rfl⟩
  · rintro ⟨word, hw, same⟩
    rwa [(lowerAscii_eq_iff (h word hw)).mpr same]

end Text

/-- The words for yes and for no. -/
def Variable.flagWords : Bool → List String
  | true => ["1", "true", "yes", "on"]
  | false => ["0", "false", "no", "off"]

theorem Variable.flag?_eq_some_iff {s : String} {b : Bool} :
    flag? s = some b ↔ ∃ word ∈ flagWords b, Text.IsCaseOf s word := by
  have small : ∀ word ∈ flagWords b, Text.isSmall word = true := by cases b <;> decide
  have apart : ∀ word ∈ flagWords true, word ∉ flagWords false := by decide
  rw [← Text.lowerAscii_mem_iff small]
  generalize hw : Text.lowerAscii s = word
  have choice : flag? s = if word ∈ flagWords true then some true
      else if word ∈ flagWords false then some false else none := by
    rw [← hw]
    rfl
  rw [choice]
  split
  next yes =>
    have no := apart word yes
    cases b <;> simp [yes, no]
  split
  next other no => cases b <;> simp [other, no]
  next other unknown => cases b <;> simp [other, unknown]

/-- The words for a way to reply. -/
def ReplyMode.words : ReplyMode → List String
  | acknowledge => ["ack"]
  | echo => ["echo"]
  | silent => ["silent", "none"]

theorem ReplyMode.parse_eq_ok_iff {s : String} {mode : ReplyMode} :
    parse s = .ok mode ↔ ∃ word ∈ mode.words, Text.IsCaseOf s word := by
  have small : ∀ word ∈ mode.words, Text.isSmall word = true := by cases mode <;> decide
  rw [← Text.lowerAscii_mem_iff small, parse]
  generalize Text.lowerAscii s = word
  split
  next first =>
    subst first
    cases mode <;> simp [words]
  split
  next second =>
    subst second
    cases mode <;> simp [words]
  split
  next third =>
    rcases third with rfl | rfl <;> cases mode <;> simp [words]
  next first second third =>
    cases mode <;> simp_all [words]

namespace Settings

/-! ## Fields -/

/-- The fields that the environment can set. -/
inductive Field
  | port
  | backlog
  | sqEntries
  | sqPoll
  | sqPollIdleMs
  | sqPollCpu
  | poolEntries
  | poolEntrySize
  | rings
  | receiveGroup
  | reply
  | accessLog
  | logLevel
  deriving DecidableEq

namespace Field

/-- The variable that sets a field. -/
def key : Field → String
  | port => "RINGD_PORT"
  | backlog => "RINGD_BACKLOG"
  | sqEntries => "RINGD_SQ_ENTRIES"
  | sqPoll => "RINGD_SQPOLL"
  | sqPollIdleMs => "RINGD_SQPOLL_IDLE_MS"
  | sqPollCpu => "RINGD_SQPOLL_CPU"
  | poolEntries => "RINGD_POOL_ENTRIES"
  | poolEntrySize => "RINGD_POOL_ENTRY_SIZE"
  | rings => "RINGD_BUF_RINGS"
  | receiveGroup => "RINGD_CONN_BGID"
  | reply => "RINGD_REPLY"
  | accessLog => "RINGD_ACCESS_LOG"
  | logLevel => "RINGD_LOG_LEVEL"

abbrev Value : Field → Type
  | port | receiveGroup => UInt16
  | backlog => Int32
  | sqEntries | sqPollIdleMs => UInt32
  | sqPoll | accessLog => Bool
  | sqPollCpu => Option UInt32
  | poolEntries | poolEntrySize => Nat
  | rings => List RingParams
  | reply => ReplyMode
  | logLevel => String

def get : (k : Field) → Settings → k.Value
  | port, s => s.port
  | backlog, s => s.backlog
  | sqEntries, s => s.sqEntries
  | sqPoll, s => s.sqPoll
  | sqPollIdleMs, s => s.sqPollIdleMs
  | sqPollCpu, s => s.sqPollCpu
  | poolEntries, s => s.poolEntries
  | poolEntrySize, s => s.poolEntrySize
  | rings, s => s.rings
  | receiveGroup, s => s.receiveGroup
  | reply, s => s.reply
  | accessLog, s => s.accessLog
  | logLevel, s => s.logLevel

/-- The text stands for a value of the field. -/
def Denotes : (k : Field) → String → k.Value → Prop
  | port, t, n | receiveGroup, t, n => IsNumeral t.toList n.toNat
  | backlog, t, i => IsInteger t.toList i.toInt
  | sqEntries, t, n | sqPollIdleMs, t, n => IsNumeral t.toList n.toNat
  | sqPoll, t, b | accessLog, t, b => ∃ word ∈ Variable.flagWords b, Text.IsCaseOf t word
  | sqPollCpu, t, cpu => ∃ n, cpu = some n ∧ IsNumeral t.toList n.toNat
  | poolEntries, t, n | poolEntrySize, t, n => IsNumeral t.toList n ∧ n < UInt64.size
  | rings, t, ps => ∃ qs, Variable.IsPieces t qs ∧
      List.Forall₂ (fun q p => RingParams.Describes q p ∧ p.IsValid) qs ps
  | reply, t, mode => ∃ word ∈ mode.words, Text.IsCaseOf t word
  | logLevel, t, level => level = t

def all : List Field :=
  [port, backlog, sqEntries, sqPoll, sqPollIdleMs, sqPollCpu, poolEntries, poolEntrySize, rings,
    receiveGroup, reply, accessLog, logLevel]

theorem key_injective {j k : Field} (h : j.key = k.key) : j = k := by
  have distinct : (all.map key).Nodup := by decide
  have mem : ∀ k, k ∈ all := by
    intro k
    cases k <;> decide
  exact List.inj_on_of_nodup_map distinct (mem j) (mem k) h

theorem ext {s s' : Settings} (h : ∀ k : Field, k.get s = k.get s') : s = s' := by
  obtain ⟨⟩ := s
  obtain ⟨⟩ := s'
  simp only [mk.injEq]
  exact ⟨h .port, h .backlog, h .sqEntries, h .sqPoll, h .sqPollIdleMs, h .sqPollCpu,
    h .poolEntries, h .poolEntrySize, h .rings, h .receiveGroup, h .reply, h .accessLog,
    h .logLevel⟩

variable {env env' : Environment} {s s' : Settings} {k : Field} {f : Fault}

theorem rings_of_ok (h : ofEnvironment env = .ok s) :
    (env rings.key).readList RingParams.parse default.rings = .ok s.rings := by
  obtain ⟨ps, read, e⟩ := bind_eq_ok_iff.mp h
  cases e
  exact read

theorem ofEnvironment_error_iff_rings : ofEnvironment env = .error f ↔
    (env rings.key).readList RingParams.parse default.rings = .error f := by
  refine bind_eq_error_iff.trans ⟨fun h => h.resolve_right ?_, .inl⟩
  rintro ⟨ps, -, e⟩
  cases e

/-- What reads the text of a variable. The rings are not read by themselves. -/
def reader : (k : Field) → String → Option k.Value
  | port, t | receiveGroup, t => (Text.readUInt16 t).toOption
  | backlog, t => (Text.readInt32 t).toOption
  | sqEntries, t | sqPollIdleMs, t => (Text.readUInt32 t).toOption
  | sqPoll, t | accessLog, t => Variable.flag? t
  | sqPollCpu, t => (Text.readUInt32 t).toOption.map some
  | poolEntries, t | poolEntrySize, t => (Text.readSize t).toOption
  | rings, _ => none
  | reply, t => (ReplyMode.parse t).toOption
  | logLevel, t => some t

theorem reader_eq_some_iff (h : k ≠ .rings) {t : String} {x : k.Value} :
    k.reader t = some x ↔ k.Denotes t x := by
  cases k with
  | port | receiveGroup => exact toOption_eq_some_iff.trans Text.readUInt16_eq_ok_iff
  | backlog => exact toOption_eq_some_iff.trans Text.readInt32_eq_ok_iff
  | sqEntries | sqPollIdleMs => exact toOption_eq_some_iff.trans Text.readUInt32_eq_ok_iff
  | sqPoll | accessLog => exact Variable.flag?_eq_some_iff
  | sqPollCpu =>
    show (Text.readUInt32 t).toOption.map some = some x ↔ ∃ n, x = some n ∧ _
    rw [Option.map_eq_some_iff]
    simp only [toOption_eq_some_iff, Text.readUInt32_eq_ok_iff]
    exact exists_congr fun n => by rw [and_comm, eq_comm]
  | poolEntries | poolEntrySize => exact toOption_eq_some_iff.trans Text.readSize_eq_ok_iff
  | rings => exact absurd rfl h
  | reply => exact toOption_eq_some_iff.trans ReplyMode.parse_eq_ok_iff
  | logLevel => exact ⟨fun e => (Option.some.inj e).symm, fun e => congrArg some e.symm⟩

/-- A field is what is read from its variable, and its default for want of that. -/
theorem get_of_ok (h : k ≠ .rings) (hs : ofEnvironment env = .ok s) :
    k.get s = ((env k.key).value?.bind k.reader).getD (k.get default) := by
  obtain ⟨ps, -, e⟩ := bind_eq_ok_iff.mp hs
  cases e
  cases k with
  | rings => exact absurd rfl h
  | sqPollCpu =>
    show (env "RINGD_SQPOLL_CPU").read? Text.readUInt32 = ((env "RINGD_SQPOLL_CPU").value?.bind
      fun t => (Text.readUInt32 t).toOption.map some).getD none
    rw [Variable.read?]
    cases (env "RINGD_SQPOLL_CPU").value? with
    | none => rfl
    | some t =>
      show (Text.readUInt32 t).toOption = ((Text.readUInt32 t).toOption.map some).getD none
      cases (Text.readUInt32 t).toOption <;> rfl
  | _ => rfl

/-- A field depends on its own variable only. -/
theorem get_eq_of_key_eq (hs : ofEnvironment env = .ok s) (hs' : ofEnvironment env' = .ok s')
    (h : env k.key = env' k.key) : k.get s = k.get s' := by
  by_cases hk : k = .rings
  · subst hk
    have read := rings_of_ok hs
    rw [h, rings_of_ok hs'] at read
    exact (Except.ok.inj read).symm
  · rw [get_of_ok hk hs, get_of_ok hk hs', h]

theorem get_of_denotes {t : String} {x : k.Value} (hs : ofEnvironment env = .ok s)
    (ht : (env k.key).Gives t) (hx : k.Denotes t x) : k.get s = x := by
  by_cases hk : k = .rings
  · subst hk
    obtain ⟨qs, pieces, described⟩ := hx
    have read := rings_of_ok hs
    have parsed := mapM_eq_ok_iff.mpr (described.imp fun _ _ => RingParams.parse_eq_ok_iff.mpr)
    rw [ht.readList_eq pieces, parsed] at read
    exact (Except.ok.inj read).symm
  · rw [get_of_ok hk hs, Variable.value?_eq_some_iff.mpr ht, Option.bind_some,
      (reader_eq_some_iff hk).mpr hx, Option.getD_some]

theorem get_of_silent (hs : ofEnvironment env = .ok s) (h : (env k.key).Silent) :
    k.get s = k.get default := by
  by_cases hk : k = .rings
  · subst hk
    have read := rings_of_ok hs
    rw [h.readList_eq] at read
    exact (Except.ok.inj read).symm
  · rw [get_of_ok hk hs, Variable.value?_eq_none_iff.mpr h]
    rfl

/-- A text that stands for nothing is as good as none. -/
theorem ofEnvironment_update_unset (hk : k ≠ .rings)
    (h : ∀ t, (env k.key).Gives t → ¬∃ x, k.Denotes t x) :
    ofEnvironment (Function.update env k.key .unset) = ofEnvironment env := by
  have others : ∀ j, j ≠ k → Function.update env k.key .unset j.key = env j.key := fun j hj =>
    Function.update_of_ne (fun e => hj (key_injective e)) _ _
  have unread : (env k.key).value?.bind k.reader = none := by
    cases hv : (env k.key).value? with
    | none => rfl
    | some t =>
      cases hr : k.reader t with
      | none => exact hr
      | some x =>
        exact absurd ⟨x, (reader_eq_some_iff hk).mp hr⟩ (h t (Variable.value?_eq_some_iff.mp hv))
  have faults : ∀ f, ofEnvironment (Function.update env k.key .unset) = .error f ↔
      ofEnvironment env = .error f := by
    intro f
    rw [ofEnvironment_error_iff_rings, ofEnvironment_error_iff_rings, others .rings hk.symm]
  cases hs : ofEnvironment env with
  | error f => exact (faults f).mpr hs
  | ok s =>
    cases hs' : ofEnvironment (Function.update env k.key .unset) with
    | error f =>
      rw [(faults f).mp hs'] at hs
      cases hs
    | ok s' =>
      refine congrArg Except.ok (ext fun j => ?_)
      by_cases hj : j = k
      · subst hj
        rw [get_of_ok hk hs', get_of_ok hk hs, unread, Function.update_self]
        rfl
      · exact get_eq_of_key_eq hs' hs (others j hj)

end Field

/-! ## Environments -/

variable {env : Environment} {f : Fault}

/-- The rings alone can be at fault: it is the first piece that describes no valid ring. -/
theorem ofEnvironment_eq_error_iff : ofEnvironment env = .error f ↔ ∃ t before q after,
    (env Field.rings.key).Gives t ∧ Variable.IsPieces t (before ++ q :: after) ∧
      (∀ b ∈ before, ∃ p, RingParams.Describes b p ∧ p.IsValid) ∧
        RingParams.parse q = .error f := by
  rw [Field.ofEnvironment_error_iff_rings]
  constructor
  · intro h
    rcases (env Field.rings.key).silent_or_gives with silent | ⟨t, given⟩
    · rw [silent.readList_eq] at h
      cases h
    rw [given.readList_eq (Variable.isPieces_iff.mpr rfl), mapM_eq_error_iff] at h
    obtain ⟨before, q, after, pieces, fine, bad⟩ := h
    exact ⟨t, before, q, after, given, Variable.isPieces_iff.mpr pieces,
      fun b hb => (fine b hb).imp fun p => RingParams.parse_eq_ok_iff.mp, bad⟩
  · rintro ⟨t, before, q, after, given, pieces, fine, bad⟩
    rw [given.readList_eq pieces, mapM_eq_error_iff]
    exact ⟨before, q, after, rfl, fun b hb => (fine b hb).imp fun p =>
      RingParams.parse_eq_ok_iff.mpr, bad⟩

theorem ofEnvironment_fails_iff : (∃ f, ofEnvironment env = .error f) ↔ ∃ t qs q,
    (env Field.rings.key).Gives t ∧ Variable.IsPieces t qs ∧ q ∈ qs ∧
      ¬∃ p, RingParams.Describes q p ∧ p.IsValid := by
  constructor
  · rintro ⟨f, h⟩
    obtain ⟨t, before, q, after, given, pieces, -, bad⟩ := ofEnvironment_eq_error_iff.mp h
    refine ⟨t, _, q, given, pieces, by simp, ?_⟩
    rintro ⟨p, hp⟩
    rw [RingParams.parse_eq_ok_iff.mpr hp] at bad
    cases bad
  · rintro ⟨t, qs, q, given, pieces, hq, bad⟩
    cases hs : ofEnvironment env with
    | error f => exact ⟨f, rfl⟩
    | ok s =>
      have read := Field.rings_of_ok hs
      rw [given.readList_eq pieces] at read
      obtain ⟨p, hp⟩ := exists_of_mapM_eq_ok read q hq
      exact absurd ⟨p, RingParams.parse_eq_ok_iff.mp hp⟩ bad

/-- Settings fail for the list of rings alone, with the fault of its first piece that describes no
valid ring. Each field is determined by its own variable: it is the value that the text stands for,
or the default if there is no text, and a text that stands for no value is as good as none. -/
theorem variables_do_not_interfere :
    (∀ env, (∃ f, ofEnvironment env = .error f) ↔ ∃ t qs q, (env Field.rings.key).Gives t ∧
      Variable.IsPieces t qs ∧ q ∈ qs ∧ ¬∃ p, RingParams.Describes q p ∧ p.IsValid) ∧
    (∀ env f, ofEnvironment env = .error f ↔ ∃ t before q after,
      (env Field.rings.key).Gives t ∧ Variable.IsPieces t (before ++ q :: after) ∧
        (∀ b ∈ before, ∃ p, RingParams.Describes b p ∧ p.IsValid) ∧
        RingParams.parse q = .error f) ∧
    (∀ env env' s s' (k : Field), ofEnvironment env = .ok s → ofEnvironment env' = .ok s' →
      env k.key = env' k.key → k.get s = k.get s') ∧
    (∀ env s (k : Field), ofEnvironment env = .ok s →
      (∀ t x, (env k.key).Gives t → k.Denotes t x → k.get s = x) ∧
        ((env k.key).Silent → k.get s = k.get default)) ∧
    ∀ (env : Environment) (k : Field), k ≠ .rings →
      (∀ t, (env k.key).Gives t → ¬∃ x, k.Denotes t x) →
        ofEnvironment (Function.update env k.key .unset) = ofEnvironment env := by
  refine ⟨fun env => ofEnvironment_fails_iff, fun env f => ofEnvironment_eq_error_iff, ?_, ?_, ?_⟩
  · exact fun env env' s s' k hs hs' h => Field.get_eq_of_key_eq hs hs' h
  · intro env s k hs
    exact ⟨fun t x => Field.get_of_denotes hs, Field.get_of_silent hs⟩
  · exact fun env k hk h => Field.ofEnvironment_update_unset hk h

/-- A second ring that has twelve entries, and a third that has no form. -/
def crooked : Environment := fun name =>
  if name = "RINGD_BUF_RINGS" then .text "4:64:0, 12:64:1,ring" else .unset

/-- Nothing but one switch. -/
def switched : Environment := fun name => if name = "RINGD_SQPOLL" then .text " On" else .unset

/-- The same switch, and a port that is no number. -/
def misspelt : Environment := fun name =>
  if name = "RINGD_PORT" then .text "80x" else switched name

theorem variables_do_not_interfere_when_misspelt :
    ofEnvironment crooked = .error (.config (.ringEntries 1 12)) ∧
    ∃ s s', ofEnvironment misspelt = .ok s ∧ ofEnvironment switched = .ok s' ∧
      misspelt Field.sqPoll.key = switched Field.sqPoll.key ∧ s.sqPoll = s'.sqPoll ∧
      (misspelt Field.sqPoll.key).Gives "On" ∧ Field.sqPoll.Denotes "On" true ∧ s.sqPoll = true ∧
      (misspelt Field.rings.key).Silent ∧ s.rings = default.rings ∧
      (∀ t, (misspelt Field.port.key).Gives t → ¬∃ x, Field.port.Denotes t x) ∧
      ofEnvironment (Function.update misspelt Field.port.key .unset) = .ok s := by
  obtain ⟨-, faults, agree, settle, unset⟩ := variables_do_not_interfere
  have crooked' : (crooked Field.rings.key).Gives "4:64:0, 12:64:1,ring" :=
    Variable.value?_eq_some_iff.mp (by decide)
  have pieces : Variable.IsPieces "4:64:0, 12:64:1,ring" (["4:64:0"] ++ "12:64:1" :: ["ring"]) :=
    Variable.isPieces_iff.mpr (by decide)
  have straight : RingParams.parse "4:64:0" = .ok ⟨4, 64, 0⟩ := by decide
  have given : (misspelt Field.sqPoll.key).Gives "On" :=
    Variable.value?_eq_some_iff.mp (by decide)
  have yes : Field.sqPoll.Denotes "On" true :=
    (Field.reader_eq_some_iff (by decide)).mp (by decide)
  have silent : (misspelt Field.rings.key).Silent := Variable.value?_eq_none_iff.mp (by decide)
  have unread : ∀ t, (misspelt Field.port.key).Gives t → ¬∃ x, Field.port.Denotes t x := by
    rintro t ht ⟨x, hx⟩
    have value : (misspelt Field.port.key).value? = some "80x" := by decide
    obtain rfl : "80x" = t :=
      Option.some.inj (value.symm.trans (Variable.value?_eq_some_iff.mpr ht))
    have read := (Field.reader_eq_some_iff (by decide)).mpr hx
    have none : Field.port.reader "80x" = none := by decide
    rw [none] at read
    cases read
  have refused := (faults crooked _).mpr ⟨_, ["4:64:0"], "12:64:1", ["ring"], crooked', pieces,
    List.forall_mem_singleton.mpr ⟨_, RingParams.parse_eq_ok_iff.mp straight⟩, rfl⟩
  have loaded : ofEnvironment misspelt = .ok _ := rfl
  refine ⟨refused, _, _, loaded, rfl, rfl, ?_, given, yes, ?_, silent, ?_, unread, ?_⟩
  · exact agree misspelt switched _ _ .sqPoll loaded rfl rfl
  · exact (settle misspelt _ .sqPoll loaded).1 "On" true given yes
  · exact (settle misspelt _ .rings loaded).2 silent
  · rw [unset misspelt .port (by decide) unread, loaded]

end Settings

end RingServer
