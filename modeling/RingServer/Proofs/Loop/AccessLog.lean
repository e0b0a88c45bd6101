import RingServer.Proofs.Printable
import RingServer.Proofs.Loop.Letters

/-!
What stands in the access log. Three things are told of: an accept, a message that reaches its
handler, and the end of a connection (`happening?`). A dispatch tries one fixed write to the
standard error for what happens with it, before any reply, unless no slot is free
(`dispatch_writes`). Its bytes are one line of printable text, whatever the peer is called and
whatever it has sent, and wherever the end of the slot cuts the line. So over a run the log holds
one line for each thing that happened while a slot was free, in order
(`access_log_tells_what_happened`).
-/

namespace RingServer

open Text (Bytes Printable printable_append printable_int printable_nat printable_escaped)

/-- What the access log tells of. -/
inductive Happening
  | accepted (fd : Descriptor) (peer : Option SocketAddress)
  | message (fd : Descriptor) (peer : Option SocketAddress) (buffer : UInt16) (payload : Bytes)
  | closed (fd : Descriptor) (connection : Connection)
  deriving DecidableEq

namespace Happening

def text : Happening → String
  | accepted fd peer => EventLoop.acceptedLine fd peer
  | message fd peer buffer payload => EventLoop.messageLine fd peer buffer payload
  | closed fd connection => EventLoop.closedLine fd connection

/-- The call of the handler that comes of it. -/
def call? : Happening → Option Call
  | message fd _ _ payload => some (fd, payload)
  | accepted _ _ | closed _ _ => none

theorem printable_text (h : Happening) : Printable h.text := by
  cases h with
  | accepted fd peer =>
    unfold text EventLoop.acceptedLine
    simp only [printable_append, and_assoc]
    exact ⟨by decide, printable_int fd.toInt, by decide, printable_peerText peer⟩
  | message fd peer buffer payload =>
    unfold text EventLoop.messageLine
    simp only [printable_append, and_assoc]
    exact ⟨by decide, printable_int fd.toInt, by decide, printable_peerText peer, by decide,
      printable_nat buffer.toNat, by decide, printable_nat payload.length, by decide,
      printable_escaped payload⟩
  | closed fd connection =>
    unfold text EventLoop.closedLine
    simp only [printable_append, and_assoc]
    exact ⟨by decide, printable_int fd.toInt, by decide, printable_peerText connection.peer,
      by decide, printable_nat connection.messages.toNat, by decide⟩

end Happening

/-- The attempt writes the line about what happened, and nothing but a line. -/
structure Attempt.Tells (size : Nat) (a : Attempt) (h : Happening) : Prop where
  carries : ∃ now, a.Carries size now (.line .info h.text)
  line : LogLine.IsLine size a.bytes

/-- It sends from a slot to the standard error. -/
def Attempt.logs (a : Attempt) : Bool :=
  a.slot?.isSome && a.submission.operation.descriptor == standardError

theorem Attempt.Carries.tells {size : Nat} {a : Attempt} {now : Instant} {h : Happening}
    (hc : a.Carries size now (.line .info h.text)) (pos : 0 < size) : a.Tells size h := by
  refine ⟨⟨now, hc⟩, ?_⟩
  obtain ⟨i, length, -, -, bytes⟩ := hc
  rw [bytes]
  exact LogLine.isLine_line pos h.printable_text

theorem Attempt.Tells.descriptor {size : Nat} {a : Attempt} {h : Happening} (ht : a.Tells size h) :
    a.submission.operation.descriptor = standardError := by
  obtain ⟨now, i, length, submission, -⟩ := ht.carries
  rw [submission]
  rfl

namespace EventLoop

variable {β ρ σ : Type}

/-! ## What happens with a completion -/

section

variable [BufferSource ρ] {l : EventLoop β ρ σ} {c : Completion}

/-- The message that a receive brings to an open connection. -/
def message? (c : Completion) (l : EventLoop β ρ σ) : Option Happening :=
  let fd := c.tag.descriptor.toInt32
  match (grasp c l.ring).1 with
  | .ok (some buffer) =>
    let (outcome, payload) := judge (grasp c l.ring).2 c.result (some buffer)
    if outcome = .delivered then
      ((l.connections.get? fd).filter Connection.isOpen).map fun x =>
        .message fd x.peer buffer.id payload
    else none
  | _ => none

/-- What happens with a completion: an accept that does not fail, a message for an open connection,
or the end of a connection. -/
def happening? (c : Completion) (l : EventLoop β ρ σ) : Option Happening :=
  let fd := c.tag.descriptor.toInt32
  match c.tag.opcode? with
  | some .accept => if c.result < 0 then none else some (.accepted c.result (l.peerOf c.result))
  | some .receive => message? c l
  | some .close => (l.connections.get? fd).map (.closed fd)
  | _ => none

/-- The deed neither logs nor answers. -/
def Deed.mute : Deed → Bool
  | log _ | answer _ _ => false
  | track _ | forget _ | tally _ _ | armAccept _ | armReceive _ | shutDown _ | close _ | recycle _
  | blame => true

/-- The deed logs nothing, and answers to nobody but the connection of a receive. -/
def Deed.Answers (c : Completion) (d : Deed) : Prop :=
  d.mute = true ∨
    c.tag.opcode? = some .receive ∧ ∃ payload, d = .answer c.tag.descriptor.toInt32 payload

/-- What happened is logged before anything is answered, and leads to its call. -/
structure Heeds (c : Completion) (h : Option Happening) (ds : List Deed) : Prop where
  order : ∃ before after, ds = before ++ (h.toList.map (fun h => .log h.text) ++ after) ∧
    (∀ d ∈ before, d.mute = true) ∧ ∀ d ∈ after, d.Answers c
  calls : ds.filterMap Deed.call? = (h.bind Happening.call?).toList

theorem mute_aftermath (fd : Descriptor) (t : ConnectionTable) (armed : Bool)
    (outcome : Received) : ∀ d ∈ aftermath fd t armed outcome, d.mute = true := by
  unfold aftermath rearming closing
  repeat' split
  all_goals simp [Deed.mute]

omit [BufferSource ρ] in
theorem calls_of_mute {ds : List Deed} (h : ∀ d ∈ ds, d.mute = true) :
    ds.filterMap Deed.call? = [] := by
  rw [List.filterMap_eq_nil_iff]
  intro d hd
  have mute := h d hd
  cases d <;> first | rfl | cases mute

theorem heeds_nothing : Heeds c none [] := ⟨⟨[], [], rfl, by simp, by simp⟩, rfl⟩

theorem heeds_accept {k : EventLoop β ρ σ} (kept : k.accessLog = true)
    (ha : c.tag.opcode? = some .accept) (buffer : Option ReceivedBuffer) :
    Heeds c (if c.result < 0 then none else some (.accepted c.result (k.peerOf c.result)))
      (plan c buffer k) := by
  have rearm : ∀ d ∈ (if c.hasMore then [] else [Deed.armAccept c.tag.descriptor.toInt32]),
      d.mute = true := by
    split <;> simp [Deed.mute]
  simp only [plan, access, ha, kept, if_true]
  split
  · refine ⟨⟨[], _, rfl, by simp, fun d hd => Or.inl (rearm d hd)⟩, calls_of_mute rearm⟩
  · refine ⟨⟨[.track c.result, .armReceive c.result], _, rfl, by simp [Deed.mute],
      fun d hd => Or.inl (rearm d hd)⟩, ?_⟩
    simp [Deed.call?, Happening.call?]

theorem heeds_close {k : EventLoop β ρ σ} (kept : k.accessLog = true)
    (hc : c.tag.opcode? = some .close) (buffer : Option ReceivedBuffer) :
    Heeds c ((k.connections.get? c.tag.descriptor.toInt32).map
      (.closed c.tag.descriptor.toInt32)) (plan c buffer k) := by
  simp only [plan, access, hc, kept, if_true]
  rcases k.connections.get? c.tag.descriptor.toInt32 with _ | connection
  · exact ⟨⟨[.forget _], [], rfl, by simp [Deed.mute], by simp⟩, rfl⟩
  · exact ⟨⟨[.forget _], [], rfl, by simp [Deed.mute], by simp⟩, rfl⟩

/-- What a message occasions comes first, and mute deeds may follow. -/
theorem Heeds.append_mute {h : Option Happening} {ds es : List Deed} (hd : Heeds c h ds)
    (he : ∀ d ∈ es, d.mute = true) : Heeds c h (ds ++ es) := by
  obtain ⟨⟨before, after, rfl, quiet, answers⟩, calls⟩ := hd
  refine ⟨⟨before, after ++ es, by simp, quiet, fun d hd => ?_⟩, ?_⟩
  · rcases List.mem_append.mp hd with hd | hd
    · exact answers d hd
    · exact Or.inl (he d hd)
  · rw [List.filterMap_append, calls, calls_of_mute he, List.append_nil]

theorem heeds_receive (kept : l.accessLog = true) (hr : c.tag.opcode? = some .receive)
    {buffer : Option ReceivedBuffer} (hg : (grasp c l.ring).1 = .ok buffer) :
    Heeds c (message? c l) (plan c buffer { l with ring := (grasp c l.ring).2 }) := by
  rw [plan_receive hr]
  have rest : ∀ d ∈ (buffer.map Deed.recycle).toList ++
      aftermath c.tag.descriptor.toInt32 l.connections c.hasMore
        (judge (grasp c l.ring).2 c.result buffer).1, d.mute = true := by
    intro d hd
    rcases List.mem_append.mp hd with hd | hd
    · cases buffer with
      | none => cases hd
      | some b => rw [List.mem_singleton.mp hd]; rfl
    · exact mute_aftermath _ _ _ _ d hd
  refine Heeds.append_mute ?_ rest
  unfold message? heard
  rw [hg]
  cases buffer with
  | none =>
    simp only [hearing]
    split <;> exact heeds_nothing
  | some b =>
    simp only []
    split
    · unfold hearing access
      simp only [kept, if_true]
      rcases (l.connections.get? c.tag.descriptor.toInt32).filter Connection.isOpen with _ | x
      · exact heeds_nothing
      · refine ⟨⟨[.tally _ _], [.answer _ _], rfl, by simp [Deed.mute], fun d hd => ?_⟩, rfl⟩
        rw [List.mem_singleton.mp hd]
        exact Or.inr ⟨hr, _, rfl⟩
    · exact heeds_nothing

/-- A plan does as much about what happens. -/
theorem plan_heeds (kept : l.accessLog = true) {buffer : Option ReceivedBuffer}
    (hg : (grasp c l.ring).1 = .ok buffer) :
    Heeds c (happening? c l) (plan c buffer { l with ring := (grasp c l.ring).2 }) := by
  by_cases hr : c.tag.opcode? = some .receive
  · have received := heeds_receive kept hr hg
    unfold happening?
    rw [hr]
    exact received
  by_cases ha : c.tag.opcode? = some .accept
  · have accepted := heeds_accept (k := { l with ring := (grasp c l.ring).2 }) kept ha buffer
    unfold happening?
    rw [ha]
    exact accepted
  by_cases hc : c.tag.opcode? = some .close
  · have closed := heeds_close (k := { l with ring := (grasp c l.ring).2 }) kept hc buffer
    unfold happening?
    rw [hc]
    exact closed
  · have none_happens : happening? c l = none := by
      unfold happening?
      split <;> simp_all
    have none_planned : plan c buffer { l with ring := (grasp c l.ring).2 } = [] := by
      unfold plan
      split <;> simp_all
    rw [none_happens, none_planned]
    exact heeds_nothing

end

/-! ## What a dispatch sends from slots -/

variable {flying : List UInt16} {as bs : List Attempt} {l m n : Watched (Register β) ρ σ}
  {x : Option Fault} {c : Completion} {size : Nat}

theorem Deed.letters_of_mute {d : Deed} (h : d.mute = true) (handler : Handler σ) (s : σ) :
    d.letters handler s = [] := by
  cases d <;> first | rfl | cases h

theorem lettersOf_mute {ds : List Deed} (handler : Handler σ) (s : σ)
    (h : ∀ d ∈ ds, d.mute = true) : lettersOf handler s ds = [] := by
  induction ds generalizing s with
  | nil => rfl
  | cons d ds ih =>
    rw [lettersOf, Deed.letters_of_mute (h d List.mem_cons_self),
      ih _ fun e he => h e (List.mem_cons_of_mem _ he)]
    rfl

theorem lettersOf_answers {ds : List Deed} (handler : Handler σ) (s : σ)
    (h : ∀ d ∈ ds, d.Answers c) : ∀ letter ∈ lettersOf handler s ds,
      c.tag.opcode? = some .receive ∧ letter.address = c.tag.descriptor.toInt32 := by
  induction ds generalizing s with
  | nil => exact fun _ hl => nomatch hl
  | cons d ds ih =>
    intro letter hl
    rcases List.mem_append.mp hl with hl | hl
    · rcases h d List.mem_cons_self with mute | ⟨hr, payload, rfl⟩
      · rw [Deed.letters_of_mute mute] at hl
        cases hl
      · refine ⟨hr, ?_⟩
        rw [Deed.letters, replied] at hl
        split at hl
        · rw [List.mem_singleton.mp hl]
          rfl
        · cases hl
        · cases hl
    · exact ih _ (fun e he => h e (List.mem_cons_of_mem _ he)) letter hl

/-- What a part of a dispatch tries, from when the kernel owns the slots of `flying`. -/
structure Issues (flying : List UInt16) (as : List Attempt) (l : Watched (Register β) ρ σ)
    (x : Option Fault) (m : Watched (Register β) ρ σ) : Prop where
  attempts : m.backend.inner.attempts = l.backend.inner.attempts ++ as
  passes : SlotPool.Passes flying as l.pool m.pool
  all : x = none ↔ ∀ a ∈ as, a.accepted = true

theorem Issues.trans (h : Issues flying as l none m)
    (h' : Issues (flying ++ as.filterMap (·.slot?)) bs m x n) : Issues flying (as ++ bs) l x n where
  attempts := by rw [h'.attempts, h.attempts, List.append_assoc]
  passes := h.passes.trans h'.passes
  all := by
    rw [h'.all]
    simp only [List.mem_append, or_imp, forall_and]
    exact ⟨fun later => ⟨h.all.mp rfl, later⟩, And.right⟩

theorem filterMap_slot?_eq_nil (h : as.filter (·.slot?.isSome) = []) :
    as.filterMap (·.slot?) = [] := by
  rw [List.filterMap_eq_nil_iff]
  intro a ha
  simpa using List.filter_eq_nil_iff.mp h a ha

/-- Without a fixed write the pool has as many free slots as before. -/
theorem Issues.available (h : Issues flying as l x m) (hl : l.pool.Lends flying)
    (hs : as.filter (·.slot?.isSome) = []) : m.pool.available = l.pool.available := by
  have before := hl.available_add
  have after := h.passes.lends.available_add
  rw [filterMap_slot?_eq_nil hs, List.append_nil, h.passes.capacity] at after
  omega

section

variable [Backend β] [BufferSource ρ]

omit [Backend β] in
theorem Tried.issues {ds done : List Deed} (h : Tried flying ds done as l x m) :
    Issues flying as l x m :=
  ⟨h.tries.attempts, h.tries.passes, h.tries.all⟩

theorem Performs.mute {ds : List Deed} (h : Performs ds l x m) (hl : l.pool.Lends flying)
    (small : l.pool.entrySize < UInt32.size) (hd : ∀ d ∈ ds, d.mute = true) :
    ∃ as, Issues flying as l x m ∧ as.filter (·.slot?.isSome) = [] := by
  obtain ⟨done, as, tried⟩ := h.tries hl
  refine ⟨as, tried.issues, ?_⟩
  have carried := tried.tries.carried small
  rw [lettersOf_mute _ _ fun d hm => hd d (tried.begins.subset hm)] at carried
  rw [List.eq_nil_iff_forall_not_mem]
  intro a ha
  obtain ⟨letter, hm, -⟩ := carried.carries_mem a ha
  cases hm

theorem Performs.answers {ds : List Deed} (h : Performs ds l x m) (hl : l.pool.Lends flying)
    (small : l.pool.entrySize < UInt32.size) (hd : ∀ d ∈ ds, d.Answers c) :
    ∃ as, Issues flying as l x m ∧ ∀ a ∈ as.filter (·.slot?.isSome),
      c.tag.opcode? = some .receive ∧
      a.submission.operation.descriptor = c.tag.descriptor.toInt32 := by
  obtain ⟨done, as, tried⟩ := h.tries hl
  refine ⟨as, tried.issues, fun a ha => ?_⟩
  obtain ⟨letter, hm, now, i, length, submission, -⟩ :=
    (tried.tries.carried small).carries_mem a ha
  obtain ⟨hr, address⟩ :=
    lettersOf_answers _ _ (fun d hm => hd d (tried.begins.subset hm)) letter hm
  rw [submission]
  exact ⟨hr, address⟩

/-- A line is written unless no slot is free. -/
theorem Performs.logs {message : String} (h : Performs [.log message] l x m)
    (hl : l.pool.Lends flying) : ∃ as, Tries flying [] [.line .info message] as l x m ∧
      (as.filter (·.slot?.isSome) = [] ↔ l.pool.available = 0) := by
  have written : ∀ {k n : Watched (Register β) ρ σ} {x : Option Fault}, Quiet l k →
      fault? (exec (Deed.log message).run k).1 = x → (exec (Deed.log message).run k).2 = n →
      ∃ as, Tries flying [] [.line .info message] as l x n ∧
        (as.filter (·.slot?.isSome) = [] ↔ l.pool.available = 0) := by
    rintro k n x hq rfl rfl
    obtain ⟨as, tried, dropped⟩ := tries_writeLog .info message (hq.untried.pool ▸ hl)
    rw [hq.untried.pool] at dropped
    exact ⟨as, tried.before hq.untried, dropped⟩
  cases h with
  | deed hq run rest =>
    cases rest with
    | nil hq' =>
      obtain ⟨as, tried, dropped⟩ := written hq (by rw [run]) (by rw [run])
      exact ⟨as, tried.after hq'.untried, dropped⟩
  | fault hq run tidy =>
    obtain ⟨as, tried, dropped⟩ := written hq (by rw [run]) (by rw [run])
    exact ⟨as, tried.after (.of_ring tidy), dropped⟩

/-- What happened is told in one line, unless no slot is free. -/
theorem Performs.tells {h : Option Happening}
    (performs : Performs (h.toList.map fun h => .log h.text) l x m) (hl : l.pool.Lends flying)
    (small : l.pool.entrySize < UInt32.size) (pos : 0 < l.pool.entrySize) :
    ∃ as, Issues flying as l x m ∧
      List.Forall₂ (fun a h => a.Tells l.pool.entrySize h) (as.filter (·.slot?.isSome))
        (if l.pool.available = 0 then [] else h.toList) := by
  cases h with
  | none =>
    obtain ⟨as, issues, unslotted⟩ := performs.mute hl small (fun d hd => nomatch hd)
    refine ⟨as, issues, ?_⟩
    rw [unslotted, Option.toList_none, ite_self]
    exact .nil
  | some h =>
    obtain ⟨as, tried, dropped⟩ : ∃ as, Tries flying [] [.line .info h.text] as l x m ∧
        (as.filter (·.slot?.isSome) = [] ↔ l.pool.available = 0) := Performs.logs performs hl
    refine ⟨as, ⟨tried.attempts, tried.passes, tried.all⟩, ?_⟩
    have carried := tried.carried small
    split
    next exhausted =>
      rw [dropped.mpr exhausted]
      exact .nil
    next free =>
      generalize as.filter (·.slot?.isSome) = ws, m.readings = last at carried dropped
      cases carried with
      | dropped rest =>
        cases rest
        exact absurd (dropped.mp rfl) free
      | carried first rest =>
        cases rest
        exact .cons (first.tells pos) .nil

/-- What a dispatch sends from slots: the line about what happened, and then at most a reply to the
connection that it received on. -/
structure LineFirst (flying : List UInt16) (c : Completion) (h : Option Happening)
    (as lines replies : List Attempt) (l : Watched (Register β) ρ σ) (x : Option Fault)
    (m : Watched (Register β) ρ σ) : Prop where
  issues : Issues flying as l x m
  writes : as.filter (·.slot?.isSome) = lines ++ replies
  told : List.Forall₂ (fun a h => a.Tells l.pool.entrySize h) lines
    (if l.pool.available = 0 then [] else h.toList) ∨ lines = [] ∧ ∃ a ∈ as, a.accepted = false
  replies : ∀ a ∈ replies, c.tag.opcode? = some .receive ∧
    a.submission.operation.descriptor = c.tag.descriptor.toInt32

theorem Performs.lineFirst {ds : List Deed} {h : Option Happening} (performs : Performs ds l x m)
    (heeds : Heeds c h ds) (hl : l.pool.Lends flying) (small : l.pool.entrySize < UInt32.size)
    (pos : 0 < l.pool.entrySize) :
    ∃ as lines replies, LineFirst flying c h as lines replies l x m := by
  obtain ⟨⟨before, after, rfl, quiet, answers⟩, -⟩ := heeds
  rcases performs.split with ⟨e, rfl, faulted⟩ | ⟨n, first, rest⟩
  · obtain ⟨as, issues, unslotted⟩ := faulted.mute hl small quiet
    have refused : ∃ a ∈ as, a.accepted = false := by
      simpa using mt issues.all.mpr (Option.some_ne_none e)
    exact ⟨as, [], [], issues, unslotted, Or.inr ⟨rfl, refused⟩, by simp⟩
  obtain ⟨as, issues, unslotted⟩ := first.mute hl small quiet
  have unlent := filterMap_slot?_eq_nil unslotted
  have lends := issues.passes.lends
  rw [unlent, List.append_nil] at lends
  have size := issues.passes.size
  have free := issues.available hl unslotted
  rcases rest.split with ⟨e, rfl, faulted⟩ | ⟨p, logged, rest⟩
  · obtain ⟨bs, issues', told⟩ := faulted.tells lends (by rwa [size]) (by rwa [size])
    rw [size, free] at told
    have both : Issues flying (as ++ bs) l (some e) m :=
      issues.trans (by simpa [unlent] using issues')
    exact ⟨as ++ bs, _, [], both, by simp [unslotted], Or.inl told, by simp⟩
  · obtain ⟨bs, issues', told⟩ := logged.tells lends (by rwa [size]) (by rwa [size])
    rw [size, free] at told
    obtain ⟨cs, issues'', replied⟩ := rest.answers issues'.passes.lends
      (by rwa [issues'.passes.size, size]) answers
    have all : Issues flying (as ++ (bs ++ cs)) l x m :=
      issues.trans (by simpa [unlent] using issues'.trans issues'')
    exact ⟨as ++ (bs ++ cs), _, _, all, by simp [unslotted], Or.inl told, replied⟩

/-- A dispatch leaves the settings alone, and what has been tried stays noted. -/
theorem dispatch_extends (c : Completion) (hl : l.pool.Lends flying) :
    (exec (dispatch c) l).2.accessLog = l.accessLog ∧
    (exec (dispatch c) l).2.handler = l.handler ∧
    l.backend.inner.attempts <+: (exec (dispatch c) l).2.backend.inner.attempts := by
  by_cases hw : c.tag.opcode? = some .writeFixed
  · obtain ⟨pool, -, -, -, aside⟩ := dispatch_released hw hl
    rw [aside]
    exact ⟨rfl, rfl, List.prefix_refl _⟩
  rcases dispatch_performs hw l with ⟨e, -, he⟩ | ⟨buffer, -, performs⟩
  · rw [he]
    exact ⟨rfl, rfl, List.prefix_refl _⟩
  · obtain ⟨done, as, tried⟩ := performs.tries hl
    exact ⟨performs.accessLog, tried.tries.handler, as, tried.tries.attempts.symm⟩

/-- A completion that is dispatched, and the loop that meets it. -/
structure Visit (β ρ σ : Type) where
  completion : Completion
  loop : Watched (Register β) ρ σ

namespace Visit

def fault? (v : Visit β ρ σ) : Option Fault :=
  EventLoop.fault? (exec (dispatch v.completion) v.loop).1

def after (v : Visit β ρ σ) : Watched (Register β) ρ σ := (exec (dispatch v.completion) v.loop).2

/-- What the dispatch tries to push. -/
def attempts (v : Visit β ρ σ) : List Attempt :=
  v.after.backend.inner.attempts.drop v.loop.backend.inner.attempts.length

/-- What the log is told of, which is nothing while no slot is free. -/
def told (v : Visit β ρ σ) : List Happening :=
  if v.loop.pool.available = 0 then [] else (happening? v.completion v.loop).toList

/-- The fixed writes of a dispatch: the lines about what happens, in slots of a given size, and then
at most replies to the connection that it receives on. -/
structure Writes (size : Nat) (v : Visit β ρ σ) (lines replies : List Attempt) : Prop where
  writes : v.attempts.filter (·.slot?.isSome) = lines ++ replies
  told : List.Forall₂ (fun a h => a.Tells size h) lines v.told ∨
    lines = [] ∧ ∃ a ∈ v.attempts, a.accepted = false
  replies : ∀ a ∈ replies, v.completion.tag.opcode? = some .receive ∧
    a.submission.operation.descriptor = v.completion.tag.descriptor.toInt32
  calls : v.fault? = none → v.after.handlerState.2 = v.loop.handlerState.2 ++
    ((happening? v.completion v.loop).bind Happening.call?).toList

end Visit

omit [Backend β] in
theorem happening?_writeFixed (hw : c.tag.opcode? = some .writeFixed) : happening? c l = none := by
  unfold happening?
  rw [hw]

omit [Backend β] in
/-- Nothing happens with a completion whose buffer cannot be taken. -/
theorem happening?_of_error {e : Fault} (hg : (grasp c l.ring).1 = .error e) :
    happening? c l = none := by
  have received : c.tag.opcode? = some .receive := by
    by_contra other
    rw [grasp, if_neg other] at hg
    cases hg
  unfold happening? message?
  rw [received, hg]

/-- The calls of a dispatch that is no fault are those of what happens. -/
theorem Performs.calls {ds : List Deed} {h : Option Happening} (performs : Performs ds l none m)
    (heeds : Heeds c h ds) (hl : l.pool.Lends flying) (recording : Recording l) :
    m.handlerState.2 = l.handlerState.2 ++ (h.bind Happening.call?).toList := by
  obtain ⟨handler, hh⟩ := recording
  obtain ⟨done, as, tried⟩ := performs.tries hl
  have whole := tried.whole (tried.tries.all.mp rfl)
  subst whole
  have state : m.handlerState = done.foldl (Deed.onHandler l.handler) l.handlerState :=
    tried.tries.handlerState
  rw [hh, (replies_lettersOf handler done l.handlerState).2] at state
  rw [state, heeds.calls]

theorem Visit.writes_nothing {v : Visit β ρ σ} (same : v.after.backend = v.loop.backend)
    (nothing : happening? v.completion v.loop = none)
    (calls : v.fault? = none → v.after.handlerState = v.loop.handlerState) :
    v.Writes size [] [] := by
  have none_tried : v.attempts = [] := by rw [attempts, same, List.drop_length]
  have none_told : v.told = [] := by rw [told, nothing, Option.toList_none, ite_self]
  refine ⟨by rw [none_tried]; rfl, Or.inl ?_, by simp, fun ok => ?_⟩
  · rw [none_told]
    exact .nil
  · rw [calls ok, nothing]
    exact (List.append_nil _).symm

theorem dispatch_writes (c : Completion) (hl : l.pool.Lends flying)
    (small : l.pool.entrySize < UInt32.size) (pos : 0 < l.pool.entrySize)
    (kept : l.accessLog = true) (recording : Recording l) :
    ∃ lines replies, Visit.Writes l.pool.entrySize ⟨c, l⟩ lines replies := by
  by_cases hw : c.tag.opcode? = some .writeFixed
  · obtain ⟨pool, -, -, -, aside⟩ := dispatch_released hw hl
    have same : (exec (dispatch c) l).2.backend = l.backend := by rw [aside]
    have state : (exec (dispatch c) l).2.handlerState = l.handlerState := by rw [aside]
    exact ⟨[], [], Visit.writes_nothing same (happening?_writeFixed hw) fun _ => state⟩
  rcases dispatch_performs hw l with ⟨e, hg, he⟩ | ⟨buffer, hg, performs⟩
  · have same : (exec (dispatch c) l).2.backend = l.backend := by rw [he]
    have state : (exec (dispatch c) l).2.handlerState = l.handlerState := by rw [he]
    exact ⟨[], [], Visit.writes_nothing same (happening?_of_error hg) fun _ => state⟩
  · have heeds := plan_heeds kept hg
    obtain ⟨as, lines, replies, sent⟩ := performs.lineFirst heeds hl small pos
    have attempts : Visit.attempts (⟨c, l⟩ : Visit β ρ σ) = as := by
      rw [Visit.attempts, Visit.after, sent.issues.attempts, List.drop_left]
    refine ⟨lines, replies, by rw [attempts]; exact sent.writes,
      by rw [attempts]; exact sent.told, sent.replies, fun ok => ?_⟩
    rw [show EventLoop.fault? _ = none from ok] at performs
    exact performs.calls heeds hl recording

/-! ## Along a run -/

variable {start : Watched (Register β) ρ σ} {trail : List (Visit β ρ σ)}

/-- A run from `start` leads to a loop, with the completions that it dispatched. Nobody writes to
the log but the access log itself. -/
inductive Logged (start : Watched (Register β) ρ σ) :
    List (Visit β ρ σ) → Watched (Register β) ρ σ → Prop
  | start : Logged start [] start
  | listen {trail : List (Visit β ρ σ)} {l : Watched (Register β) ρ σ} (fd : Descriptor) :
    Logged start trail l → Logged start trail (exec (listen fd) l).2
  | dispatch {trail : List (Visit β ρ σ)} {l : Watched (Register β) ρ σ} (c : Completion) :
    Logged start trail l → Logged start (trail ++ [⟨c, l⟩]) (exec (dispatch c) l).2
  | idle {trail : List (Visit β ρ σ)} {l m : Watched (Register β) ρ σ} : Logged start trail l →
    Idle l m → m.backend.inner.attempts = l.backend.inner.attempts → m.listener = l.listener →
    m.accessLog = l.accessLog → Logged start trail m

/-- A turn is part of a run, however it ends. -/
theorem Logged.turn (h : Logged start trail l) :
    ∃ more, Logged start (trail ++ more) (exec turn l).2 := by
  have rested : ∀ {l m : Watched (Register β) ρ σ} {x : Option Fault}, Rests l x m →
      (∃ more, Logged start (trail ++ more) l) → ∃ more, Logged start (trail ++ more) m := by
    rintro l m x rests ⟨more, run⟩
    exact ⟨more, run.idle rests.idle rests.attempts rests.listener rests.accessLog⟩
  refine turn_induction ⟨[], by rwa [List.append_nil]⟩ (fun l => rested (rests_collect l)) ?_
    fun batch l => rested (rests_conclude batch l)
  rintro c l ⟨more, run⟩
  exact ⟨_, by simpa using run.dispatch c⟩

theorem Logged.posted (h : Logged start trail l) : ∃ ps, Posted start ps l := by
  induction h with
  | start => exact ⟨[], .start⟩
  | listen fd _ ih =>
    obtain ⟨ps, posted⟩ := ih
    exact ⟨_, posted.listen fd⟩
  | dispatch c _ ih =>
    obtain ⟨ps, posted⟩ := ih
    exact ⟨_, posted.dispatch c⟩
  | idle _ hi attempts listener _ ih =>
    obtain ⟨ps, posted⟩ := ih
    exact ⟨_, posted.idle hi attempts listener⟩

/-- The log is kept, and what is sent from slots is what the dispatches send. -/
structure Kept (size : Nat) (trail : List (Visit β ρ σ)) (l : Watched (Register β) ρ σ) : Prop where
  accessLog : l.accessLog = true
  recording : Recording l
  writes : l.backend.inner.attempts.filter (·.slot?.isSome) =
    trail.flatMap fun v => v.attempts.filter (·.slot?.isSome)
  noted : ∀ v ∈ trail, v.attempts ⊆ l.backend.inner.attempts
  visits : ∀ v ∈ trail, ∃ lines replies, v.Writes size lines replies

theorem Logged.kept (h0 : Upheld size [] start) (small : size < UInt32.size) (pos : 0 < size)
    (begins : Kept size [] start) (h : Logged start trail l) : Kept size trail l := by
  induction h with
  | start => exact begins
  | @listen trail l fd run ih =>
    obtain ⟨ps, posted⟩ := run.posted
    have upheld := posted.upheld h0
    obtain ⟨as, x, tried, -, -, accessLog⟩ := tries_listen fd upheld.lends
    have carried := tried.carried (by rw [upheld.entrySize]; exact small)
    have unslotted : as.filter (·.slot?.isSome) = [] := by
      rw [List.eq_nil_iff_forall_not_mem]
      intro a ha
      obtain ⟨letter, hm, -⟩ := carried.carries_mem a ha
      cases hm
    refine ⟨accessLog.trans ih.accessLog, ?_, ?_, fun v hv => ?_, ih.visits⟩
    · obtain ⟨handler, hh⟩ := ih.recording
      exact ⟨handler, tried.handler.trans hh⟩
    · rw [tried.attempts, List.filter_append, unslotted, List.append_nil]
      exact ih.writes
    · rw [tried.attempts]
      exact List.subset_append_of_subset_left _ (ih.noted v hv)
  | @dispatch trail l c run ih =>
    obtain ⟨ps, posted⟩ := run.posted
    have upheld := posted.upheld h0
    have sized := upheld.entrySize
    have writes := dispatch_writes c upheld.lends (by rw [sized]; exact small)
      (by rw [sized]; exact pos) ih.accessLog ih.recording
    rw [sized] at writes
    obtain ⟨accessLog, handler, attempts⟩ := dispatch_extends c upheld.lends
    refine ⟨accessLog.trans ih.accessLog, ?_, ?_, fun v hv => ?_, fun v hv => ?_⟩
    · obtain ⟨h, hh⟩ := ih.recording
      exact ⟨h, handler.trans hh⟩
    · rw [← List.prefix_iff_eq_append.mp attempts, List.filter_append, ih.writes,
        List.flatMap_append, List.flatMap_singleton]
      rfl
    · rcases List.mem_append.mp hv with hv | hv
      · exact List.Subset.trans (ih.noted v hv) attempts.subset
      · rw [List.mem_singleton.mp hv]
        exact List.drop_subset _ _
    · rcases List.mem_append.mp hv with hv | hv
      · exact ih.visits v hv
      · rw [List.mem_singleton.mp hv]
        exact writes
  | idle _ hi attempts _ accessLog ih =>
    refine ⟨accessLog.trans ih.accessLog, ?_, by rw [attempts]; exact ih.writes,
      by rw [attempts]; exact ih.noted, ih.visits⟩
    obtain ⟨handler, hh⟩ := ih.recording
    exact ⟨handler, hi.handler.trans hh⟩

omit [Backend β] [BufferSource ρ] in
theorem filter_logs (as : List Attempt) : as.filter (·.logs) =
    (as.filter (·.slot?.isSome)).filter fun a =>
      a.submission.operation.descriptor == standardError := by
  rw [List.filter_filter]
  exact List.filter_congr fun a _ => Bool.and_comm _ _

/-- Where no connection is the standard error, nothing but the log goes there. -/
theorem Visit.Writes.logged {v : Visit β ρ σ} {lines replies : List Attempt}
    (h : v.Writes size lines replies) (ok : ∀ a ∈ v.attempts, a.accepted = true)
    (apart : v.completion.tag.opcode? = some .receive →
      v.completion.tag.descriptor.toInt32 ≠ standardError) :
    List.Forall₂ (fun a h => a.Tells size h) (v.attempts.filter (·.logs)) v.told := by
  have told : List.Forall₂ (fun a h => a.Tells size h) lines v.told := by
    refine h.told.resolve_right ?_
    rintro ⟨-, a, ha, refused⟩
    rw [ok a ha] at refused
    cases refused
  have kept : lines.filter (fun a => a.submission.operation.descriptor == standardError) =
      lines := by
    rw [List.filter_eq_self]
    exact ((List.forall₂_and_left lines v.told).mp
      (told.imp fun a h tells => ⟨by simp [tells.descriptor], tells⟩)).1
  have dropped : replies.filter (fun a => a.submission.operation.descriptor == standardError) =
      [] := by
    rw [List.filter_eq_nil_iff]
    intro a ha
    obtain ⟨hr, address⟩ := h.replies a ha
    rw [address, beq_iff_eq]
    exact apart hr
  rw [filter_logs, h.writes, List.filter_append, kept, dropped, List.append_nil]
  exact told

theorem logged_trail {trail : List (Visit β ρ σ)}
    (h : ∀ v ∈ trail,
      List.Forall₂ (fun a h => a.Tells size h) (v.attempts.filter (·.logs)) v.told) :
    List.Forall₂ (fun a h => a.Tells size h)
      (trail.flatMap fun v => v.attempts.filter (·.logs)) (trail.flatMap Visit.told) := by
  induction trail with
  | nil => exact .nil
  | cons v trail ih =>
    exact List.rel_append (h v List.mem_cons_self) (ih fun w hw => h w (List.mem_cons_of_mem _ hw))

/-- On a new pool of slots that a length of 32 bits can measure, along every run that keeps the
access log and in which nobody else writes to it: what is sent from slots is sent by the dispatches,
in their order. Each of them writes the line about what happens with its completion, if anything
does and a slot is free, and then at most replies to the connection that it receives on. A line
goes to the standard error, and is one line of printable text that fits its slot. Nothing but a push
that is refused keeps a dispatch from writing it. Where none is refused, and no connection is the
standard error, what is pushed to be sent there from slots tells one by one what happened while a
slot was free. -/
theorem access_log_tells_what_happened {backend : β} {pool : SlotPool} {memory : Memory}
    {rings : List ρ} {handler : Handler σ} {state : σ} {settings : Settings}
    {granted entrySize entries : Nat} (hp : SlotPool.new granted entrySize entries = .ok pool)
    (small : entrySize < UInt32.size)
    (hn : EventLoop.new (.of (.of backend)) { pool with memory := memory } rings handler.recording
      (state, []) settings = .ok start) (kept : settings.accessLog = true)
    (hr : Logged start trail l) :
    l.backend.pushed = (l.backend.inner.attempts.filter (·.accepted)).map (·.submission) ∧
    (l.backend.inner.attempts.filter (·.slot?.isSome) =
      trail.flatMap fun v => v.attempts.filter (·.slot?.isSome)) ∧
    (∀ v ∈ trail, ∃ lines replies, v.Writes entrySize lines replies) ∧
    (l.backend.refusals = 0 → (∀ v ∈ trail, v.completion.tag.opcode? = some .receive →
        v.completion.tag.descriptor.toInt32 ≠ standardError) →
      l.backend.pushed = l.backend.inner.attempts.map (·.submission) ∧
      List.Forall₂ (fun a h => a.Tells entrySize h) (l.backend.inner.attempts.filter (·.logs))
        (trail.flatMap Visit.told)) := by
  obtain ⟨pos, -⟩ := SlotPool.exists_of_new hp
  obtain ⟨hb, -, hh, -, -⟩ := new_eq_ok hn
  have begins := upheld_of_new hp hn
  have access : start.accessLog = true := by
    rw [(eq_of_new hn).2.2]
    exact kept
  obtain ⟨ps, posted⟩ := hr.posted
  have upheld := posted.upheld begins
  have log := hr.kept begins small pos ⟨access, ⟨handler, hh⟩, by rw [hb]; rfl, by simp, by simp⟩
  have pushed : l.backend.pushed =
      (l.backend.inner.attempts.filter (·.accepted)).map (·.submission) := by
    rw [upheld.pushed, upheld.attempts]
  refine ⟨pushed, log.writes, log.visits, fun accepted apart => ?_⟩
  have all : ∀ a ∈ l.backend.inner.attempts, a.accepted = true := by
    have none_refused := upheld.refusals.symm.trans accepted
    rw [← upheld.attempts] at none_refused
    intro a ha
    simpa using List.filter_eq_nil_iff.mp (List.eq_nil_of_length_eq_zero none_refused) a ha
  have lines : l.backend.inner.attempts.filter (·.logs) =
      trail.flatMap fun v => v.attempts.filter (·.logs) := by
    rw [filter_logs, log.writes, List.filter_flatMap]
    exact List.flatMap_congr fun v _ => (filter_logs v.attempts).symm
  refine ⟨by rw [pushed, List.filter_eq_self.mpr all], ?_⟩
  rw [lines]
  refine logged_trail fun v hv => ?_
  obtain ⟨_, _, writes⟩ := log.visits v hv
  exact writes.logged (fun a ha => all a (log.noted v hv ha)) (apart v hv)

end

/-- A new loop over two slots that keeps the access log and returns what it receives. -/
def telling : Watched (Register Recorder) BufferQueue Unit :=
  (EventLoop.new (.of (.of .new)) twoSlots [BufferQueue.new 0 4 64]
    (ReplyMode.handler .echo).recording ((), []) Settings.default).toOption.get rfl

theorem new_telling : EventLoop.new (.of (.of .new)) twoSlots [BufferQueue.new 0 4 64]
    (ReplyMode.handler .echo).recording ((), []) Settings.default = .ok telling := rfl

/-- A letter and ten line ends. -/
def forgery : Bytes := 0x61 :: List.replicate 10 0x0a

/-- The kernel has received them for descriptor 5. -/
def forging : Completion × BufferQueue :=
  (KernelSide.receive 5 forgery false true (BufferQueue.new 0 4 64)).get rfl

/-- Descriptor 5 has been accepted, with a line in one of the two slots, and the bytes are there. -/
def beforeForgery : Watched (Register Recorder) BufferQueue Unit :=
  { (exec (dispatch (.accepted 3 5 true)) telling).2 with ring := forging.2 }

/-- The line for them has taken the other slot, and the answer was dropped. -/
def afterForgery : Watched (Register Recorder) BufferQueue Unit :=
  (exec (dispatch forging.1) beforeForgery).2

/-- Descriptor 5 has been closed, without a slot for a line. -/
def afterClose : Watched (Register Recorder) BufferQueue Unit :=
  (exec (dispatch ⟨.onDescriptor 5 .close, 0, 0⟩) afterForgery).2

theorem access_log_tells_what_happened_when_cut : ∃ trail, Logged telling trail afterClose ∧
    trail.map (fun v => (happening? v.completion v.loop).isSome) = [true, true, true] ∧
    trail.flatMap Visit.told = [.accepted 5 none, .message 5 none 0 forgery] ∧
    List.Forall₂ (fun a h => a.Tells 64 h) (afterClose.backend.inner.attempts.filter (·.logs))
      [.accepted 5 none, .message 5 none 0 forgery] ∧
    (afterClose.backend.inner.attempts.filter (·.logs)).map (·.bytes) =
      [Text.utf8 "0.000 [1] [INFO] accepted fd 5 from -\n",
        Text.utf8 "0.000 [0] [INFO] fd 5 peer - bid 0 len 11: a\\n\\n\\n\\n\\n\\n\\n\\n\\n\\\n"] := by
  have accepted := (Logged.start : Logged telling [] telling).dispatch (.accepted 3 5 true)
  have arrived : Logged telling _ beforeForgery :=
    accepted.idle ⟨rfl, rfl, rfl, rfl, rfl, rfl⟩ rfl rfl rfl
  have received : Logged telling _ afterForgery := arrived.dispatch forging.1
  have closed : Logged telling _ afterClose := received.dispatch ⟨.onDescriptor 5 .close, 0, 0⟩
  obtain ⟨-, -, -, lines⟩ :=
    access_log_tells_what_happened new_twoSlots (by decide) new_telling rfl closed
  have told : ([⟨.accepted 3 5 true, telling⟩, ⟨forging.1, beforeForgery⟩,
      ⟨⟨.onDescriptor 5 .close, 0, 0⟩, afterForgery⟩] :
      List (Visit Recorder BufferQueue Unit)).flatMap Visit.told =
        [.accepted 5 none, .message 5 none 0 forgery] := by
    decide +kernel
  refine ⟨_, closed, by decide +kernel, told, ?_, by decide +kernel⟩
  refine told ▸ (lines (by decide +kernel) fun v hv => ?_).2
  simp only [List.nil_append, List.cons_append, List.mem_cons, List.not_mem_nil, or_false] at hv
  rcases hv with rfl | rfl | rfl <;> decide +kernel

end EventLoop

end RingServer
