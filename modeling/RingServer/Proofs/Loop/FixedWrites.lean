import RingServer.Proofs.SlotPool
import RingServer.Proofs.Loop.Sending

/-!
Pool slots and fixed writes. The fixed writes in flight (`inFlight`) are read off the history of a
run. A step that starts with the kernel owning the slots of those in flight ends so too
(`Transfers`), so this holds wherever a run leads (`Reached.owned`), and as long as the kernel
completes no fixed write twice and invents none, every slot it names can be released.
-/

namespace RingServer

/-- The slot that a fixed write sends from. -/
def Submission.slot? (s : Submission) : Option UInt16 :=
  match s.operation with
  | .writeFixed _ loan => some loan.index
  | _ => none

/-- The completion belongs to a fixed write from slot `i`. -/
def Completion.ends (i : UInt16) (c : Completion) : Bool :=
  c.tag.opcode? = some .writeFixed ∧ c.tag.descriptor = i.toUInt32

namespace EventLoop

/-- The slots of the fixed writes in flight, one for each: from its push until the next completion
that brings back its slot. -/
def inFlight : List Occurrence → List UInt16 :=
  List.foldl (fun flying o => flying.filter (fun i => !o.completion.any (·.ends i)) ++
    o.pushed.filterMap (·.slot?)) []

/-- How many fixed writes from slot `i` were pushed. -/
def pushes (i : UInt16) (h : List Occurrence) : Nat :=
  ((h.flatMap (·.pushed)).filterMap (·.slot?)).count i

/-- How many fixed writes from slot `i` were completed. -/
def completions (i : UInt16) (h : List Occurrence) : Nat :=
  h.countP (·.completion.any (·.ends i))

/-- Every completion of a fixed write belongs to one that was pushed before and that no earlier
completion belongs to. -/
def Genuine (h : List Occurrence) : Prop :=
  ∀ a o b c, h = a ++ o :: b → o.completion = some c → c.tag.opcode? = some .writeFixed →
    ∃ i : UInt16, c.tag.descriptor = i.toUInt32 ∧ completions i a < pushes i a

/-- The parts that the loop works on leave it to the pool to find a slot not outstanding. -/
structure SlotFaultFree (β ρ : Type) [Backend β] [BufferSource ρ] : Prop where
  flush : ∀ memory (b : β) i, (Backend.flush memory b).1 ≠ .error (.slotNotOutstanding i)
  wait : ∀ memory n (b : β) i, (Backend.wait memory n b).1 ≠ .error (.slotNotOutstanding i)
  take : ∀ id length (r : ρ) i,
    (BufferSource.take id length r).1 ≠ .error (.slotNotOutstanding i)

end EventLoop

namespace EventLoop

variable {β ρ σ : Type} [Backend β] [BufferSource ρ] {start l m : Watched β ρ σ}
  {h : List Occurrence}

/-- A step tags its fixed writes with their slots, and lends exactly those slots. It finds no slot
that is not outstanding, unless a ring does. -/
def Transfers (ps : List Submission) (_ : List Call) (l : Watched β ρ σ) (x : Option Fault)
    (m : Watched β ρ σ) : Prop :=
  (∀ s ∈ ps, ∀ i, s.slot? = some i → s.tag = .onSlot i) ∧
  ∀ flying, l.pool.Lends flying → m.pool.capacity = l.pool.capacity ∧
    m.pool.Lends (flying ++ ps.filterMap (·.slot?)) ∧
    (SlotFaultFree β ρ → ∀ i, x ≠ some (.slotNotOutstanding i))

theorem chains_transfers : Chains (Transfers : TraceRelation β ρ σ) where
  idle := by
    intro l m hi
    refine ⟨by simp, fun flying hl => ?_⟩
    rw [hi.pool]
    exact ⟨rfl, by simpa using hl, by simp⟩
  after := by
    intro ps cs l x m n ht hi
    refine ⟨ht.1, fun flying hl => ?_⟩
    rw [hi.pool]
    exact ht.2 flying hl
  trans := by
    intro ps cs qs ds l m x n ht ht'
    refine ⟨?_, fun flying hl => ?_⟩
    · intro s hs
      rcases List.mem_append.mp hs with hs | hs
      · exact ht.1 s hs
      · exact ht'.1 s hs
    · obtain ⟨hc, hm, -⟩ := ht.2 flying hl
      obtain ⟨hc', hn, hx⟩ := ht'.2 _ hm
      rw [List.append_assoc, ← List.filterMap_append] at hn
      exact ⟨hc'.trans hc, hn, hx⟩

/-- A push of anything but a fixed write, with the pool as it is. -/
theorem transfers_of_slot?_eq_none {s : Submission} {cs : List Call} (hs : s.slot? = none)
    (hp : m.pool = l.pool) : Transfers [s] cs l none m := by
  refine ⟨?_, fun flying hl => ?_⟩
  · intro t ht i hi
    rw [List.mem_singleton.mp ht, hs] at hi
    cases hi
  · rw [hp]
    refine ⟨rfl, ?_, by simp⟩
    simpa [hs] using hl

omit [Backend β] [BufferSource ρ] in
/-- With a sound pool nothing fails but a push, and a slot that is pushed is lent. -/
theorem Sends.lends {fd : Descriptor} {x : Except Fault Unit} {flying : List UInt16}
    (hs : Sends fd l x m) (hl : l.pool.Lends flying)
    (accepted : m.backend.refusals = l.backend.refusals) :
    x = .ok () ∧ m.pool.capacity = l.pool.capacity ∧
      ((m.backend.pushed = l.backend.pushed ∧ m.pool.Lends flying) ∨
      ∃ loan, m.backend.pushed = l.backend.pushed ++ [⟨.onSlot loan.index, .writeFixed fd loan⟩] ∧
        m.pool.Lends (flying ++ [loan.index])) := by
  -- The slot that is acquired can be lent, whatever has been written to it.
  have lendable : ∀ {slot : Slot} {taken filled : SlotPool} (length : Nat),
      l.pool.acquire = (some slot, taken) → filled.free = taken.free →
      ∃ loan lent, filled.lend slot length = .ok (loan, lent) ∧
        lent.capacity = l.pool.capacity ∧ lent.Lends (flying ++ [loan.index]) := by
    intro slot taken filled length ha hf
    rcases hl.acquire with e | ⟨slot', taken', e, hnot, hc, hh⟩
    · rw [e] at ha
      cases ha
    · rw [ha] at e
      cases e
      obtain ⟨loan, lent, e, hi, hc', hlent⟩ := (hh.of_free_eq hf).lend hnot length
      have capacity : filled.capacity = taken.capacity := by
        rw [SlotPool.capacity, hf]
        rfl
      exact ⟨loan, lent, e, by omega, hi.symm ▸ hlent⟩
  cases hs with
  | @dropped pool _ ha hi =>
    rcases hl.acquire with e | ⟨_, _, e, -⟩
    · rw [ha] at e
      cases e
      have hp : m.pool = l.pool := hi.pool
      rw [hp]
      exact ⟨rfl, rfl, Or.inl ⟨hi.pushed, hl⟩⟩
    · rw [ha] at e
      cases e
  | unlent ha hf he hi =>
    obtain ⟨_, _, e, -⟩ := lendable _ ha hf
    rw [he] at e
    cases e
  | refused ha hf he hi =>
    have more : m.backend.refusals = l.backend.refusals + 1 := hi.refusals
    omega
  | pushed ha hf he hi =>
    obtain ⟨_, _, e, hc, hlent⟩ := lendable _ ha hf
    rw [he] at e
    cases e
    rw [hi.pool]
    exact ⟨rfl, hc, Or.inr ⟨_, hi.pushed, hlent⟩⟩

theorem Sends.transfers {fd : Descriptor} {x : Except Fault Unit} (hs : Sends fd l x m) :
    Traced (Transfers : TraceRelation β ρ σ) l (fault? x) m := by
  intro _
  obtain ⟨-, ps, added, hps⟩ := hs.adds
  refine ⟨ps, [], added, fun accepted => ⟨?_, fun flying hl => ?_⟩⟩
  · rcases hps with rfl | ⟨loan, rfl⟩
    · simp
    · simp [Submission.slot?]
  · obtain ⟨rfl, hc, ⟨same, hm⟩ | ⟨loan, new, hm⟩⟩ := hs.lends hl accepted
    · have none_pushed : ps = [] := by simpa [added.journal] using same
      refine ⟨hc, ?_, by simp [fault?]⟩
      simpa [none_pushed] using hm
    · have one_pushed : ps = [⟨.onSlot loan.index, .writeFixed fd loan⟩] := by
        simpa [added.journal] using new
      refine ⟨hc, ?_, by simp [fault?]⟩
      simpa [one_pushed, Submission.slot?] using hm

/-- The table of connections does not matter. -/
theorem transfers_of_table {t : ConnectionTable} {x : Option Fault}
    (ht : Traced (Transfers : TraceRelation β ρ σ) { l with connections := t } x m) :
    Traced (Transfers : TraceRelation β ρ σ) l x m := by
  intro hr
  obtain ⟨ps, cs, added, kept⟩ := ht hr
  exact ⟨ps, cs, added.of_eq rfl rfl rfl, kept⟩

theorem transfers_submit {tag : Tag} {operation : Operation}
    (hs : Submission.slot? ⟨tag, operation⟩ = none) :
    Keeps (Traced (Transfers : TraceRelation β ρ σ)) (submit tag operation) :=
  fun _ => traced_submit fun _ => transfers_of_slot?_eq_none hs rfl

theorem transfers_writeAccess (message : String) :
    Keeps (Traced (Transfers : TraceRelation β ρ σ)) (writeAccess message) :=
  Keeps.writeAccess chains_transfers.composable
    (fun level message l => (sends_writeLog level message l).transfers) message

theorem transfers_queueReply (fd : Descriptor) (reply : Reply) :
    Keeps (Traced (Transfers : TraceRelation β ρ σ)) (queueReply fd reply) := by
  have chains := chains_transfers (β := β) (ρ := ρ) (σ := σ)
  cases reply with
  | nothing => exact Keeps.pure chains.composable ()
  | fixed bytes =>
    refine Keeps.bind chains.composable (transfers_submit rfl) fun _ l => ?_
    exact chains.traced_after (chains.composable.refl l) ⟨rfl, rfl, rfl, rfl, rfl, rfl⟩
  | copied bytes => exact fun l => (sends_queueReply fd bytes l).transfers

theorem transfers_answer (fd : Descriptor) (payload : Text.Bytes) :
    Keeps (Traced (Transfers : TraceRelation β ρ σ)) (answer fd payload) := by
  intro l
  rw [Ends, exec_answer]
  refine chains_transfers.composable.trans (traced_call ?_) (transfers_queueReply fd _ _)
  exact ⟨by simp, fun flying hl => ⟨rfl, by simpa using hl, by simp⟩⟩

theorem allows_transfers : Allows (Traced (Transfers : TraceRelation β ρ σ)) where
  toComposable := chains_transfers.composable
  aside ht ha := chains_transfers.traced_after ht ha.idle
  log level message l := (sends_writeLog level message l).transfers
  armAccept fd := transfers_submit rfl
  armReceive fd l _ := by
    unfold armReceive
    rw [Ends, exec_bind_ok (exec_get l)]
    exact transfers_submit rfl l
  close fd l := by
    rcases exec_closeConnection fd l with ⟨_, _, _, e⟩ | ⟨_, e⟩
    · rw [Ends, e]
      exact transfers_of_table (transfers_submit rfl _)
    · rw [Ends, e]
      exact chains_transfers.composable.refl l
  shutdown fd l := by
    rcases exec_shutdownConnection fd l with ⟨_, _, _, e⟩ | ⟨_, e⟩
    · rw [Ends, e]
      exact transfers_of_table (transfers_submit rfl _)
    · rw [Ends, e]
      exact chains_transfers.composable.refl l
  handle fd connection id payload l _ _ := by
    obtain ⟨message, m, ha, e⟩ := exec_handle fd connection.peer id payload l
    have chains := chains_transfers (β := β) (ρ := ρ) (σ := σ)
    have counted := chains.traced_after (chains.composable.refl _) ha.idle
    have rest := Keeps.bind chains.composable (transfers_writeAccess message) fun _ =>
      transfers_answer fd payload
    rw [Ends, e]
    exact transfers_of_table (chains.composable.trans counted (rest m))
  take id length l := by
    refine fun _ => ⟨[], [], Adds.of_idle ⟨rfl, rfl, rfl, rfl, rfl, rfl⟩, fun _ => ?_⟩
    refine ⟨by simp, fun flying hl => ⟨rfl, by simpa using hl, fun free i hx => ?_⟩⟩
    have hf := free.take id length l.ring i
    rcases he : (BufferSource.take id length l.ring).1 with e | b
    · rw [he] at hx hf
      exact hf (congrArg Except.error (Option.some.inj hx))
    · rw [he] at hx
      cases hx
  recycle buffer l m x ht := chains_transfers.traced_after ht ⟨rfl, rfl, rfl, rfl, rfl, rfl⟩

/-! ## Along a run -/

omit [Backend β] [BufferSource ρ] in
theorem inFlight_append (h : List Occurrence) (o : Occurrence) : inFlight (h ++ [o]) =
    (inFlight h).filter (fun i => !o.completion.any (·.ends i)) ++
      o.pushed.filterMap (·.slot?) := by
  rw [inFlight, List.foldl_append]
  rfl

/-- A tag names at most one slot. -/
theorem ends_iff {c : Completion} {i j : UInt16} (hw : c.tag.opcode? = some .writeFixed)
    (hi : c.tag.descriptor = i.toUInt32) : c.ends j = true ↔ j = i := by
  simp only [Completion.ends, hw, hi, true_and, decide_eq_true_eq]
  constructor
  · intro e
    have e' := congrArg UInt32.toUInt16 e
    simpa using e'.symm
  · exact fun e => by rw [e]

theorem toUInt32_toUInt16 {d : UInt32} (h : d.toNat ≤ FreeList.maxSlots) :
    d.toUInt16.toUInt32 = d := by
  apply UInt32.toNat_inj.mp
  have hm : FreeList.maxSlots < 2 ^ 16 := by decide
  rw [UInt16.toNat_toUInt32, UInt32.toNat_toUInt16, Nat.mod_eq_of_lt (by omega)]

theorem toNat_toUInt32_le (i : UInt16) : i.toUInt32.toNat ≤ FreeList.maxSlots := by
  have hlt := i.toNat_lt
  rw [UInt16.toNat_toUInt32, FreeList.maxSlots]
  omega

/-- Pool and history of a run agree, for a pool of `n` slots. -/
structure Owned (n : Nat) (h : List Occurrence) (l : Watched β ρ σ) : Prop where
  tags : ∀ s ∈ l.backend.pushed, ∀ i, s.slot? = some i → s.tag = .onSlot i
  capacity : l.pool.capacity = n
  lends : l.pool.Lends (inFlight h)
  /-- What has not been completed is in flight, if the kernel keeps to what was pushed. -/
  balance : Genuine h → ∀ i, (inFlight h).count i + completions i h = pushes i h

section

omit [Backend β] [BufferSource ρ]

theorem pushes_append (i : UInt16) (h : List Occurrence) (o : Occurrence) :
    pushes i (h ++ [o]) = pushes i h + (o.pushed.filterMap (·.slot?)).count i := by
  simp [pushes]

theorem completions_append (i : UInt16) (h : List Occurrence) (o : Occurrence) :
    completions i (h ++ [o]) = completions i h + if o.completion.any (·.ends i) then 1 else 0 := by
  rw [completions, completions, List.countP_append, List.countP_singleton]

theorem Genuine.of_append {a b : List Occurrence} (hg : Genuine (a ++ b)) : Genuine a := by
  intro x o y c e
  exact hg x o (y ++ b) c (by rw [e, List.append_assoc, List.cons_append])

theorem genuine_nil : Genuine [] := by
  intro a o b c e
  cases a <;> cases e

theorem Genuine.append {o : Occurrence} (hg : Genuine h)
    (ho : ∀ c, o.completion = some c → c.tag.opcode? = some .writeFixed →
      ∃ i : UInt16, c.tag.descriptor = i.toUInt32 ∧ completions i h < pushes i h) :
    Genuine (h ++ [o]) := by
  intro a o' b c e hc hw
  rcases append_singleton_eq e with ⟨rfl, rfl, rfl⟩ | ⟨b', -, rfl⟩
  · exact ho c hc hw
  · exact hg a o' b' c rfl hc hw

/-- A step that is no completion of a fixed write ends none. -/
theorem ends_eq_false {c : Option Completion} (hw : c.bind (·.tag.opcode?) ≠ some .writeFixed)
    (i : UInt16) : c.any (·.ends i) = false := by
  cases c with
  | none => rfl
  | some c =>
    have hw' : c.tag.opcode? ≠ some .writeFixed := hw
    simp [Completion.ends, hw']

/-- A completion that belongs to no fixed write in flight takes nothing away. -/
theorem Owned.not_in_flight {n : Nat} {c : Completion} (ho : Owned n h l) (hp : m.pool = l.pool)
    (hb : m.backend.pushed = l.backend.pushed) (hw : c.tag.opcode? = some .writeFixed)
    (hc : ∀ i ∈ inFlight h, c.ends i = false) :
    Owned n (h ++ [⟨some c, l.peerOf, [], []⟩]) m := by
  have same : inFlight (h ++ [⟨some c, l.peerOf, [], []⟩]) = inFlight h := by
    rw [inFlight_append, List.filterMap_nil, List.append_nil, List.filter_eq_self]
    intro i hi
    simpa using hc i hi
  refine ⟨hb ▸ ho.tags, hp ▸ ho.capacity, by rw [same, hp]; exact ho.lends, fun hg => ?_⟩
  -- A completion that the kernel may report would belong to one in flight.
  obtain ⟨i, hi, hlt⟩ := hg h _ [] c rfl rfl hw
  have balanced := ho.balance hg.of_append i
  have member : i ∈ inFlight h := List.count_pos_iff.mp (by omega)
  have := hc i member
  rw [(ends_iff hw hi).mpr rfl] at this
  cases this

/-- A completion that belongs to a fixed write in flight takes it away. -/
theorem Owned.in_flight {n : Nat} {c : Completion} {i : UInt16} {pool : SlotPool}
    (ho : Owned n h l) (hp : m.pool = pool) (hb : m.backend.pushed = l.backend.pushed)
    (hw : c.tag.opcode? = some .writeFixed) (hi : c.tag.descriptor = i.toUInt32)
    (member : i ∈ inFlight h) (hc : pool.capacity = l.pool.capacity)
    (hl : pool.Lends ((inFlight h).filter (· ≠ i))) :
    Owned n (h ++ [⟨some c, l.peerOf, [], []⟩]) m := by
  have fewer : inFlight (h ++ [⟨some c, l.peerOf, [], []⟩]) = (inFlight h).filter (· ≠ i) := by
    rw [inFlight_append, List.filterMap_nil, List.append_nil]
    apply List.filter_congr
    intro j _
    simp [← ends_iff hw hi]
  refine ⟨hb ▸ ho.tags, by rw [hp, hc, ho.capacity], by rw [fewer, hp]; exact hl, fun hg j => ?_⟩
  have balanced := ho.balance hg.of_append j
  rw [fewer, completions_append, pushes_append]
  by_cases e : j = i
  · have once : (inFlight h).count i = 1 := List.count_eq_one_of_mem ho.lends.nodup member
    have gone : ((inFlight h).filter (· ≠ i)).count i = 0 :=
      List.count_eq_zero_of_not_mem (by simp)
    have ended : (some c).any (·.ends i) = true := (ends_iff hw hi).mpr rfl
    subst e
    rw [gone, if_pos ended, List.filterMap_nil, List.count_nil]
    omega
  · have kept : ((inFlight h).filter (· ≠ i)).count j = (inFlight h).count j :=
      List.count_filter (by simpa using e)
    have passes : ¬ (some c).any (·.ends j) = true := mt (ends_iff hw hi).mp e
    rw [kept, if_neg passes, List.filterMap_nil, List.count_nil]
    exact balanced

end

theorem survives_owned (n : Nat) : Survives (Transfers : TraceRelation β ρ σ) (Owned n) where
  idle ho hi := by
    refine ⟨?_, ?_, ?_, ho.balance⟩
    · rw [hi.pushed]
      exact ho.tags
    · rw [hi.pool]
      exact ho.capacity
    · rw [hi.pool]
      exact ho.lends
  step := by
    intro h l m c ps cs x ho hw _ _ added ht
    have passes := ends_eq_false hw
    have pool : (begun c l).pool = l.pool := by rw [begun_eq]
    have more : inFlight (h ++ [⟨c, l.peerOf, ps, cs⟩]) = inFlight h ++ ps.filterMap (·.slot?) := by
      rw [inFlight_append]
      simp [passes]
    obtain ⟨hc, hl, -⟩ := ht.2 (inFlight h) (by rw [pool]; exact ho.lends)
    refine ⟨?_, by rw [hc, pool, ho.capacity], by rw [more]; exact hl, fun hg i => ?_⟩
    · intro s hs
      rw [added.journal] at hs
      rcases List.mem_append.mp hs with hs | hs
      · exact ho.tags s hs
      · exact ht.1 s hs
    · have balanced := ho.balance hg.of_append i
      rw [more, List.count_append, completions_append, pushes_append, if_neg (by simp [passes])]
      show _ = pushes i h + (ps.filterMap (·.slot?)).count i
      omega
  released := by
    intro h l m c x ho hw he
    by_cases hd : c.tag.descriptor.toNat ≤ FreeList.maxSlots
    · have hi := (toUInt32_toUInt16 hd).symm
      obtain ⟨n', ha, e⟩ := exec_dispatch_writeFixed (l := l) hw hd
      by_cases member : c.tag.descriptor.toUInt16 ∈ inFlight h
      · obtain ⟨pool, hp, hc, hl⟩ := ho.lends.release member
        rw [he, hp] at e
        cases e
        exact ho.in_flight rfl (by rw [ha]) hw hi member hc hl
      · rw [he, ho.lends.release_of_not_mem member] at e
        cases e
        refine ho.not_in_flight (by rw [ha]) (by rw [ha]) hw fun j hj => ?_
        have := mt (ends_iff hw hi).mp fun e => member (e ▸ hj)
        simpa using this
    · rw [exec_dispatch_writeFixed_of_lt hw (by omega)] at he
      cases he
      refine ho.not_in_flight rfl rfl hw fun j _ => ?_
      have hj : c.tag.descriptor ≠ j.toUInt32 := by
        intro e
        rw [e] at hd
        exact hd (toNat_toUInt32_le j)
      simp [Completion.ends, hj]

/-- What a run owns, if all its pushes are accepted. -/
theorem Reached.owned {n : Nat} (hs : Recording start) (h0 : Owned n [] start)
    (hr : Reached start h l) : Recording l ∧ start.backend.refusals ≤ l.backend.refusals ∧
      (l.backend.refusals = start.backend.refusals → Owned n h l) :=
  hr.invariant chains_transfers allows_transfers (survives_owned n) hs h0

theorem Reached.refusals_le (hr : Reached l h m) (hs : Recording l) :
    l.backend.refusals ≤ m.backend.refusals := by
  have survives : Survives (Transfers : TraceRelation β ρ σ) fun _ _ => True :=
    ⟨fun _ _ => trivial, fun _ _ _ _ _ _ _ _ _ _ => trivial, fun _ _ _ _ _ => trivial⟩
  exact (hr.invariant chains_transfers allows_transfers survives hs trivial).2.1

/-- What was refused neither before a run nor by its end was refused at no point of it. -/
theorem Reached.unrefused {h' : List Occurrence} {n : Nat} (hs : Recording start)
    (h0 : Owned n [] start) (hr : Reached start h l) (later : Reached l h' m)
    (accepted : m.backend.refusals = start.backend.refusals) :
    Recording l ∧ l.backend.refusals = start.backend.refusals ∧ Owned n h l := by
  obtain ⟨recording, le, owned⟩ := hr.owned hs h0
  have grows := later.refusals_le recording
  have before : l.backend.refusals = start.backend.refusals := by omega
  exact ⟨recording, before, owned before⟩

theorem Reached.first_unrefused {c : Completion} {batch : List Completion} {n : Nat}
    (hs : Recording start) (h0 : Owned n [] start) (hr : Reached start h l)
    (accepted : (exec ((c :: batch).forM dispatch) l).2.backend.refusals =
      start.backend.refusals) :
    (exec (dispatch c) l).2.backend.refusals = start.backend.refusals := by
  change (exec (dispatch c >>= fun _ => batch.forM dispatch) l).2.backend.refusals = _ at accepted
  have next := hr.step (.dispatch c)
  rcases he : exec (dispatch c) l with ⟨e | a, m⟩
  · rwa [exec_bind_error he] at accepted
  · rw [exec_bind_ok he] at accepted
    rw [he] at next
    exact (next.unrefused hs h0 (Reached.start.batch batch) accepted).2.1

omit [Backend β] in
theorem owned_of_new {backend : β} {pool : SlotPool} {rings : List ρ} {handler : Handler σ}
    {state : σ} {settings : Settings} {granted entrySize entries : Nat}
    (hp : SlotPool.new granted entrySize entries = .ok pool)
    (hn : EventLoop.new (.of backend) pool rings handler.recording (state, [])
      settings = .ok start) :
    Owned entries [] start := by
  obtain ⟨hb, he, -, -, -⟩ := new_eq_ok hn
  obtain ⟨hc, hl⟩ := SlotPool.new_eq_ok hp
  refine ⟨?_, by rw [he, hc], by rw [he]; exact hl, ?_⟩
  · rw [hb]
    intro s hs
    cases hs
  · exact fun _ i => rfl

/-! ## Slots that are not outstanding -/

/-- A dispatch finds every slot outstanding that the kernel may complete. -/
theorem Owned.dispatch_ne {n : Nat} {c : Completion} {x : Except Fault Unit} (ho : Owned n h l)
    (hs : Recording l) (free : SlotFaultFree β ρ) (hg : Genuine (h ++ [seen (some c) l m]))
    (he : exec (dispatch c) l = (x, m)) (accepted : m.backend.refusals = l.backend.refusals)
    (i : UInt16) : x ≠ .error (.slotNotOutstanding i) := by
  by_cases hw : c.tag.opcode? = some .writeFixed
  · obtain ⟨j, hj, hlt⟩ := hg h _ [] c rfl rfl hw
    have balanced := ho.balance hg.of_append j
    have member : j ∈ inFlight h := List.count_pos_iff.mp (by omega)
    obtain ⟨pool, hp, -⟩ := ho.lends.release member
    have hd : c.tag.descriptor.toNat ≤ FreeList.maxSlots := by
      rw [hj]
      exact toNat_toUInt32_le j
    obtain ⟨n', -, e⟩ := exec_dispatch_writeFixed (l := l) hw hd
    rw [hj, UInt16.toUInt16_toUInt32, hp, he] at e
    cases e
    simp
  · have begins : Recording (prepared c l) := by
      rw [prepared_eq]
      exact hs
    have pool : (prepared c l).pool = l.pool := by rw [prepared_eq]
    have refusals : (prepared c l).backend.refusals = l.backend.refusals := by rw [prepared_eq]
    have ended := dispatch_ends allows_transfers c l hw
    rw [he] at ended
    obtain ⟨ps, cs, -, kept⟩ := ended begins
    obtain ⟨-, -, quiet⟩ := (kept (accepted.trans refusals.symm)).2 (inFlight h) (pool ▸ ho.lends)
    rintro rfl
    exact quiet free i rfl

variable {n : Nat}

/-- So does a batch. -/
theorem Owned.batch_ne (h0 : Owned n [] start) (hs : Recording start) (free : SlotFaultFree β ρ)
    (hr : Reached start h l) (batch : List Completion) (hg : Genuine (h ++ occurrences batch l))
    (accepted : (exec (batch.forM dispatch) l).2.backend.refusals = start.backend.refusals)
    (i : UInt16) : (exec (batch.forM dispatch) l).1 ≠ .error (.slotNotOutstanding i) := by
  induction batch generalizing h l with
  | nil => exact fun e => nomatch e
  | cons c batch ih =>
    obtain ⟨recording, le, owned⟩ := hr.owned hs h0
    -- No push was refused at any point of the batch.
    have last := (hr.batch (c :: batch)).owned hs h0
    change (exec (dispatch c >>= fun _ => batch.forM dispatch) l).2.backend.refusals = _ at accepted
    show (exec (dispatch c >>= fun _ => batch.forM dispatch) l).1 ≠ _
    rcases he : exec (dispatch c) l with ⟨e | a, m⟩
    · have single : occurrences (c :: batch) l = [seen (some c) l m] := by rw [occurrences, he]
      rw [exec_bind_error he] at accepted ⊢
      rw [single] at hg
      have grows := Reached.refusals_le (Reached.start.step (.dispatch c) : Reached l _ _) recording
      rw [he] at grows
      have accepted' : m.backend.refusals = start.backend.refusals := accepted
      have grows' : l.backend.refusals ≤ m.backend.refusals := grows
      have ne := (owned (by omega)).dispatch_ne recording free hg he (by omega) i
      intro e'
      cases e'
      exact ne rfl
    · have next := hr.step (.dispatch c)
      rw [he] at next
      have more : occurrences (c :: batch) l = seen (some c) l m :: occurrences batch m := by
        rw [occurrences, he]
      rw [exec_bind_ok he] at accepted ⊢
      rw [more, ← List.singleton_append, ← List.append_assoc] at hg
      exact ih next hg accepted

omit [BufferSource ρ] in
theorem collect_ne (free : ∀ memory n (b : β) i,
    (Backend.wait memory n b).1 ≠ .error (.slotNotOutstanding i)) (l : Watched β ρ σ) (i : UInt16) :
    (exec collect l).1 ≠ .error (.slotNotOutstanding i) := by
  have waits := free l.pool.memory 1 l.backend.inner i
  unfold collect
  rw [exec_bind_ok (exec_modifyGet _ l)]
  show (exec (liftExcept (Backend.wait l.pool.memory 1 l.backend.inner).1 >>= _) _).1 ≠ _
  rcases hw : Backend.wait l.pool.memory 1 l.backend.inner with ⟨e | n, b⟩
  · rw [hw] at waits
    rw [exec_bind_error (exec_liftExcept _ _)]
    intro e'
    cases e'
    exact waits rfl
  · rw [exec_bind_ok (exec_liftExcept _ _)]
    exact fun e => nomatch e

omit [BufferSource ρ] in
theorem conclude_ne (free : ∀ memory (b : β) i,
    (Backend.flush memory b).1 ≠ .error (.slotNotOutstanding i)) (batch : List Completion)
    (l : Watched β ρ σ) (i : UInt16) :
    (exec (conclude batch) l).1 ≠ .error (.slotNotOutstanding i) := by
  have submits := free l.pool.memory l.backend.inner i
  have flushed := exec_flush l
  change exec flush l = ((Backend.flush l.pool.memory l.backend.inner).1.map _, _) at flushed
  unfold conclude
  rcases hf : Backend.flush l.pool.memory l.backend.inner with ⟨e | n, b⟩
  · rw [hf] at flushed submits
    rw [exec_bind_error flushed]
    intro e'
    cases e'
    exact submits rfl
  · rw [hf] at flushed
    rw [exec_bind_ok flushed]
    exact fun e => nomatch e

/-- So does a turn, as waiting and submitting leave slots alone. -/
theorem Owned.turn_ne (h0 : Owned n [] start) (hs : Recording start) (free : SlotFaultFree β ρ)
    (hr : Reached start h l) (hg : Genuine (h ++ turnOccurrences l))
    (accepted : (exec turn l).2.backend.refusals = start.backend.refusals) (i : UInt16) :
    (exec turn l).1 ≠ .error (.slotNotOutstanding i) := by
  rw [turn_eq] at accepted ⊢
  have ready := idle_collect l
  have waits := collect_ne free.wait l i
  rcases hc : exec collect l with ⟨e | batch, m⟩
  · rw [hc] at waits
    rw [exec_bind_error hc]
    intro e'
    cases e'
    exact waits rfl
  · rw [exec_bind_ok hc] at accepted ⊢
    rw [turnOccurrences, hc] at hg
    have ne := h0.batch_ne hs free (hr.idle (ready.to_exec hc)) batch hg
    rcases hd : exec (batch.forM dispatch) m with ⟨e | a, k⟩
    · rw [exec_bind_error hd] at accepted ⊢
      rw [hd] at ne
      have := ne accepted i
      intro e'
      cases e'
      exact this rfl
    · rw [exec_bind_ok hd]
      exact conclude_ne free.flush batch k i

/-- On a new pool, the fixed writes in flight and the slots with the kernel are the same at every
point of a run in which all pushes are accepted: every fixed write is tagged with its slot, the
kernel owns a slot exactly if one fixed write with it is in flight, nothing stays with the
application, no slot is in flight twice, and all others are free. While the kernel completes no
fixed write twice and invents none, no turn finds a slot not outstanding. -/
theorem slots_match_fixed_writes {backend : β} {pool : SlotPool} {rings : List ρ}
    {handler : Handler σ} {state : σ} {settings : Settings} {granted entrySize entries : Nat}
    (hp : SlotPool.new granted entrySize entries = .ok pool)
    (hn : EventLoop.new (.of backend) pool rings handler.recording (state, []) settings = .ok start)
    (hr : Reached start h l) (accepted : l.backend.refusals = 0) :
    (∀ s ∈ l.backend.pushed, ∀ i, s.slot? = some i → s.tag.descriptor = i.toUInt32) ∧
    (∀ i, l.pool.owner? i = some .kernel ↔ (inFlight h).count i = 1) ∧
    (∀ i, l.pool.owner? i ≠ some .app) ∧
    (inFlight h).Nodup ∧
    l.pool.available + (inFlight h).length = l.pool.capacity ∧
    (SlotFaultFree β ρ → Genuine (h ++ turnOccurrences l) →
      (exec turn l).2.backend.refusals = 0 →
      ∀ i, (exec turn l).1 ≠ .error (.slotNotOutstanding i)) := by
  obtain ⟨recording, unrefused⟩ := recording_of_new hn
  have begins := owned_of_new hp hn
  obtain ⟨-, -, owned⟩ := hr.owned recording begins
  have ho := owned (accepted.trans unrefused.symm)
  refine ⟨?_, ?_, ho.lends.unheld, ho.lends.nodup, ho.lends.available_add, ?_⟩
  · intro s hs i hi
    rw [ho.tags s hs i hi]
    exact Tag.descriptor_encode _ _
  · intro i
    rw [ho.lends.kernel_iff]
    constructor
    · exact List.count_eq_one_of_mem ho.lends.nodup
    · intro once
      exact List.count_pos_iff.mp (by omega)
  · intro free hg accepted' i
    exact begins.turn_ne recording free hr hg (accepted'.trans unrefused.symm) i

theorem slotFaultFree_recorder : SlotFaultFree Recorder BufferQueue where
  flush _ _ _ := nofun
  wait _ _ _ _ := nofun
  take id length q i := by
    obtain ⟨size, memory, waiting, group, holder, held⟩ := q
    show Except.map _ (Ledger.take id ⟨group, holder, held⟩).1 ≠ _
    unfold Ledger.take
    simp only []
    split <;> exact fun e => nomatch e

/-- A line has been logged, and its fixed write is completed. -/
def afterLine : Watched Recorder BufferQueue Unit :=
  ready [⟨.onSlot 1, 30, 0⟩] (exec (writeLog .info "up") echoing).2

theorem slots_match_fixed_writes_after_line : ∃ h, Reached echoing h afterLine ∧
    (afterLine.pool.owner? 1 = some .kernel ↔ (inFlight h).count 1 = 1) ∧
    ∀ i, (exec turn afterLine).1 ≠ .error (.slotNotOutstanding i) := by
  have hr : Reached echoing _ afterLine :=
    (Reached.start.step (.log .info "up")).idle (idle_ready [⟨.onSlot 1, 30, 0⟩] _)
  obtain ⟨-, kernel, -, -, -, quiet⟩ :=
    slots_match_fixed_writes new_twoSlots new_echoing hr (by decide +kernel)
  refine ⟨_, hr, kernel 1, quiet slotFaultFree_recorder ?_ (by decide +kernel)⟩
  have one : exec collect afterLine = (.ok [⟨.onSlot 1, 30, 0⟩], _) :=
    Prod.ext (by decide +kernel) rfl
  rw [turnOccurrences_of_single one]
  refine (genuine_nil.append fun c hc => ?_).append fun c hc _ => ?_
  · cases hc
  cases hc
  exact ⟨1, by decide +kernel, by decide +kernel⟩

end EventLoop

end RingServer
