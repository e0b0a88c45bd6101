import RingServer.Proofs.Loop.Bookkeeping
import RingServer.Proofs.Loop.Faults
import Mathlib.Algebra.Order.BigOperators.Group.List
import Mathlib.Algebra.Order.Ring.Nat

/-!
The counters balance. A run of listening and of turns that succeed has a book of entries
(`Ran.stretch`), and every counter is the sum of what the entries count in it (`toNat_counted`). So
a balance between counters is one between the shares of each single entry, and what the entries sent
and called is what the counters tell of (`counters_balance`).
-/

namespace RingServer

open Text (Bytes)

theorem countP_eq_sum {α : Type} (p : α → Bool) (xs : List α) :
    xs.countP p = (xs.map fun x => (p x).toNat).sum := by
  induction xs with
  | nil => rfl
  | cons x xs ih =>
    rw [List.countP_cons, ih, List.map_cons, List.sum_cons, Nat.add_comm]
    cases p x <;> rfl

namespace Counters

def plus (m n : Counters) : Counters where
  accepts := m.accepts + n.accepts
  acceptErrors := m.acceptErrors + n.acceptErrors
  acceptRearms := m.acceptRearms + n.acceptRearms
  messages := m.messages + n.messages
  bytesIn := m.bytesIn + n.bytesIn
  receiveRearms := m.receiveRearms + n.receiveRearms
  receiveStops := m.receiveStops + n.receiveStops
  replies := m.replies + n.replies
  repliesDropped := m.repliesDropped + n.repliesDropped
  repliesTruncated := m.repliesTruncated + n.repliesTruncated
  logLines := m.logLines + n.logLines
  logDropped := m.logDropped + n.logDropped
  closes := m.closes + n.closes
  faults := m.faults + n.faults
  unknown := m.unknown + n.unknown
  completions := m.completions + n.completions
  turns := m.turns + n.turns

end Counters

namespace Reply

def isFixed : Reply → Bool
  | fixed _ => true
  | nothing | copied _ => false

def isCopied : Reply → Bool
  | copied _ => true
  | nothing | fixed _ => false

theorem isFixed_of_isCopied {r : Reply} (h : r.isCopied = true) : r.isFixed = false := by
  cases r with
  | copied bytes => rfl
  | nothing | fixed bytes => cases h

theorem isCopied_of_isFixed {r : Reply} (h : r.isFixed = true) : r.isCopied = false := by
  cases r with
  | fixed bytes => rfl
  | nothing | copied bytes => cases h

end Reply

namespace Entry

/-- What an entry counts in one of the counters. -/
def share (f : Counters → UInt64) (e : Entry) : Nat := (f (e.count .zero)).toNat

theorem count_eq_plus (e : Entry) (n : Counters) : e.count n = n.plus (e.count .zero) := by
  cases e with
  | accepted line | closed line =>
    cases line <;> simp [count, Line.count, Counters.plus, Counters.zero]
  | message call reply line fate =>
    cases line <;> cases fate <;>
      simp [count, Line.count, Fate.count, Counters.plus, Counters.zero]
  | acceptFailed | acceptEnded | stopped | rearmed | blamed | unknown | turned k =>
    simp [count, Counters.plus, Counters.zero]

theorem foldl_count {f : Counters → UInt64} {w : Entry → Nat}
    (hf : ∀ m n, f (m.plus n) = f m + f n) (hw : ∀ e, f (e.count .zero) = .ofNat (w e))
    (es : List Entry) (n : Counters) : f (es.foldl count n) = f n + .ofNat (es.map w).sum := by
  induction es generalizing n with
  | nil => simp
  | cons e es ih =>
    rw [List.foldl_cons, ih, count_eq_plus, hf, List.map_cons, List.sum_cons, UInt64.ofNat_add, hw,
      UInt64.add_assoc]

/-- Short of an overflow, a counter is the sum of what the entries count in it. -/
theorem toNat_counted {f : Counters → UInt64} {w : Entry → Nat} {es : List Entry}
    (small : (es.map w).sum < UInt64.size) (hf : ∀ m n, f (m.plus n) = f m + f n)
    (hw : ∀ e, f (e.count .zero) = .ofNat (w e)) (h0 : f .zero = 0) :
    (f (es.foldl count .zero)).toNat = (es.map w).sum := by
  rw [foldl_count hf hw, h0, UInt64.zero_add]
  exact UInt64.toNat_ofNat_of_lt' small

theorem toNat_shared {f : Counters → UInt64} {es : List Entry}
    (small : (es.map (share f)).sum < UInt64.size) (hf : ∀ m n, f (m.plus n) = f m + f n)
    (h0 : f .zero = 0) : (f (es.foldl count .zero)).toNat = (es.map (share f)).sum :=
  toNat_counted small hf (fun _ => (UInt64.ofNat_toNat).symm) h0

@[simp]
theorem share_accepts (e : Entry) : e.share (·.accepts) = match e with
    | accepted _ => 1
    | _ => 0 := by
  cases e with
  | accepted line | closed line => cases line <;> rfl
  | message call reply line fate => cases line <;> cases fate <;> rfl
  | acceptFailed | acceptEnded | stopped | rearmed | blamed | unknown | turned k => rfl

@[simp]
theorem share_closes (e : Entry) : e.share (·.closes) = match e with
    | closed _ => 1
    | _ => 0 := by
  cases e with
  | accepted line | closed line => cases line <;> rfl
  | message call reply line fate => cases line <;> cases fate <;> rfl
  | acceptFailed | acceptEnded | stopped | rearmed | blamed | unknown | turned k => rfl

@[simp]
theorem share_messages (e : Entry) : e.share (·.messages) = match e with
    | message .. => 1
    | _ => 0 := by
  cases e with
  | accepted line | closed line => cases line <;> rfl
  | message call reply line fate => cases line <;> cases fate <;> rfl
  | acceptFailed | acceptEnded | stopped | rearmed | blamed | unknown | turned k => rfl

/-- The completions that an entry counts. -/
def handled : Entry → Nat
  | turned k => k
  | _ => 0

/-- The bytes that an entry counts. -/
def bytes (e : Entry) : Nat := e.call?.elim 0 (·.2.length)

theorem ofNat_handled (e : Entry) : (e.count .zero).completions = .ofNat e.handled := by
  cases e with
  | accepted line | closed line => cases line <;> rfl
  | message call reply line fate => cases line <;> cases fate <;> rfl
  | turned k => simp [count, handled, Counters.zero]
  | acceptFailed | acceptEnded | stopped | rearmed | blamed | unknown => rfl

theorem ofNat_bytes (e : Entry) : (e.count .zero).bytesIn = .ofNat e.bytes := by
  cases e with
  | accepted line | closed line => cases line <;> rfl
  | message call reply line fate =>
    cases line <;> cases fate <;> simp [count, Line.count, Fate.count, bytes, call?, Counters.zero]
  | acceptFailed | acceptEnded | stopped | rearmed | blamed | unknown | turned k => rfl

/-- The kept lines are those of the accepts, the messages and the closes. -/
theorem share_lines {kept : Bool} {e : Entry} (h : e.Fits kept) :
    e.share (·.logLines) + e.share (·.logDropped) =
      if kept then e.share (·.accepts) + e.share (·.messages) + e.share (·.closes) else 0 := by
  have line : ∀ {x : Line}, x.Fits kept →
      (x.count .zero).logLines.toNat + (x.count .zero).logDropped.toNat =
        if kept then 1 else 0 := by
    intro x hx
    cases x <;> cases kept <;> simp_all [Line.Fits, Line.count, Counters.zero]
  rw [share_accepts, share_messages, share_closes]
  cases e with
  | accepted x | closed x =>
    refine Eq.trans ?_ (line h)
    cases x <;> rfl
  | message call reply x fate =>
    refine Eq.trans ?_ (line h.1)
    cases x <;> cases fate <;> rfl
  | acceptFailed | acceptEnded | stopped | rearmed | blamed | unknown | turned k =>
    cases kept <;> rfl

/-- How many answers of a kind go with an entry. -/
def answersOf (kind : Reply → Bool) (e : Entry) : Nat := e.reply?.elim 0 fun r => (kind r).toNat

theorem share_answers (e : Entry) :
    e.answersOf (·.isFixed) + e.answersOf (·.isCopied) ≤ e.share (·.messages) := by
  rw [share_messages]
  cases e with
  | message call reply x fate => cases reply <;> exact Nat.le_of_ble_eq_true rfl
  | accepted | closed | acceptFailed | acceptEnded | stopped | rearmed | blamed | unknown
  | turned => exact Nat.le_refl 0

/-- An answer is sent or dropped, and what goes through a slot is a line or a copied answer. -/
theorem share_replies {kept : Bool} {e : Entry} (h : e.Fits kept) :
    e.share (·.replies) + e.share (·.repliesDropped) =
        e.answersOf (·.isFixed) + e.answersOf (·.isCopied) ∧
      e.share (·.repliesTruncated) + e.answersOf (·.isFixed) ≤ e.share (·.replies) ∧
      e.outlets.count .slot + e.answersOf (·.isFixed) =
        e.share (·.logLines) + e.share (·.replies) := by
  cases e with
  | accepted x | closed x => cases x <;> decide
  | message call reply x fate =>
    have fits := h.2
    cases reply with
    | nothing | fixed bytes =>
      cases fits
      cases x <;> exact ⟨rfl, Nat.le_refl _, rfl⟩
    | copied bytes =>
      rcases fits with rfl | rfl | rfl <;> cases x <;>
        exact ⟨rfl, Nat.le_of_ble_eq_true rfl, rfl⟩
  | acceptFailed | acceptEnded | stopped | rearmed | blamed | unknown | turned k =>
    exact ⟨rfl, Nat.le_refl _, rfl⟩

section

variable {kept : Bool} {es : List Entry}

theorem sum_lines (h : ∀ e ∈ es, e.Fits kept) :
    (es.map (share (·.logLines))).sum + (es.map (share (·.logDropped))).sum =
      if kept then (es.map (share (·.accepts))).sum + (es.map (share (·.messages))).sum +
        (es.map (share (·.closes))).sum else 0 := by
  rw [← List.sum_map_add, List.map_congr_left fun e he => share_lines (h e he)]
  cases kept with
  | true => simp only [if_true, List.sum_map_add]
  | false => exact List.sum_map_zero

theorem sum_replies (h : ∀ e ∈ es, e.Fits kept) :
    (es.map (share (·.replies))).sum + (es.map (share (·.repliesDropped))).sum =
        (es.map (answersOf (·.isFixed))).sum + (es.map (answersOf (·.isCopied))).sum ∧
      (es.map (share (·.repliesTruncated))).sum + (es.map (answersOf (·.isFixed))).sum ≤
        (es.map (share (·.replies))).sum ∧
      (es.map fun e => e.outlets.count .slot).sum + (es.map (answersOf (·.isFixed))).sum =
        (es.map (share (·.logLines))).sum + (es.map (share (·.replies))).sum := by
  simp only [← List.sum_map_add]
  exact ⟨congrArg _ (List.map_congr_left fun e he => (share_replies (h e he)).1),
    List.sum_le_sum fun e he => (share_replies (h e he)).2.1,
    congrArg _ (List.map_congr_left fun e he => (share_replies (h e he)).2.2)⟩

theorem sum_answers (es : List Entry) :
    (es.map (answersOf (·.isFixed))).sum + (es.map (answersOf (·.isCopied))).sum ≤
      (es.map (share (·.messages))).sum := by
  rw [← List.sum_map_add]
  exact List.sum_le_sum fun e _ => share_answers e

theorem sum_messages (es : List Entry) :
    (es.map (share (·.messages))).sum = (es.filterMap call?).length := by
  rw [List.length_filterMap_eq_countP, countP_eq_sum]
  refine congrArg _ (List.map_congr_left fun e _ => ?_)
  rw [share_messages]
  cases e <;> rfl

theorem sum_bytes (es : List Entry) :
    (es.map bytes).sum = ((es.filterMap call?).map (·.2.length)).sum := by
  induction es with
  | nil => rfl
  | cons e es ih =>
    rw [List.map_cons, List.sum_cons, ih, List.filterMap_cons]
    cases e with
    | message call reply line fate => rfl
    | accepted line | closed line => exact Nat.zero_add _
    | acceptFailed | acceptEnded | stopped | rearmed | blamed | unknown | turned k =>
      exact Nat.zero_add _

theorem countP_answers (kind : Reply → Bool) (es : List Entry) :
    (es.filterMap reply?).countP kind = (es.map (answersOf kind)).sum := by
  rw [List.countP_filterMap, countP_eq_sum]
  refine congrArg _ (List.map_congr_left fun e _ => ?_)
  cases e <;> rfl

end

end Entry

namespace EventLoop

variable {β ρ σ : Type}

/-! ## The world around the loop -/

section

variable {l : Watched β ρ σ}

/-- Between two operations of the loop the kernel, the network and the clock go on. -/
structure Meanwhile (l m : Watched β ρ σ) : Prop where
  pushed : m.backend.pushed = l.backend.pushed
  handler : m.handler = l.handler
  handlerState : m.handlerState = l.handlerState
  connections : m.connections = l.connections
  accessLog : m.accessLog = l.accessLog
  counters : m.counters = l.counters

theorem Meanwhile.refl (l : Watched β ρ σ) : Meanwhile l l := ⟨rfl, rfl, rfl, rfl, rfl, rfl⟩

theorem Meanwhile.trans {l m n : Watched β ρ σ} (h : Meanwhile l m) (h' : Meanwhile m n) :
    Meanwhile l n where
  pushed := h'.pushed.trans h.pushed
  handler := h'.handler.trans h.handler
  handlerState := h'.handlerState.trans h.handlerState
  connections := h'.connections.trans h.connections
  accessLog := h'.accessLog.trans h.accessLog
  counters := h'.counters.trans h.counters

theorem Meanwhile.still {l m : Watched β ρ σ} (h : Meanwhile l m) : Still l m :=
  still_of_eq h.counters h.pushed h.handler h.handlerState h.accessLog

variable [Backend β]

theorem meanwhile_flush : Keeps (fun (l : Watched β ρ σ) _ m => Meanwhile l m) flush :=
  Keeps.flush fun _ _ => ⟨rfl, rfl, rfl, rfl, rfl, rfl⟩

theorem meanwhile_collect : Keeps (fun (l : Watched β ρ σ) _ m => Meanwhile l m) collect :=
  Keeps.collect ⟨.refl, .trans⟩ (fun l _ => .refl l) (fun _ => ⟨rfl, rfl, rfl, rfl, rfl, rfl⟩)
    fun _ => ⟨rfl, rfl, rfl, rfl, rfl, rfl⟩

/-- Starting to accept counts nothing, whether it succeeds or not. -/
theorem still_listen (fd : Descriptor) :
    Keeps (fun (l : Watched β ρ σ) _ m => Still l m ∧ m.connections = l.connections)
      (listen fd) := by
  have composable : Composable fun (l : Watched β ρ σ) _ m =>
      Still l m ∧ m.connections = l.connections :=
    ⟨fun l => ⟨(Meanwhile.refl l).still, rfl⟩,
      fun h h' => ⟨.still_left h.1 h'.1, h'.2.trans h.2⟩⟩
  have armed : Keeps (fun (l : Watched β ρ σ) _ m => Still l m ∧ m.connections = l.connections)
      (armAccept fd) := by
    intro l
    unfold armAccept
    rcases submit_cases (.onDescriptor fd .accept) (.accept fd) l with
      ⟨inner, e⟩ | ⟨fault, inner, e⟩
    · have armed := shifts_submit e
      rw [Ends, e]
      exact ⟨armed, rfl⟩
    · rw [Ends, e]
      exact ⟨still_of_eq rfl rfl rfl rfl rfl, rfl⟩
  exact Keeps.listen composable (fun _ => ⟨still_of_eq rfl rfl rfl rfl rfl, rfl⟩) armed
    (fun _ _ => ⟨still_of_eq rfl rfl rfl rfl rfl, rfl⟩)
    fun _ _ => ⟨still_of_eq rfl rfl rfl rfl rfl, rfl⟩

end

/-! ## Connections -/

/-- The deed begins and ends no connection. -/
def Deed.keeps : Deed → Bool
  | track _ | forget _ => false
  | tally _ _ | armAccept _ | armReceive _ | shutDown _ | close _ | log _ | answer _ _ | recycle _
  | blame => true

theorem keeps_of_inert {ds : List Deed} (h : ∀ deed ∈ ds, deed.inert = true) :
    ∀ deed ∈ ds, deed.keeps = true := by
  intro deed hd
  have inert := h deed hd
  cases deed <;> first | rfl | cases inert

theorem keeps_aftermath (fd : Descriptor) (t : ConnectionTable) (armed : Bool)
    (outcome : Received) : ∀ deed ∈ aftermath fd t armed outcome, deed.keeps = true := by
  unfold aftermath rearming closing
  repeat' split
  all_goals simp [Deed.keeps]

theorem keeps_plan_receive [BufferSource ρ] {c : Completion} {buffer : Option ReceivedBuffer}
    {l : EventLoop β ρ σ} (hr : c.tag.opcode? = some .receive) :
    ∀ deed ∈ plan c buffer l, deed.keeps = true := by
  intro deed hd
  rw [plan_receive hr, List.mem_append, List.mem_append] at hd
  rcases hd with hd | hd | hd
  · exact keeps_of_inert (inert_heard _ _ _ _) deed hd
  · exact keeps_of_inert (inert_recycle _) deed hd
  · exact keeps_aftermath _ _ _ _ deed hd

theorem size_foldl_of_keeps {ds : List Deed} (h : ∀ deed ∈ ds, deed.keeps = true)
    (peerOf : Descriptor → Option SocketAddress) (t : ConnectionTable) :
    (ds.foldl (Deed.onTable peerOf) t).size = t.size ∧
      (t.Distinct → (ds.foldl (Deed.onTable peerOf) t).Distinct) := by
  induction ds generalizing t with
  | nil => exact ⟨rfl, id⟩
  | cons deed ds ih =>
    have kept : (deed.onTable peerOf t).size = t.size ∧
        (t.Distinct → (deed.onTable peerOf t).Distinct) := by
      have keeps := h deed List.mem_cons_self
      have modified : ∀ fd f, (t.modify fd f).size = t.size ∧
          (t.Distinct → (t.modify fd f).Distinct) := fun fd f =>
        ⟨t.size_modify f, fun distinct => distinct.modify f⟩
      cases deed with
      | track fd | forget fd => cases keeps
      | tally fd n => exact modified fd _
      | shutDown fd | close fd => exact modified fd _
      | armAccept _ | armReceive _ | log _ | answer _ _ | recycle _ | blame => exact ⟨rfl, id⟩
    obtain ⟨size, distinct⟩ :=
      ih (fun x hx => h x (List.mem_cons_of_mem _ hx)) (deed.onTable peerOf t)
    exact ⟨size.trans kept.1, fun before => distinct (kept.2 before)⟩

/-- The completion reports a descriptor that is still tracked. -/
def reclaims (c : Completion) (l : EventLoop β ρ σ) : Bool :=
  c.tag.opcode? = some .accept ∧ ¬ c.result < 0 ∧ l.connections.contains c.result

variable [BufferSource ρ] {l : Watched β ρ σ}

/-- What ends a receive is no event. -/
theorem sum_ended {w : Entry → Nat} (idle : ∀ e ∈ [Entry.rearmed, .stopped, .blamed], w e = 0)
    (t : ConnectionTable) (fd : Descriptor) (armed : Bool) (outcome : Received) :
    ((ended t fd armed outcome).map w).sum = 0 := by
  refine List.sum_eq_zero (List.forall_mem_map.mpr fun e he => ?_)
  apply idle e
  have rearm : ∀ e ∈ rearmed t fd, e = .rearmed := by
    intro e he
    unfold rearmed at he
    split at he
    · exact List.mem_singleton.mp he
    · cases he
  have unless_armed : ∀ e ∈ (if armed then [] else rearmed t fd), e = .rearmed := by
    cases armed with
    | true => simp
    | false => exact rearm
  unfold ended at he
  split at he
  · simp [unless_armed e he]
  · rcases List.mem_cons.mp he with rfl | he
    · simp
    · simp [unless_armed e he]
  · cases he
  · cases he
  · simp [List.mem_singleton.mp he]

/-- A completion is counted as at most one event: an accept, a message or a close. -/
theorem sum_booking (c : Completion) (buffer : Option ReceivedBuffer) (line : Line)
    (fate : Fate) :
    (((booking c buffer l line fate).map (Entry.share (·.accepts))).sum =
      if c.tag.opcode? = some .accept ∧ ¬ c.result < 0 then 1 else 0) ∧
    (((booking c buffer l line fate).map (Entry.share (·.closes))).sum =
      if c.tag.opcode? = some .close ∧ l.connections.contains c.tag.descriptor.toInt32 = true
      then 1 else 0) ∧
    ((booking c buffer l line fate).map (Entry.share (·.accepts))).sum +
        ((booking c buffer l line fate).map (Entry.share (·.messages))).sum +
        ((booking c buffer l line fate).map (Entry.share (·.closes))).sum ≤ 1 ∧
    ((booking c buffer l line fate).map Entry.handled).sum = 0 := by
  unfold booking
  rcases c.tag.opcode? with _ | op
  · simp [Entry.handled]
  cases op with
  | accept =>
    simp only []
    split <;> split <;> simp [Entry.handled, *]
  | receive =>
    simp only [List.map_append, List.sum_append]
    simp only [sum_ended (w := Entry.share (·.accepts)) (by simp),
      sum_ended (w := Entry.share (·.closes)) (by simp),
      sum_ended (w := Entry.share (·.messages)) (by simp),
      sum_ended (w := Entry.handled) (by simp [Entry.handled])]
    unfold heardEntry
    simp only []
    split <;> simp [Entry.handled]
  | close =>
    simp only []
    split <;> simp [Entry.handled, *]
  | listen | write | writeFixed | send | shutdown => simp

omit [BufferSource ρ] in
theorem keeps_access (message : String) : ∀ deed ∈ access l message, deed.keeps = true :=
  keeps_of_inert (inert_access l message)

theorem keeps_rearm (c : Completion) :
    ∀ deed ∈ (if c.hasMore then [] else [Deed.armAccept c.tag.descriptor.toInt32]),
      deed.keeps = true := by
  split <;> simp [Deed.keeps]

theorem plan_accepted {c : Completion} (buffer : Option ReceivedBuffer)
    (ha : c.tag.opcode? = some .accept ∧ ¬ c.result < 0) :
    ∃ ds, plan c buffer l = .track c.result :: ds ∧ ∀ deed ∈ ds, deed.keeps = true := by
  refine ⟨.armReceive c.result :: access l (acceptedLine c.result (l.peerOf c.result)) ++
    if c.hasMore then [] else [.armAccept c.tag.descriptor.toInt32], ?_, ?_⟩
  · simp [plan, ha.1, ha.2]
  · intro deed hd
    rcases List.mem_append.mp hd with hd | hd
    · rcases List.mem_cons.mp hd with rfl | hd
      · rfl
      · exact keeps_access _ deed hd
    · exact keeps_rearm c deed hd

theorem plan_closed {c : Completion} (buffer : Option ReceivedBuffer)
    (hc : c.tag.opcode? = some .close) :
    ∃ ds, plan c buffer l = .forget c.tag.descriptor.toInt32 :: ds ∧
      ∀ deed ∈ ds, deed.keeps = true := by
  simp only [plan, hc, List.cons.injEq, true_and, exists_eq_left']
  cases l.connections.get? c.tag.descriptor.toInt32 with
  | none => simp
  | some x => exact keeps_access _

theorem plan_keeps {c : Completion} (buffer : Option ReceivedBuffer)
    (ha : ¬ (c.tag.opcode? = some .accept ∧ ¬ c.result < 0)) (hc : c.tag.opcode? ≠ some .close) :
    ∀ deed ∈ plan c buffer l, deed.keeps = true := by
  by_cases hr : c.tag.opcode? = some .receive
  · exact keeps_plan_receive hr
  unfold plan
  rcases ho : c.tag.opcode? with _ | op
  · simp
  cases op with
  | accept =>
    have failed : c.result < 0 := not_not.mp fun hn => ha ⟨ho, hn⟩
    simpa [failed] using keeps_rearm c
  | close => exact absurd ho hc
  | receive => exact absurd ho hr
  | listen | write | writeFixed | send | shutdown => simp

/-- The plan of a completion begins and ends the connections that its entries count. -/
theorem size_plan (c : Completion) (buffer : Option ReceivedBuffer) (line : Line) (fate : Fate)
    (distinct : l.connections.Distinct) :
    ((plan c buffer l).foldl (Deed.onTable l.peerOf) l.connections).Distinct ∧
      ((plan c buffer l).foldl (Deed.onTable l.peerOf) l.connections).size +
          ((booking c buffer l line fate).map (Entry.share (·.closes))).sum +
          (if reclaims c l then 1 else 0) =
        l.connections.size +
          ((booking c buffer l line fate).map (Entry.share (·.accepts))).sum := by
  obtain ⟨accepts, closes, -, -⟩ := sum_booking (l := l) c buffer line fate
  rw [accepts, closes]
  by_cases ha : c.tag.opcode? = some .accept ∧ ¬ c.result < 0
  · obtain ⟨ds, e, keeps⟩ := plan_accepted (l := l) buffer ha
    obtain ⟨size, rows⟩ := size_foldl_of_keeps keeps l.peerOf
      ⟨(c.result, .fresh (l.peerOf c.result)) :: (l.connections.erase c.result).rows⟩
    have erased := distinct.size_erase c.result
    have again : reclaims c l = l.connections.contains c.result := by
      simp [reclaims, ha.1, ha.2]
    rw [e, List.foldl_cons, Deed.onTable, size, if_pos ha, if_neg (by simp [ha.1]), again]
    refine ⟨rows (distinct.fresh _), ?_⟩
    simp only [ConnectionTable.size, List.length_cons] at erased ⊢
    omega
  have fresh : ¬ reclaims c l := by
    rw [reclaims, decide_eq_true_eq]
    exact fun h => ha ⟨h.1, h.2.1⟩
  rw [if_neg ha, if_neg fresh]
  by_cases hc : c.tag.opcode? = some .close
  · obtain ⟨ds, e, keeps⟩ := plan_closed (l := l) buffer hc
    obtain ⟨size, rows⟩ := size_foldl_of_keeps keeps l.peerOf
      (l.connections.erase c.tag.descriptor.toInt32)
    have erased := distinct.size_erase c.tag.descriptor.toInt32
    rw [e, List.foldl_cons, Deed.onTable, size]
    refine ⟨rows distinct.erase, ?_⟩
    simpa [hc] using erased
  · obtain ⟨size, rows⟩ :=
      size_foldl_of_keeps (plan_keeps (l := l) buffer ha hc) l.peerOf l.connections
    rw [if_neg fun h => hc h.1, size]
    exact ⟨rows distinct, rfl⟩

/-! ## Runs -/

/-- Each completion of a batch with the loop that its dispatch begins with. -/
def visits [Backend β] : List Completion → Watched β ρ σ → List (Completion × Watched β ρ σ)
  | [], _ => []
  | c :: batch, l => (c, l) :: visits batch (exec (dispatch c) l).2

theorem length_visits [Backend β] (batch : List Completion) (l : Watched β ρ σ) :
    (visits batch l).length = batch.length := by
  induction batch generalizing l with
  | nil => rfl
  | cons c batch ih => exact congrArg (· + 1) (ih _)

/-- A run of listening and of turns that succeed leads to a loop; these completions have been
dispatched. -/
inductive Ran [Backend β] (start : Watched β ρ σ) :
    List (Completion × Watched β ρ σ) → Watched β ρ σ → Prop
  | start : Ran start [] start
  | listen {trail l} (fd : Descriptor) : Ran start trail l → Ran start trail (exec (listen fd) l).2
  | turn {trail l batch k n m} : Ran start trail l → exec collect l = (.ok batch, k) →
    exec turn l = (.ok n, m) → Ran start (trail ++ visits batch k) m
  | meanwhile {trail l m} : Ran start trail l → Meanwhile l m → Ran start trail m

theorem Ran.turned [Backend β] {start l k : Watched β ρ σ}
    {trail : List (Completion × Watched β ρ σ)} {batch : List Completion} {n : Nat}
    (h : Ran start trail l) (hc : exec collect l = (.ok batch, k))
    (ok : (exec EventLoop.turn l).1 = .ok n) :
    Ran start (trail ++ visits batch k) (exec EventLoop.turn l).2 :=
  h.turn hc (Prod.ext ok rfl)

/-- What a part of a run does: the entries, the events among the dispatches, and the completions
that turns have counted. -/
structure Stretch (trail : List (Completion × Watched β ρ σ)) (es : List Entry) (n : Nat)
    (l m : Watched β ρ σ) : Prop extends Booked es l m where
  distinct : m.connections.Distinct
  size : m.connections.size + (es.map (Entry.share (·.closes))).sum +
      trail.countP (fun visit => reclaims visit.1 visit.2) =
    l.connections.size + (es.map (Entry.share (·.accepts))).sum
  events : (es.map (Entry.share (·.accepts))).sum + (es.map (Entry.share (·.messages))).sum +
    (es.map (Entry.share (·.closes))).sum ≤ trail.length
  handled : (es.map Entry.handled).sum = n

section

variable {m k : Watched β ρ σ} {trail after : List (Completion × Watched β ρ σ)}
  {es fs : List Entry} {n i : Nat}

omit [BufferSource ρ] in
theorem Stretch.trans (h : Stretch trail es n l m) (h' : Stretch after fs i m k) :
    Stretch (trail ++ after) (es ++ fs) (n + i) l k where
  toBooked := h.toBooked.trans h'.toBooked
  distinct := h'.distinct
  size := by
    have first := h.size
    have second := h'.size
    simp only [List.map_append, List.sum_append, List.countP_append]
    omega
  events := by
    have first := h.events
    have second := h'.events
    simp only [List.map_append, List.sum_append, List.length_append]
    omega
  handled := by rw [List.map_append, List.sum_append, h.handled, h'.handled]

omit [BufferSource ρ] in
theorem Stretch.still (distinct : l.connections.Distinct) (h : Still l m)
    (same : m.connections = l.connections) : Stretch [] [] 0 l m where
  toBooked := .nil h
  distinct := by rwa [same]
  size := by rw [same]; rfl
  events := Nat.le_refl 0
  handled := rfl

variable [Backend β]

/-- A dispatch that succeeds is one event at most. -/
theorem dispatch_stretch {c : Completion} (distinct : l.connections.Distinct)
    (h : exec (dispatch c) l = (.ok (), m)) : ∃ es, Stretch [(c, l)] es 0 l m := by
  obtain ⟨buffer, line, fate, taken, booked⟩ := dispatch_booked h
  obtain ⟨rows, size⟩ := size_plan (l := { l with ring := (grasp c l.ring).2 }) c buffer line fate
    distinct
  obtain ⟨-, -, events, handled⟩ :=
    sum_booking (l := { l with ring := (grasp c l.ring).2 }) c buffer line fate
  have table : m.connections =
      (plan c buffer { l with ring := (grasp c l.ring).2 }).foldl (Deed.onTable l.peerOf)
        l.connections := by
    by_cases hw : c.tag.opcode? = some .writeFixed
    · obtain ⟨pool, idle⟩ := idle_released hw h
      have empty : plan c buffer { l with ring := (grasp c l.ring).2 } = [] := by
        simp [plan, hw]
      rw [empty]
      exact idle.connections
    · rcases dispatch_performs hw l with ⟨e, -, he⟩ | ⟨other, same, performed⟩
      · rw [he] at h
        cases h
      · rw [taken] at same
        cases same
        rw [h] at performed
        exact performed.connections
  refine ⟨_, booked.still_left (still_of_eq rfl rfl rfl rfl rfl), ?_, ?_, ?_, handled⟩
  · rw [table]
    exact rows
  · rw [table, List.countP_singleton]
    exact size
  · exact events

theorem batch_stretch {batch : List Completion} (distinct : l.connections.Distinct)
    (h : exec (batch.forM dispatch) l = (.ok (), m)) :
    ∃ es, Stretch (visits batch l) es 0 l m := by
  induction batch generalizing l with
  | nil =>
    cases h
    exact ⟨[], .still distinct (still_of_eq rfl rfl rfl rfl rfl) rfl⟩
  | cons c batch ih =>
    obtain ⟨_, k, dispatched, h⟩ := exec_bind_eq_ok (q := fun _ => batch.forM dispatch) h
    obtain ⟨es, first⟩ := dispatch_stretch distinct dispatched
    obtain ⟨fs, rest⟩ := ih first.distinct h
    rw [visits, dispatched]
    exact ⟨es ++ fs, first.trans rest⟩

omit [BufferSource ρ] in
/-- What a turn does at its end counts the batch. -/
theorem conclude_stretch {batch : List Completion} (distinct : l.connections.Distinct)
    (h : exec (conclude batch) l = (.ok i, m)) :
    Stretch [] [.turned batch.length] batch.length l m := by
  obtain ⟨_, k, flushed, h⟩ := exec_bind_eq_ok h
  obtain ⟨_, _, counted, h⟩ := exec_bind_eq_ok h
  have submitted := (meanwhile_flush l).to_exec flushed
  have moved := Shifts.still_left submitted.still (shifts_count counted)
  cases counted
  cases h
  refine ⟨.single (.turned batch.length) moved rfl trivial, ?_, ?_, ?_, rfl⟩
  · show k.connections.Distinct
    rwa [submitted.connections]
  · show k.connections.size + _ + _ = _
    rw [submitted.connections]
    simp
  · simp

theorem turn_stretch {batch : List Completion} (distinct : l.connections.Distinct)
    (hc : exec collect l = (.ok batch, k)) (h : exec turn l = (.ok i, m)) :
    ∃ es, Stretch (visits batch k) es batch.length l m := by
  have collected := (meanwhile_collect l).to_exec hc
  rw [turn_eq, exec_bind_ok hc] at h
  obtain ⟨_, n, dispatched, concluded⟩ := exec_bind_eq_ok h
  obtain ⟨es, first⟩ := (batch_stretch (by rwa [collected.connections]) dispatched)
  have last := conclude_stretch first.distinct concluded
  have still := Stretch.still distinct collected.still collected.connections
  have all := (still.trans first).trans last
  exact ⟨_, by simpa using all⟩

omit [BufferSource ρ] in
theorem listen_stretch (fd : Descriptor) (distinct : l.connections.Distinct) :
    Stretch [] [] 0 l (exec (listen fd) l).2 := by
  obtain ⟨still, same⟩ := still_listen fd l
  exact .still distinct still same

theorem Ran.stretch {start : Watched β ρ σ} (h : Ran start trail l)
    (distinct : start.connections.Distinct) : ∃ es, Stretch trail es trail.length start l := by
  induction h with
  | start => exact ⟨[], .still distinct (still_of_eq rfl rfl rfl rfl rfl) rfl⟩
  | listen fd _ ih =>
    obtain ⟨es, before⟩ := ih
    exact ⟨_, by simpa using before.trans (listen_stretch fd before.distinct)⟩
  | @turn trail l batch k n m _ collected turned ih =>
    obtain ⟨es, before⟩ := ih
    obtain ⟨fs, turn⟩ := turn_stretch before.distinct collected turned
    refine ⟨es ++ fs, ?_⟩
    rw [List.length_append, length_visits]
    exact before.trans turn
  | meanwhile _ same ih =>
    obtain ⟨es, before⟩ := ih
    have idle := Stretch.still before.distinct same.still same.connections
    exact ⟨_, by simpa using before.trans idle⟩

end

/-! ## The balance -/

/-- The answers of a handler that keeps its calls are those without that. -/
theorem answers_recording (handler : Handler σ) (s : σ × List Call) (cs : List Call) :
    handler.recording.answers s cs = handler.answers s.1 cs := by
  induction cs generalizing s with
  | nil => rfl
  | cons c cs ih => exact congrArg (_ :: ·) (ih _)

theorem stateAfter_recording (handler : Handler σ) (s : σ × List Call) (cs : List Call) :
    stateAfter handler.recording s cs = (stateAfter handler s.1 cs, s.2 ++ cs) := by
  induction cs generalizing s with
  | nil => simp [stateAfter]
  | cons c cs ih =>
    refine (ih _).trans ?_
    simp [stateAfter, Handler.recording]

theorem counted_of_new {backend : β} {pool : SlotPool} {rings : List ρ}
    {handler : Handler σ} {state : σ} {settings : Settings} {l : EventLoop β ρ σ}
    (h : EventLoop.new backend pool rings handler state settings = .ok l) :
    l.counters = .zero ∧ l.accessLog = settings.accessLog := by
  rw [(eq_of_new h).2.2]
  exact ⟨rfl, rfl⟩

/-- The counters of a loop agree with each other and with what was done. -/
structure Balances (handler : Handler σ) (state : σ) (kept : Bool)
    (trail : List (Completion × Watched β ρ σ)) (l : Watched β ρ σ) : Prop where
  completions : l.counters.completions.toNat = trail.length
  messages : l.counters.messages.toNat = l.handlerState.2.length
  bytesIn : l.counters.bytesIn.toNat = (l.handlerState.2.map (·.2.length)).sum
  /-- What was accepted has been closed, is still there, or was there when it was accepted again. -/
  accepts : l.counters.accepts.toNat = l.counters.closes.toNat + l.connections.size +
    trail.countP fun visit => reclaims visit.1 visit.2
  lines : l.counters.logLines.toNat + l.counters.logDropped.toNat =
    if kept then l.counters.accepts.toNat + l.counters.messages.toNat + l.counters.closes.toNat
    else 0
  replies : l.counters.replies.toNat + l.counters.repliesDropped.toNat =
    (handler.answers state l.handlerState.2).countP (·.isFixed) +
      (handler.answers state l.handlerState.2).countP (·.isCopied)
  /-- Only copied answers are cut, and no fixed one is dropped. -/
  truncated : l.counters.repliesTruncated.toNat +
    (handler.answers state l.handlerState.2).countP (·.isFixed) ≤ l.counters.replies.toNat
  /-- The fixed writes are the lines that were not dropped and the copied ones of the replies. -/
  writes : l.backend.pushed.countP (·.slot?.isSome) +
      (handler.answers state l.handlerState.2).countP (·.isFixed) =
    l.counters.logLines.toNat + l.counters.replies.toNat

theorem count_slots (ps : List Submission) :
    ps.countP (·.slot?.isSome) = (ps.filterMap (·.outlet?)).count .slot := by
  rw [List.count, List.countP_filterMap]
  refine List.countP_congr fun ⟨tag, operation⟩ _ => ?_
  cases operation <;> exact Iff.rfl

theorem countP_answers_of_forall {handler : Handler σ} {kind : Reply → Bool} {b : Bool}
    (h : ∀ s fd payload, kind (handler.respond s fd payload).1 = b) (s : σ) (cs : List Call) :
    (handler.answers s cs).countP kind = if b then cs.length else 0 := by
  induction cs generalizing s with
  | nil => cases b <;> rfl
  | cons c cs ih =>
    rw [Handler.answers, List.countP_cons, h, ih]
    cases b <;> rfl

omit [BufferSource ρ] in
theorem Stretch.balances {handler : Handler σ} {state : σ} {kept : Bool} {start : Watched β ρ σ}
    {trail : List (Completion × Watched β ρ σ)} {es : List Entry}
    (h : Stretch trail es trail.length start l) (hc : start.counters = .zero)
    (hb : start.backend.pushed = []) (hh : start.handler = handler.recording)
    (hs : start.handlerState = (state, [])) (ht : start.connections = .empty)
    (hl : start.accessLog = kept) (few : trail.length < UInt64.size)
    (short : (l.handlerState.2.map (·.2.length)).sum < UInt64.size) :
    Balances handler state kept trail l := by
  have calls : l.handlerState.2 = es.filterMap (·.call?) := by
    rw [h.state, hh, hs, stateAfter_recording]
    rfl
  have answers : es.filterMap (·.reply?) = handler.answers state l.handlerState.2 := by
    rw [h.replies, hh, hs, answers_recording, calls]
  have pushed : l.backend.pushed.countP (·.slot?.isSome) =
      (es.map fun e => e.outlets.count .slot).sum := by
    rw [count_slots, h.outlets, hb, List.filterMap_nil, List.nil_append, List.count_flatMap]
    rfl
  have counters : l.counters = es.foldl Entry.count .zero := by rw [h.counters, hc]
  have fits : ∀ e ∈ es, e.Fits kept := by rw [← hl]; exact h.fits
  have lines := Entry.sum_lines fits
  obtain ⟨replied, cut, sent⟩ := Entry.sum_replies fits
  have events := h.events
  have size := h.size
  rw [ht] at size
  have bytes : (es.map Entry.bytes).sum = (l.handlerState.2.map (·.2.length)).sum := by
    rw [calls, Entry.sum_bytes]
  have answered := Entry.sum_answers es
  -- No counter has passed its bound, for none counts more than the dispatches and the bytes.
  have shared : ∀ f : Counters → UInt64, (es.map (Entry.share f)).sum ≤ trail.length →
      (∀ m n, f (m.plus n) = f m + f n) → f .zero = 0 →
      (f l.counters).toNat = (es.map (Entry.share f)).sum := by
    intro f hf add zero
    rw [counters]
    exact Entry.toNat_shared (by omega) add zero
  have written : (es.map (Entry.share (·.logLines))).sum +
      (es.map (Entry.share (·.logDropped))).sum ≤ trail.length := by
    rw [lines]
    split <;> omega
  have accepts := shared (·.accepts) (by omega) (fun _ _ => rfl) rfl
  have closes := shared (·.closes) (by omega) (fun _ _ => rfl) rfl
  have messages := shared (·.messages) (by omega) (fun _ _ => rfl) rfl
  have logLines := shared (·.logLines) (by omega) (fun _ _ => rfl) rfl
  have logDropped := shared (·.logDropped) (by omega) (fun _ _ => rfl) rfl
  have replies := shared (·.replies) (by omega) (fun _ _ => rfl) rfl
  have repliesDropped := shared (·.repliesDropped) (by omega) (fun _ _ => rfl) rfl
  have repliesTruncated := shared (·.repliesTruncated) (by omega) (fun _ _ => rfl) rfl
  refine ⟨?_, ?_, ?_, ?_, ?_, ?_, ?_, ?_⟩
  · rw [counters, Entry.toNat_counted (w := Entry.handled) (by rw [h.handled]; exact few)
      (fun _ _ => rfl) Entry.ofNat_handled rfl, h.handled]
  · rw [messages, Entry.sum_messages, calls]
  · rw [counters, Entry.toNat_counted (w := Entry.bytes) (by rw [bytes]; exact short)
      (fun _ _ => rfl) Entry.ofNat_bytes rfl, bytes]
  · have none : ConnectionTable.empty.size = 0 := rfl
    rw [accepts, closes]
    omega
  · rw [logLines, logDropped, accepts, messages, closes, lines]
  · rw [replies, repliesDropped, ← answers, Entry.countP_answers, Entry.countP_answers, replied]
  · rw [repliesTruncated, replies, ← answers, Entry.countP_answers]
    exact cut
  · rw [pushed, logLines, replies, ← answers, Entry.countP_answers, sent]

namespace Balances

variable {handler : Handler σ} {state : σ} {kept : Bool} {l : Watched β ρ σ}
  {trail : List (Completion × Watched β ρ σ)}

omit [BufferSource ρ] in
/-- With a handler that always copies, every message was answered or its answer dropped. -/
theorem of_copying (h : Balances handler state kept trail l)
    (copies : ∀ s fd payload, (handler.respond s fd payload).1.isCopied = true) :
    l.counters.messages.toNat = l.counters.replies.toNat + l.counters.repliesDropped.toNat ∧
      l.counters.repliesTruncated.toNat ≤ l.counters.replies.toNat := by
  have unfixed : ∀ s fd payload, (handler.respond s fd payload).1.isFixed = false :=
    fun s fd payload => Reply.isFixed_of_isCopied (copies s fd payload)
  have messages := h.messages
  have replies := h.replies
  have truncated := h.truncated
  rw [countP_answers_of_forall unfixed, countP_answers_of_forall copies] at replies
  rw [countP_answers_of_forall unfixed] at truncated
  simp only [if_true, Bool.false_eq_true, if_false] at replies truncated
  omega

omit [BufferSource ρ] in
/-- With a handler that always answers with fixed bytes, every message was answered. -/
theorem of_fixing (h : Balances handler state kept trail l)
    (fixes : ∀ s fd payload, (handler.respond s fd payload).1.isFixed = true) :
    l.counters.messages.toNat = l.counters.replies.toNat ∧
      l.counters.repliesDropped.toNat = 0 := by
  have uncopied : ∀ s fd payload, (handler.respond s fd payload).1.isCopied = false :=
    fun s fd payload => Reply.isCopied_of_isFixed (fixes s fd payload)
  have messages := h.messages
  have replies := h.replies
  have truncated := h.truncated
  rw [countP_answers_of_forall fixes, countP_answers_of_forall uncopied] at replies
  rw [countP_answers_of_forall fixes] at truncated
  simp only [if_true, Bool.false_eq_true, if_false] at replies truncated
  omega

omit [BufferSource ρ] in
theorem of_silent (h : Balances handler state kept trail l)
    (silent : ∀ s fd payload, (handler.respond s fd payload).1 = .nothing) :
    l.counters.replies.toNat = 0 ∧ l.counters.repliesDropped.toNat = 0 ∧
      l.counters.repliesTruncated.toNat = 0 := by
  have unfixed : ∀ s fd payload, (handler.respond s fd payload).1.isFixed = false :=
    fun s fd payload => congrArg Reply.isFixed (silent s fd payload)
  have uncopied : ∀ s fd payload, (handler.respond s fd payload).1.isCopied = false :=
    fun s fd payload => congrArg Reply.isCopied (silent s fd payload)
  have replies := h.replies
  have truncated := h.truncated
  rw [countP_answers_of_forall unfixed, countP_answers_of_forall uncopied] at replies
  rw [countP_answers_of_forall unfixed] at truncated
  simp only [Bool.false_eq_true, if_false] at replies truncated
  omega

end Balances

/-- On a new loop, along every run of listening and of turns that succeed, and short of an overflow,
the counters balance. What they say of the replies is then settled for a handler that always
copies, for one that always answers with fixed bytes, and for one that never answers. -/
theorem counters_balance [Backend β] {backend : β} {pool : SlotPool} {rings : List ρ}
    {handler : Handler σ} {state : σ} {settings : Settings} {start l : Watched β ρ σ}
    {trail : List (Completion × Watched β ρ σ)}
    (hn : EventLoop.new (.of backend) pool rings handler.recording (state, []) settings = .ok start)
    (ran : Ran start trail l) (few : trail.length < UInt64.size)
    (short : (l.handlerState.2.map (·.2.length)).sum < UInt64.size) :
    Balances handler state settings.accessLog trail l ∧
    ((∀ s fd payload, (handler.respond s fd payload).1.isCopied = true) →
      l.counters.messages.toNat = l.counters.replies.toNat + l.counters.repliesDropped.toNat ∧
      l.counters.repliesTruncated.toNat ≤ l.counters.replies.toNat) ∧
    ((∀ s fd payload, (handler.respond s fd payload).1.isFixed = true) →
      l.counters.messages.toNat = l.counters.replies.toNat ∧
      l.counters.repliesDropped.toNat = 0) ∧
    ((∀ s fd payload, (handler.respond s fd payload).1 = .nothing) →
      l.counters.replies.toNat = 0 ∧ l.counters.repliesDropped.toNat = 0 ∧
      l.counters.repliesTruncated.toNat = 0) := by
  obtain ⟨hb, -, hh, hs, ht⟩ := new_eq_ok hn
  obtain ⟨hc, hl⟩ := counted_of_new hn
  have distinct : start.connections.Distinct := by
    rw [ht]
    exact List.nodup_nil
  obtain ⟨es, stretch⟩ := ran.stretch distinct
  have balances := stretch.balances hc (by rw [hb]; rfl) hh hs ht hl few short
  exact ⟨balances, balances.of_copying, balances.of_fixing, balances.of_silent⟩

/-- The kernel has worked on the buffers, and the completions are ready to be taken. -/
def arriving (batch : List Completion) (ring : BufferQueue)
    (l : Watched Recorder BufferQueue Unit) : Watched Recorder BufferQueue Unit :=
  { ready batch l with ring }

theorem meanwhile_arriving (batch : List Completion) (ring : BufferQueue)
    (l : Watched Recorder BufferQueue Unit) : Meanwhile l (arriving batch ring l) :=
  ⟨rfl, rfl, rfl, rfl, rfl, rfl⟩

/-- Descriptor 5 has been accepted, with a line in one of the two slots. A message has come, and the
descriptor has been accepted once more. -/
def beforeDrop : Watched Recorder BufferQueue Unit :=
  arriving [greeting.1, .accepted 3 5 true] greeting.2
    (exec turn (ready [.accepted 3 5 true] echoing)).2

/-- The line for the message has taken the other slot, so the answer was dropped. -/
def afterDrop : Watched Recorder BufferQueue Unit := (exec turn beforeDrop).2

theorem counters_balance_after_drop : ∃ trail, Ran echoing trail afterDrop ∧
    Balances (ReplyMode.handler .echo) () true trail afterDrop ∧
    afterDrop.counters.accepts = 2 ∧ afterDrop.connections.size = 1 ∧
    trail.countP (fun visit => reclaims visit.1 visit.2) = 1 ∧
    afterDrop.counters.messages = 1 ∧ afterDrop.counters.repliesDropped = 1 := by
  have accepting : Ran echoing [] (ready [.accepted 3 5 true] echoing) :=
    Ran.start.meanwhile ⟨rfl, rfl, rfl, rfl, rfl, rfl⟩
  have collected : exec collect (ready [.accepted 3 5 true] echoing) =
    (.ok [.accepted 3 5 true], _) := rfl
  have accepted := accepting.turned collected (n := 1) (by decide +kernel)
  have arrived : Ran echoing _ beforeDrop := accepted.meanwhile (meanwhile_arriving _ _ _)
  have taken : exec collect beforeDrop = (.ok [greeting.1, .accepted 3 5 true], _) := rfl
  have ran : Ran echoing _ afterDrop := arrived.turned taken (n := 2) (by decide +kernel)
  obtain ⟨balances, -⟩ := counters_balance new_echoing ran (by decide) (by decide +kernel)
  refine ⟨_, ran, balances, ?_, ?_, ?_, ?_, ?_⟩ <;> decide +kernel

end EventLoop

end RingServer
