import RingServer.PoolUser
import RingServer.Proofs.Requests
import RingServer.Proofs.SlotPool
import Mathlib.Data.List.Find

/-!
A slot pool against the record of what its users have seen. The record lists, the latest first,
which slots were handed out, written to, lent and given back (`SlotEvent`), and nothing else. It
says which slots are lent (`loans`), in which order free slots are handed out (`inTurn`) and what
is in each of them (`contents`), and the pool answers accordingly, provided that every handle is
used up once. `Recorded` ties the two together; each request keeps it.
-/

namespace RingServer

open Text (Bytes)
open Requests (serve Allowed)

/-- What is asked of a pool: by the application, and by the kernel when it is done with a slot. -/
inductive PoolRequest
  | acquire
  | write (index : UInt16) (place : Nat) (bytes : Bytes)
  | lend (index : UInt16) (length : Nat)
  | reclaim (index : UInt16)
  | release (index : UInt16)

/-- What comes of a request: perhaps a slot, a loan with the bytes that it covers, or nothing. -/
inductive PoolAnswer
  | slot (slot : Option Slot)
  | loan (loan : Except Fault (Loan × Bytes))
  | done (outcome : Except Fault Unit)
  deriving DecidableEq

/-- What has happened to a slot. -/
inductive SlotEvent
  | acquired (index : UInt16)
  | wrote (index : UInt16) (place : Nat) (bytes : Bytes)
  | lent (loan : Loan) (bytes : Bytes)
  | returned (index : UInt16)
  deriving DecidableEq

namespace SlotEvent

/-- What a request with its answer tells. -/
def of? : PoolRequest → PoolAnswer → Option SlotEvent
  | .acquire, .slot (some s) => some (.acquired s.index)
  | .write i place bytes, .done (.ok ()) => some (.wrote i place bytes)
  | .lend _ _, .loan (.ok (loan, bytes)) => some (.lent loan bytes)
  | .reclaim i, .done (.ok ()) | .release i, .done (.ok ()) => some (.returned i)
  | _, _ => none

/-- What requests with their answers tell, the latest first. -/
def history : List PoolRequest → List PoolAnswer → List SlotEvent
  | r :: requests, a :: answers => history requests answers ++ (of? r a).toList
  | _, _ => []

/-- The loans that no return has followed, each with the bytes that it covered. -/
def loans : List SlotEvent → List (Loan × Bytes)
  | [] => []
  | .lent loan bytes :: before => (loan, bytes) :: loans before
  | .returned i :: before => (loans before).filter (·.1.index ≠ i)
  | .acquired _ :: before | .wrote .. :: before => loans before

/-- The slots that were given back, the latest first. -/
def givenBack : List SlotEvent → List UInt16
  | [] => []
  | .returned i :: before => i :: givenBack before
  | .acquired _ :: before | .wrote .. :: before | .lent .. :: before => givenBack before

/-- Slots in the order in which they will be handed out, if those are free that `free` says: first
the one that was given back last, and those that were never handed out at the end, from the highest
down. Only the first mention of a slot counts. -/
def inTurn (slots : Nat) (free : UInt16 → Bool) (events : List SlotEvent) : List UInt16 :=
  (givenBack events).filter free ++
    ((List.range slots).reverse.map UInt16.ofNat).filter (.acquired · ∉ events)

/-- The byte that was last written at a place of a slot. -/
def byteAt (i : UInt16) (place : Nat) : List SlotEvent → UInt8
  | [] => 0
  | .wrote j start bytes :: before =>
    if j = i ∧ start ≤ place then bytes[place - start]?.getD (byteAt i place before)
    else byteAt i place before
  | .acquired _ :: before | .lent .. :: before | .returned _ :: before => byteAt i place before

def contents (size : Nat) (i : UInt16) (events : List SlotEvent) : Bytes :=
  (List.range size).map fun place => byteAt i place events

end SlotEvent

open SlotEvent

namespace PoolUser

def perform : PoolRequest → PoolUser → PoolAnswer × PoolUser
  | .acquire, u => (.slot u.acquire.1, u.acquire.2)
  | .write i place bytes, u => (.done (.ok ()), (u.write? i place bytes).getD u)
  | .lend i length, u =>
    (.loan ((u.lend i length).1.map fun loan => (loan, u.pool.lent loan)), (u.lend i length).2)
  | .reclaim i, u => (.done (.ok ()), (u.reclaim? i).getD u)
  | .release i, u => (.done (u.release i).1, (u.release i).2)

/-- Writing, lending and reclaiming take a handle. -/
def HasHandle : PoolRequest → PoolUser → Prop
  | .write i _ _, u | .lend i _, u | .reclaim i, u => u.holds i = true
  | .acquire, _ | .release _, _ => True

instance : ∀ r u, Decidable (HasHandle r u)
  | .write .., _ | .lend .., _ | .reclaim _, _ => inferInstanceAs (Decidable (_ = true))
  | .acquire, _ | .release _, _ => inferInstanceAs (Decidable True)

/-- The user's handles, the owners of the slots and the bytes in them are those of the record. -/
structure Recorded (n size : Nat) (events : List SlotEvent) (u : PoolUser) : Prop where
  capacity : u.pool.capacity = n
  entrySize : u.pool.entrySize = size
  nodup : u.slots.Nodup
  app_iff : ∀ i, ⟨i⟩ ∈ u.slots ↔ u.pool.owner? i = some .app
  kernel_iff : ∀ i, (∃ x ∈ loans events, x.1.index = i) ↔ u.pool.owner? i = some .kernel
  /-- The free slots come in turn: whichever are asked for, the first of them is the same. -/
  stacked : ∃ stack, u.pool.free.IsStack stack ∧
    ∀ p, stack.find? p = (inTurn n (u.pool.owner? · = some .free) events).find? p
  bytes : ∀ i place, place < size →
    u.pool.memory.get (i.toNat * size + place) = byteAt i place events
  loan : ∀ x ∈ loans events, x.1.offset = x.1.index.toNat * size ∧ x.1.length.toNat ≤ size ∧
    x.2 = (contents size x.1.index events).take x.1.length.toNat

variable {n size : Nat} {events : List SlotEvent} {u : PoolUser} {i : UInt16}

theorem holds_iff : u.holds i = true ↔ ⟨i⟩ ∈ u.slots := decide_eq_true_iff

theorem find?_inTurn (free p : UInt16 → Bool) :
    (inTurn n free events).find? p = ((givenBack events).find? fun i => free i && p i).or
      (((List.range n).reverse.map UInt16.ofNat).find? fun i => .acquired i ∉ events && p i) := by
  rw [inTurn, List.find?_append, List.find?_filter, List.find?_filter]
  simp only [Bool.decide_and, Bool.decide_eq_true, decide_not]

/-- Only handing out and giving back change the turns. -/
theorem inTurn_wrote (free : UInt16 → Bool) (i : UInt16) (place : Nat) (bytes : Bytes) :
    inTurn n free (.wrote i place bytes :: events) = inTurn n free events := by
  simp [inTurn, givenBack]

theorem inTurn_lent (free : UInt16 → Bool) (loan : Loan) (bytes : Bytes) :
    inTurn n free (.lent loan bytes :: events) = inTurn n free events := by
  simp [inTurn, givenBack]

/-- What is read of a slot is what the record has for it. -/
theorem Recorded.read_eq (h : Recorded n size events u) (i : UInt16) {k : Nat} (hk : k ≤ size) :
    u.pool.memory.read (i.toNat * size) k = (contents size i events).take k := by
  rw [contents, ← List.map_take, List.take_range, Nat.min_eq_left hk]
  apply List.map_congr_left
  intro place hp
  exact h.bytes i place (Nat.lt_of_lt_of_le (List.mem_range.mp hp) hk)

theorem recorded_new {granted : Nat} {p : SlotPool} (h : SlotPool.new granted size n = .ok p) :
    Recorded n size [] (new p) := by
  obtain ⟨-, free, hf, rfl⟩ := SlotPool.exists_of_new h
  obtain ⟨-, -, hc, hs, ho⟩ := FreeList.new_eq_ok hf
  have unowned : ∀ i x, x ≠ .free → free.owner? i ≠ some x := by
    intro i x hx
    rw [ho i]
    split
    · simpa using hx.symm
    · exact nofun
  refine ⟨hc, rfl, List.nodup_nil, fun i => ?_, fun i => ?_, ⟨_, hs, fun p => ?_⟩,
    fun _ _ _ => rfl, nofun⟩
  · exact ⟨nofun, fun e => absurd e (unowned i .app nofun)⟩
  · exact ⟨nofun, fun e => absurd e (unowned i .kernel nofun)⟩
  · simp [inTurn, givenBack]

/-! ## Handing out -/

theorem acquire_of_isStack_nil (h : u.pool.free.IsStack []) : u.acquire = (none, u) := by
  obtain ⟨⟨entrySize, memory, free⟩, slots⟩ := u
  simp only [acquire, SlotPool.acquire, FreeList.pop_of_isStack_nil h, Option.map_none]

theorem acquire_of_isStack_cons {below : List UInt16} (h : u.pool.free.IsStack (i :: below)) :
    ∃ g, u.acquire = (some ⟨i⟩, ⟨{ u.pool with free := g }, ⟨i⟩ :: u.slots⟩) ∧ g.IsStack below ∧
      g.capacity = u.pool.capacity ∧
      ∀ j, g.owner? j = if j = i then some .app else u.pool.owner? j := by
  obtain ⟨⟨entrySize, memory, free⟩, slots⟩ := u
  obtain ⟨g, e, hg⟩ := FreeList.pop_of_isStack_cons h
  refine ⟨g, ?_, hg⟩
  simp only [acquire, SlotPool.acquire, e, Option.map_some]

/-- With the slot on top taken away, the others stay in turn. -/
theorem find?_below {below : List UInt16} {owner owner' : UInt16 → Option SlotOwner}
    (hi : i ∉ below) (owners : ∀ j, owner' j = if j = i then some .app else owner j)
    (turn : ∀ p, (i :: below).find? p = (inTurn n (owner · = some .free) events).find? p)
    (p : UInt16 → Bool) :
    below.find? p = (inTurn n (owner' · = some .free) (.acquired i :: events)).find? p := by
  have skip : below.find? p = (i :: below).find? fun j => p j && j ≠ i := by
    rw [List.find?_cons_of_neg (by simp)]
    refine List.find?_congr fun j hj => ?_
    have hne : j ≠ i := fun e => hi (e ▸ hj)
    simp [hne]
  rw [skip, turn, find?_inTurn, find?_inTurn]
  have free : ∀ j, (decide (owner j = some .free) && (p j && decide (j ≠ i))) =
      (decide (owner' j = some .free) && p j) := by
    intro j
    rw [owners j]
    by_cases e : j = i
    · simp [e]
    · simp [e]
  have unused : ∀ j, (decide (.acquired j ∉ events) && (p j && decide (j ≠ i))) =
      (decide (.acquired j ∉ SlotEvent.acquired i :: events) && p j) := by
    intro j
    by_cases e : j = i
    · simp [e]
    · simp [e]
  simp only [free, unused]
  rfl

theorem Recorded.acquire (h : Recorded n size events u) :
    Recorded n size ((of? .acquire (perform .acquire u).1).toList ++ events)
      (perform .acquire u).2 := by
  obtain ⟨stack, hs, turn⟩ := h.stacked
  cases stack with
  | nil =>
    simp only [PoolUser.perform, acquire_of_isStack_nil hs]
    exact h
  | cons i below =>
    obtain ⟨g, e, hg, hcap, owners⟩ := acquire_of_isStack_cons hs
    have hfree : u.pool.owner? i = some .free := (hs.free_iff i).mpr List.mem_cons_self
    simp only [PoolUser.perform, e]
    refine ⟨hcap.trans h.capacity, h.entrySize, ?_, fun j => ?_, fun j => ?_, ⟨below, hg, ?_⟩,
      h.bytes, h.loan⟩
    · refine List.nodup_cons.mpr ⟨?_, h.nodup⟩
      rw [h.app_iff, hfree]
      exact nofun
    · rw [SlotPool.owner?, owners j, List.mem_cons, h.app_iff j]
      split
      next e => simp [e]
      next e => simp [e]
    · rw [SlotPool.owner?, owners j]
      split
      next e =>
        have hk := h.kernel_iff i
        rw [hfree] at hk
        exact (e ▸ hk).trans (by simp)
      next => exact h.kernel_iff j
    · exact find?_below (List.nodup_cons.mp hs.nodup).1 owners turn

/-! ## Writing -/

theorem write?_of_holds (hold : u.holds i = true) (place : Nat) (bytes : Bytes) :
    u.write? i place bytes = some { u with pool := u.pool.write ⟨i⟩ place bytes } := if_pos hold

/-- A write changes no byte outside its slot. -/
theorem get_write_outside (hsize : u.pool.entrySize = size) (start : Nat) (bytes : Bytes) {a : Nat}
    (ha : a < i.toNat * size ∨ (i.toNat + 1) * size ≤ a) :
    (u.pool.write ⟨i⟩ start bytes).memory.get a = u.pool.memory.get a := by
  have short : (bytes.take (size - start)).length ≤ size - start := List.length_take_le ..
  rw [Nat.succ_mul] at ha
  simp only [SlotPool.write, SlotPool.offset, hsize]
  by_cases hs : start < size
  · exact Memory.get_write_outside _ _ _ _ (by omega)
  · have none : bytes.take (size - start) = [] := by
      rw [Nat.sub_eq_zero_of_le (Nat.le_of_not_lt hs), List.take_zero]
    rw [none]
    rfl

/-- A write is seen in its own slot, at the places that it covers. -/
theorem get_write (hsize : u.pool.entrySize = size) (j : UInt16) {place : Nat}
    (hp : place < size) (start : Nat) (bytes : Bytes) :
    (u.pool.write ⟨i⟩ start bytes).memory.get (j.toNat * size + place) =
      if i = j ∧ start ≤ place then
        bytes[place - start]?.getD (u.pool.memory.get (j.toNat * size + place))
      else u.pool.memory.get (j.toNat * size + place) := by
  by_cases e : i = j
  · subst e
    simp only [SlotPool.write, SlotPool.offset, hsize]
    rw [Memory.get_write]
    by_cases hs : start ≤ place
    · have inside : place - start < size - start := by omega
      have shift : i.toNat * size + place - (i.toNat * size + start) = place - start := by omega
      rw [if_pos (by omega), if_pos ⟨trivial, hs⟩, shift, List.getElem?_take_of_lt inside]
    · rw [if_neg (by omega), if_neg (fun h => hs h.2)]
  · have apart := u.pool.offset_disjoint e
    rw [SlotPool.offset, SlotPool.offset, hsize] at apart
    rw [if_neg (fun h => e h.1)]
    refine get_write_outside hsize start bytes ?_
    rw [Nat.succ_mul]
    omega

theorem holds_of_write? {place : Nat} {bytes : Bytes} {v : PoolUser}
    (e : u.write? i place bytes = some v) : u.holds i = true := by
  by_contra hn
  rw [write?, if_neg hn] at e
  cases e

theorem Recorded.read?_of_holds (h : Recorded n size events u) (hold : u.holds i = true) :
    u.read? i = some (contents size i events) := by
  have all : (contents size i events).take size = contents size i events := by
    rw [contents, ← List.map_take, List.take_range, Nat.min_self]
  rw [read?, if_pos hold, SlotPool.read, SlotPool.offset, h.entrySize, h.read_eq i (Nat.le_refl _),
    all]

theorem Recorded.write (h : Recorded n size events u) (hold : u.holds i = true) (place : Nat)
    (bytes : Bytes) : Recorded n size (.wrote i place bytes :: events)
      { u with pool := u.pool.write ⟨i⟩ place bytes } := by
  have happ : u.pool.owner? i = some .app := (h.app_iff i).mp (holds_iff.mp hold)
  obtain ⟨stack, hs, turn⟩ := h.stacked
  refine ⟨h.capacity, h.entrySize, h.nodup, h.app_iff, h.kernel_iff, ⟨stack, hs, fun p => ?_⟩,
    fun j spot hj => ?_, fun x hx => ?_⟩
  · rw [inTurn_wrote]
    exact turn p
  · rw [get_write h.entrySize j hj, byteAt, h.bytes j spot hj]
  · -- a slot with a loan has another owner than the one that is written to
    have other : i ≠ x.1.index := by
      intro e
      have hk := (h.kernel_iff i).mp ⟨x, hx, e.symm⟩
      rw [happ] at hk
      cases hk
    have same : contents size x.1.index (.wrote i place bytes :: events) =
        contents size x.1.index events := by
      simp only [contents, byteAt, other, false_and, if_false]
    rw [same]
    exact h.loan x hx

/-! ## Lending -/

/-- The loan of the first bytes of a slot. -/
def loanOf (p : SlotPool) (i : UInt16) (length : Nat) : Loan :=
  ⟨i, p.offset i, UInt32.ofNat (min length p.entrySize)⟩

theorem lend_of_holds (h : Recorded n size events u) (hold : u.holds i = true) (length : Nat) :
    ∃ g, u.lend i length =
        (.ok (loanOf u.pool i length), ⟨{ u.pool with free := g }, u.slots.erase ⟨i⟩⟩) ∧
      (∀ stack, u.pool.free.IsStack stack → g.IsStack stack) ∧ g.capacity = u.pool.capacity ∧
      ∀ j, g.owner? j = if j = i then some .kernel else u.pool.owner? j := by
  have happ : u.pool.free.owner? i = some .app := (h.app_iff i).mp (holds_iff.mp hold)
  obtain ⟨stack, hs, -⟩ := h.stacked
  obtain ⟨g, e, hg, hcap, owners⟩ := FreeList.lend_of_isStack hs happ
  refine ⟨g, ?_, fun stack' hs' => ?_, hcap, owners⟩
  · have e' : u.pool.lend ⟨i⟩ length = .ok (loanOf u.pool i length, { u.pool with free := g }) := by
      rw [SlotPool.lend, e]
      rfl
    rw [PoolUser.lend, e']
  · obtain ⟨g', e', hg', -⟩ := FreeList.lend_of_isStack hs' happ
    cases e.symm.trans e'
    exact hg'

theorem Recorded.lend (h : Recorded n size events u) (hold : u.holds i = true) (length : Nat) :
    Recorded n size ((of? (.lend i length) (perform (.lend i length) u).1).toList ++ events)
      (perform (.lend i length) u).2 := by
  have happ : u.pool.owner? i = some .app := (h.app_iff i).mp (holds_iff.mp hold)
  obtain ⟨stack, hs, turn⟩ := h.stacked
  obtain ⟨g, e, hg, hcap, owners⟩ := lend_of_holds h hold length
  simp only [PoolUser.perform, e]
  refine ⟨hcap.trans h.capacity, h.entrySize, h.nodup.erase _, fun j => ?_, fun j => ?_,
    ⟨stack, hg stack hs, fun p => ?_⟩, h.bytes, List.forall_mem_cons.mpr ⟨?_, h.loan⟩⟩
  · rw [SlotPool.owner?, owners j, h.nodup.mem_erase_iff, h.app_iff j]
    split
    next e => simp [e]
    next e => simp [e]
  · rw [SlotPool.owner?, owners j]
    change (∃ x ∈ (loanOf u.pool i length, _) :: loans events, x.1.index = j) ↔ _
    rw [List.exists_mem_cons_iff]
    split
    next e => simp [e, loanOf]
    next e => exact (or_iff_right (Ne.symm e)).trans (h.kernel_iff j)
  · have free : ∀ j, (g.owner? j = some .free) = (u.pool.owner? j = some .free) := by
      intro j
      rw [owners j]
      split
      next e => simp [e, happ]
      next => rfl
    change _ = (inTurn n (g.owner? · = some .free) (.lent _ _ :: events)).find? p
    rw [inTurn_lent]
    simp only [free]
    exact turn p
  · have fits : (UInt32.ofNat (min length u.pool.entrySize)).toNat ≤ size := by
      rw [UInt32.toNat_ofNat', ← h.entrySize]
      exact Nat.le_trans (Nat.mod_le _ _) (Nat.min_le_right _ _)
    have offset : u.pool.offset i = i.toNat * size := by rw [SlotPool.offset, h.entrySize]
    refine ⟨offset, fits, ?_⟩
    change u.pool.memory.read (u.pool.offset i) _ = _
    rw [offset]
    exact h.read_eq i fits

/-! ## Giving back -/

/-- A slot that is given back is the first in turn. -/
theorem find?_returned {stack : List UInt16} {owner owner' : UInt16 → Option SlotOwner}
    (owners : ∀ j, owner' j = if j = i then some .free else owner j)
    (turn : ∀ p, stack.find? p = (inTurn n (owner · = some .free) events).find? p)
    (p : UInt16 → Bool) : (i :: stack).find? p =
      (inTurn n (owner' · = some .free) (.returned i :: events)).find? p := by
  have unused : ∀ j, (.acquired j ∉ SlotEvent.returned i :: events) = (.acquired j ∉ events) := by
    simp
  have hi : owner' i = some .free := by rw [owners i, if_pos rfl]
  rw [find?_inTurn, givenBack]
  by_cases hp : p i = true
  · rw [List.find?_cons_of_pos hp, List.find?_cons_of_pos (by simp [hi, hp])]
    rfl
  · have free : ∀ j, (decide (owner' j = some .free) && p j) =
        (decide (owner j = some .free) && p j) := by
      intro j
      rw [owners j]
      split
      next e => simp [e, hp]
      next => rfl
    rw [List.find?_cons_of_neg hp, List.find?_cons_of_neg (by simp [hp]), turn, find?_inTurn]
    simp only [unused, free]

/-- A slot of the application, or of the kernel, goes back. -/
theorem Recorded.giveBack (h : Recorded n size events u)
    (hi : u.pool.owner? i = some .app ∨ u.pool.owner? i = some .kernel) :
    ∃ g, u.pool.free.push i = .ok g ∧ g.owner? i = some .free ∧
      Recorded n size (.returned i :: events)
        ⟨{ u.pool with free := g }, u.slots.erase ⟨i⟩⟩ := by
  obtain ⟨stack, hs, turn⟩ := h.stacked
  obtain ⟨g, e, hg, hcap, owners⟩ := FreeList.push_of_isStack hs hi
  refine ⟨g, e, by rw [owners i, if_pos rfl], hcap.trans h.capacity, h.entrySize, h.nodup.erase _,
    fun j => ?_, fun j => ?_, ⟨i :: stack, hg, find?_returned owners turn⟩, h.bytes,
    fun x hx => ?_⟩
  · rw [SlotPool.owner?, owners j, h.nodup.mem_erase_iff, h.app_iff j]
    split
    next e => simp [e]
    next e => simp [e]; rfl
  · have hk := h.kernel_iff j
    rw [SlotPool.owner?, owners j]
    simp only [loans, List.mem_filter, decide_eq_true_eq]
    split
    next e => simp [e]
    next e =>
      refine Iff.trans (exists_congr fun x => ?_) hk
      constructor
      · rintro ⟨⟨hx, -⟩, hj⟩
        exact ⟨hx, hj⟩
      · rintro ⟨hx, rfl⟩
        exact ⟨⟨hx, e⟩, rfl⟩
  · exact h.loan x (List.mem_of_mem_filter hx)

theorem reclaim?_of_holds (h : Recorded n size events u) (hold : u.holds i = true) :
    ∃ v, u.reclaim? i = some v ∧ v.pool.owner? i = some .free ∧
      Recorded n size (.returned i :: events) v := by
  have happ : u.pool.owner? i = some .app := (h.app_iff i).mp (holds_iff.mp hold)
  obtain ⟨g, e, free, hv⟩ := h.giveBack (Or.inl happ)
  refine ⟨⟨{ u.pool with free := g }, u.slots.erase ⟨i⟩⟩, ?_, free, hv⟩
  rw [reclaim?, if_pos hold, SlotPool.reclaim, e]

theorem release_of_lent (h : Recorded n size events u)
    (hi : ∃ x ∈ loans events, x.1.index = i) :
    ∃ v, u.release i = (.ok (), v) ∧ v.pool.owner? i = some .free ∧
      Recorded n size (.returned i :: events) v := by
  have hk : u.pool.owner? i = some .kernel := (h.kernel_iff i).mp hi
  obtain ⟨g, e, free, hv⟩ := h.giveBack (Or.inr hk)
  have unheld : (⟨i⟩ : Slot) ∉ u.slots := by
    rw [h.app_iff, hk]
    exact nofun
  rw [List.erase_of_not_mem unheld] at hv
  refine ⟨⟨{ u.pool with free := g }, u.slots⟩, ?_, free, hv⟩
  have e' : u.pool.release i = .ok { u.pool with free := g } := by
    rw [SlotPool.release, hk, e]
    rfl
  rw [release, e']

theorem release_of_not_lent (h : Recorded n size events u)
    (hi : ¬∃ x ∈ loans events, x.1.index = i) :
    u.release i = (.error (.slotNotOutstanding i), u) := by
  have hk := mt (h.kernel_iff i).mpr hi
  have e : u.pool.release i = .error (.slotNotOutstanding i) := by
    unfold SlotPool.release
    split
    next e => exact absurd e hk
    next => rfl
  rw [release, e]

/-! ## Any number of requests -/

theorem Recorded.perform (h : Recorded n size events u) (r : PoolRequest) (hr : HasHandle r u) :
    Recorded n size ((of? r (PoolUser.perform r u).1).toList ++ events)
      (PoolUser.perform r u).2 := by
  cases r with
  | acquire => exact h.acquire
  | write i place bytes =>
    have e := write?_of_holds hr place bytes
    simp only [PoolUser.perform, e]
    exact h.write hr place bytes
  | lend i length => exact h.lend hr length
  | reclaim i =>
    obtain ⟨v, e, -, hv⟩ := reclaim?_of_holds h hr
    simp only [PoolUser.perform, e]
    exact hv
  | release i =>
    by_cases hi : ∃ x ∈ loans events, x.1.index = i
    · obtain ⟨v, e, -, hv⟩ := release_of_lent h hi
      simp only [PoolUser.perform, e]
      exact hv
    · simp only [PoolUser.perform, release_of_not_lent h hi]
      exact h

theorem Recorded.serve (h : Recorded n size events u) (requests : List PoolRequest)
    (ha : Allowed PoolUser.perform HasHandle requests u) :
    Recorded n size (history requests (Requests.serve PoolUser.perform requests u).1 ++ events)
      (Requests.serve PoolUser.perform requests u).2 := by
  induction requests generalizing events u with
  | nil => exact h
  | cons r rest ih =>
    obtain ⟨hr, hrest⟩ := ha
    have last := ih (h.perform r hr) hrest
    rw [← List.append_assoc] at last
    exact last

/-- The free slot whose turn it is. -/
theorem Recorded.acquire_eq (h : Recorded n size events u) : u.acquire.1 =
    (inTurn n (u.pool.owner? · = some .free) events).head?.map Slot.mk := by
  obtain ⟨stack, hs, turn⟩ := h.stacked
  have head : ∀ l : List UInt16, l.find? (fun _ => true) = l.head? := by
    intro l
    cases l <;> rfl
  have first := turn fun _ => true
  rw [head, head] at first
  rw [← first]
  cases stack with
  | nil => rw [acquire_of_isStack_nil hs]; rfl
  | cons i below =>
    obtain ⟨g, e, -⟩ := acquire_of_isStack_cons hs
    rw [e]
    rfl

/-- No slot is handed out exactly if each of them is outstanding. -/
theorem Recorded.acquire_eq_none_iff (h : Recorded n size events u) : u.acquire.1 = none ↔
    ∀ i : UInt16, i.toNat < n → u.pool.owner? i = some .app ∨ u.pool.owner? i = some .kernel := by
  obtain ⟨stack, hs, -⟩ := h.stacked
  have within : ∀ i : UInt16, u.pool.owner? i = none ↔ n ≤ i.toNat := by
    intro i
    rw [← h.capacity]
    exact hs.owner?_eq_none
  have empty : u.acquire.1 = none ↔ stack = [] := by
    cases stack with
    | nil => simp [acquire_of_isStack_nil hs]
    | cons i below =>
      obtain ⟨g, e, -⟩ := acquire_of_isStack_cons hs
      simp [e]
  rw [empty, List.eq_nil_iff_forall_not_mem]
  refine forall_congr' fun i => ?_
  have hf : u.pool.owner? i = some .free ↔ i ∈ stack := hs.free_iff i
  rw [← hf, ← Nat.not_le, ← within i]
  rcases u.pool.owner? i with _ | x
  · simp
  · cases x <;> simp

/-- Handles keep slots apart. Each handle is used up once, and is all that is needed: the live ones
are exactly the slots of the application, no two of them are the same, and lending or reclaiming
one succeeds. A release succeeds exactly for a slot that was lent and not given back since, and
otherwise changes nothing. No slot is handed out if all are outstanding, and otherwise the one that
was given back last of those that are free, or else the highest that was never handed out. A write
changes no byte outside its slot, so a slot holds what was last written at each of its places, and
a loan covers the bytes that it covered when it was made. -/
theorem handles_keep_slots_apart {granted : Nat} {pool : SlotPool}
    (hp : SlotPool.new granted size n = .ok pool) (requests : List PoolRequest)
    (ha : Allowed PoolUser.perform HasHandle requests (new pool)) :
    let run := serve PoolUser.perform requests (new pool)
    let u := run.2
    let events := history requests run.1
    (u.slots.Nodup ∧ ∀ i, ⟨i⟩ ∈ u.slots ↔ u.pool.owner? i = some .app) ∧
      (∀ i, u.holds i = true → (∃ v, u.reclaim? i = some v ∧ v.pool.owner? i = some .free) ∧
        ∀ length, ∃ loan v, u.lend i length = (.ok loan, v) ∧ loan.index = i ∧
          v.pool.owner? i = some .kernel) ∧
      (∀ i, if ∃ x ∈ loans events, x.1.index = i then
          ∃ v, u.release i = (.ok (), v) ∧ v.pool.owner? i = some .free
        else u.release i = (.error (.slotNotOutstanding i), u)) ∧
      (u.acquire.1 = none ↔ ∀ i : UInt16, i.toNat < n →
        u.pool.owner? i = some .app ∨ u.pool.owner? i = some .kernel) ∧
      u.acquire.1 = (inTurn n (u.pool.owner? · = some .free) events).head?.map Slot.mk ∧
      (∀ i place bytes v, u.write? i place bytes = some v →
        ∀ a, a < i.toNat * size ∨ (i.toNat + 1) * size ≤ a →
          v.pool.memory.get a = u.pool.memory.get a) ∧
      (∀ i, u.holds i = true → u.read? i = some (contents size i events)) ∧
      ∀ x ∈ loans events, u.pool.lent x.1 = x.2 ∧
        x.2 = (contents size x.1.index events).take x.1.length.toNat := by
  intro run u events
  have h : Recorded n size events u := by
    have last := (recorded_new hp).serve requests ha
    rwa [List.append_nil] at last
  refine ⟨⟨h.nodup, h.app_iff⟩, fun i hold => ⟨?_, fun length => ?_⟩, fun i => ?_,
    h.acquire_eq_none_iff, h.acquire_eq, fun i place bytes v e a ha => ?_, fun i hold => ?_,
    fun x hx => ?_⟩
  · obtain ⟨v, e, free, -⟩ := reclaim?_of_holds h hold
    exact ⟨v, e, free⟩
  · obtain ⟨g, e, -, -, owners⟩ := lend_of_holds h hold length
    exact ⟨_, _, e, rfl, (owners i).trans (if_pos rfl)⟩
  · split
    next hi =>
      obtain ⟨v, e, free, -⟩ := release_of_lent h hi
      exact ⟨v, e, free⟩
    next hi => exact release_of_not_lent h hi
  · cases (write?_of_holds (holds_of_write? e) place bytes).symm.trans e
    exact get_write_outside h.entrySize place bytes ha
  · exact h.read?_of_holds hold
  · obtain ⟨offset, fits, bytes⟩ := h.loan x hx
    refine ⟨?_, bytes⟩
    rw [SlotPool.lent, offset, h.read_eq x.1.index fits, bytes]

/-- Three slots of four bytes. Slot 2 is lent, comes back and is handed out again, with the bytes of
both of its holders in it. Slot 1 is reclaimed and so the next in turn, before slot 0, which was
never used. Slot 2 is in hand and cannot be released. -/
theorem handles_keep_slots_apart_after_release :
    let pool : SlotPool := ⟨4, .blank, ⟨#[65535, 0, 1], #[.free, .free, .free], 2, 3⟩⟩
    let requests := [.acquire, .acquire, .write 2 1 [7, 8], .lend 2 3, .release 2, .acquire,
      .write 2 2 [9], .reclaim 1]
    let u := (serve PoolUser.perform requests (new pool)).2
    SlotPool.new 12 4 3 = .ok pool ∧ Allowed PoolUser.perform HasHandle requests (new pool) ∧
      u.acquire.1 = some ⟨1⟩ ∧ u.read? 2 = some [0, 7, 9, 0] ∧
      u.release 2 = (.error (.slotNotOutstanding 2), u) := by
  intro pool requests u
  have hp : SlotPool.new 12 4 3 = .ok pool := by rfl
  have ha : Allowed PoolUser.perform HasHandle requests (new pool) := by decide +kernel
  obtain ⟨-, -, released, -, turn, -, reads, -⟩ := handles_keep_slots_apart hp requests ha
  refine ⟨hp, ha, turn.trans (by decide +kernel), (reads 2 (by decide +kernel)).trans ?_, ?_⟩
  · decide +kernel
  · have h := released 2
    rwa [if_neg (by decide +kernel)] at h

end PoolUser

end RingServer
