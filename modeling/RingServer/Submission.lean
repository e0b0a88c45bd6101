import RingServer.SlotPool
import RingServer.Tag

/-!
Submissions: an operation for the kernel and the tag that its completions bring back. A fixed write
names the memory that it sends from instead of carrying bytes.
-/
namespace RingServer

open Text (Bytes)

inductive Operation
  /-- Accepts connections until it ends, one completion for each. -/
  | accept (fd : Descriptor)
  /-- Receives into buffers of a group until it ends, one completion for each message. -/
  | receive (fd : Descriptor) (group : UInt16)
  | send (fd : Descriptor) (bytes : Bytes)
  | write (fd : Descriptor) (bytes : Bytes)
  | writeFixed (fd : Descriptor) (loan : Loan)
  | shutdown (fd : Descriptor)
  | close (fd : Descriptor)
  deriving DecidableEq, Repr

def Operation.descriptor : Operation → Descriptor
  | accept fd | receive fd _ | send fd _ | write fd _ | writeFixed fd _ | shutdown fd | close fd => fd

/-- A send of bytes from where they are. The length of it is a word of 32 bits, so that of more
bytes than such a word can count only a part is sent. -/
def Operation.sending (fd : Descriptor) (bytes : Bytes) : Operation :=
  .send fd (bytes.take (UInt32.ofNat bytes.length).toNat)

theorem Operation.sending_eq_send_iff {fd : Descriptor} {bytes : Bytes} :
    sending fd bytes = .send fd bytes ↔ bytes.length < UInt32.size := by
  have word : (UInt32.ofNat bytes.length).toNat = bytes.length % UInt32.size :=
    UInt32.toNat_ofNat'
  rw [sending, send.injEq, word]
  constructor
  · rintro ⟨-, whole⟩
    have below := Nat.mod_lt bytes.length (by decide : 0 < UInt32.size)
    have kept := congrArg List.length whole
    rw [List.length_take] at kept
    omega
  · intro fits
    exact ⟨rfl, List.take_of_length_le (Nat.le_of_eq (Nat.mod_eq_of_lt fits).symm)⟩

structure Submission where
  tag : Tag
  operation : Operation
  deriving DecidableEq, Repr

/-- The bytes that a submission sends, read from `memory` where it names a slot. -/
def Submission.bytes (memory : Memory) (s : Submission) : Bytes :=
  match s.operation with
  | .send _ bytes | .write _ bytes => bytes
  | .writeFixed _ loan => memory.read loan.offset loan.length.toNat
  | _ => []

end RingServer
