import RingServer.BufferSource

/-!
Envelope of a received message. Four 32-bit words, lowest byte first, stand before the payload:
length of the sender's name, length of control data, length of the payload, flags. Neither a name
nor control data is asked for, so the payload follows the words directly.
-/
namespace RingServer

open Text (Bytes)

structure Envelope where
  payload : Bytes
  truncated : Bool
  deriving DecidableEq, Repr

namespace Envelope

def headerSize : Nat := 16

/-- Flag of a message of which a part did not fit. -/
def truncatedFlag : Nat := 0x20

/-- The header of a message of `length` bytes. -/
def header (length : Nat) (truncated : Bool) : Bytes :=
  littleEndian 4 0 ++ littleEndian 4 0 ++ littleEndian 4 length ++
    littleEndian 4 (if truncated then truncatedFlag else 0)

/-- Reads a received buffer; `none` if it is shorter than the header. -/
def parse? (bytes : Bytes) : Option Envelope :=
  if bytes.length < headerSize then none
  else some
    { payload := (bytes.drop headerSize).take (ofLittleEndian ((bytes.drop 8).take 4))
      truncated := ofLittleEndian ((bytes.drop 12).take 4) &&& truncatedFlag ≠ 0 }

end Envelope

namespace KernelSide

variable {ρ : Type} [BufferSource ρ] [KernelSide ρ]

/-- What a receive on `fd` into buffer `id` reports. -/
def completion (fd : Descriptor) (id : UInt16) (result : Int32) (more : Bool) : Completion :=
  ⟨Tag.onDescriptor fd .receive, result, Completion.flagsOf id more⟩

/-- The kernel receives a message into the next buffer and reports it; `none` if no buffer waits. -/
def receive (fd : Descriptor) (payload : Bytes) (truncated more : Bool) (r : ρ) :
    Option (Completion × ρ) := do
  let (id, r) ← select r
  let kept := payload.take (BufferSource.entrySize r - Envelope.headerSize)
  let cut := truncated || kept.length < payload.length
  return (completion fd id (Int32.ofNat (Envelope.headerSize + kept.length)) more,
    fill id (Envelope.header payload.length cut ++ kept) r)

/-- The kernel puts arbitrary bytes into the next buffer and reports any result. -/
def receiveRaw (fd : Descriptor) (bytes : Bytes) (result : Int32) (more : Bool) (r : ρ) :
    Option (Completion × ρ) := do
  let (id, r) ← select r
  return (completion fd id result more, fill id bytes r)

end KernelSide

end RingServer
