import RingServer.Tag

/-!
Completions: what the kernel reports for a submission. In the flags, bit 0 says that a buffer was
picked, whose number is in the upper half, and bit 1 that more completions of the same submission
will follow.
-/
namespace RingServer

structure Completion where
  tag : Tag
  result : Int32
  flags : UInt32
  deriving DecidableEq, Repr

namespace Completion

def bufferFlag : UInt32 := 1

def moreFlag : UInt32 := 2

/-- Number of the buffer that the kernel picked for this completion. -/
def bufferId? (c : Completion) : Option UInt16 :=
  if c.flags &&& bufferFlag ≠ 0 then some (c.flags >>> 16).toUInt16 else none

/-- Whether the submission stays armed. -/
def hasMore (c : Completion) : Bool := c.flags &&& moreFlag ≠ 0

/-- The flags of a completion that picked buffer `id`. -/
def flagsOf (id : UInt16) (more : Bool) : UInt32 :=
  bufferFlag ||| (id.toUInt32 <<< 16) ||| (if more then moreFlag else 0)

/-- What an accept on `listener` reports for a new descriptor. -/
def accepted (listener fd : Descriptor) (more : Bool) : Completion :=
  ⟨.onDescriptor listener .accept, fd, if more then moreFlag else 0⟩

end Completion

end RingServer
