import RingServer.Text.Quoted

/-!
What can go wrong, as causes. `Fault.message` is the only place that puts a cause into words.
-/
namespace RingServer

/-- Why a configuration is refused. -/
inductive ConfigFault
  | queueEntries (entries : UInt32)
  | backlog
  | poolEntries
  | poolEntrySize
  | ringEntries (group entries : UInt16)
  | ringEntrySize (group : UInt16)
  | groupTwice (group : UInt16)
  | ringText (text : String)
  | slotCount (slots : Nat)
  | slotSize
  | receiveEntrySize
  | other (reason : String)
  deriving DecidableEq, Repr

def ConfigFault.message : ConfigFault → String
  | .queueEntries n => s!"sq_entries {n} must be a power of two in 1..=32768"
  | .backlog => "backlog must be > 0"
  | .poolEntries => "pool_entries must be in 1..=65535"
  | .poolEntrySize => "pool_entry_size must be > 0"
  | .ringEntries group n => s!"buffer ring {group}: entries {n} must be a power of two in 1..=32768"
  | .ringEntrySize group => s!"buffer ring {group}: entry_size must be non-zero"
  | .groupTwice group => s!"buffer group {group} configured twice"
  | .ringText text => s!"buffer ring descriptor {Text.quote text}"
  | .slotCount n => s!"free list size {n} not in 1..=65535"
  | .slotSize => "pool entry_size must be non-zero"
  | .receiveEntrySize => "connection buffers must exceed the 16-byte recvmsg header"
  | .other reason => reason

/-- Which allocation failed, and whether its size or the system was the reason. -/
inductive AllocationFault
  | poolOverflow
  | poolLayout
  | pool
  | ringOverflow
  | ringLayout
  | ring
  | other (what : String)
  deriving DecidableEq, Repr

def AllocationFault.message : AllocationFault → String
  | .poolOverflow => "registered pool size overflow"
  | .poolLayout => "registered pool layout"
  | .pool => "registered pool"
  | .ringOverflow => "buffer ring size overflow"
  | .ringLayout => "buffer ring layout"
  | .ring => "buffer ring"
  | .other what => what

inductive Fault
  | queueSetup (errno : Int32)
  | submit (errno : Int32)
  | queueFull
  | registerBuffers (errno : Int32)
  | registerRing (group : UInt16) (errno : Int32)
  | allocation (cause : AllocationFault)
  | config (cause : ConfigFault)
  | socket (call : String) (errno : Int32)
  | unknownGroup (group : UInt16)
  | slotNotOutstanding (index : UInt16)
  | bufferNotInKernel (group id : UInt16)
  | system (errno : Int32)
  deriving DecidableEq, Repr

namespace Fault

def message : Fault → String
  | queueSetup e => s!"io_uring setup: errno {e}"
  | submit e => s!"io_uring submit: errno {e}"
  | queueFull => "submission queue full"
  | registerBuffers e => s!"register buffers: errno {e}"
  | registerRing group e => s!"register buffer ring (bgid {group}): errno {e}"
  | allocation cause => s!"allocation failed: {cause.message}"
  | config cause => s!"invalid config: {cause.message}"
  | socket call e => s!"{call} failed: errno {e}"
  | unknownGroup group => s!"no buffer ring for group {group}"
  | slotNotOutstanding index => s!"pool slot {index} is not outstanding"
  | bufferNotInKernel group id => s!"buffer {id} of group {group} is not kernel-owned"
  | system e => s!"OS error: errno {e}"

/-- Whether the fault belongs to the setup of the server, not to its operation. -/
def isSetup : Fault → Bool
  | queueSetup _ | registerBuffers _ | registerRing _ _ | allocation _ | config _ | socket _ _
  | unknownGroup _ => true
  | submit _ | queueFull | slotNotOutstanding _ | bufferNotInKernel _ _ | system _ => false

/-- The system's error number, where the fault has one. -/
def errno? : Fault → Option Int32
  | queueSetup e | submit e | registerBuffers e | registerRing _ e | socket _ e | system e => some e
  | queueFull | allocation _ | config _ | unknownGroup _ | slotNotOutstanding _
  | bufferNotInKernel _ _ => none

/-- The fault of a system call; one that brings no error number counts as -1. -/
def ofSystemCall (errno : Option Int32) : Fault := system (errno.getD (-1))

end Fault

end RingServer
