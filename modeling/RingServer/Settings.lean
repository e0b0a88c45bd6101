import RingServer.Environment
import RingServer.Event
import RingServer.FreeList
import RingServer.Reply
import RingServer.RingParams

/-!
Settings of the server: compiled-in defaults, overrides from the environment, and the check that
comes before any resource is asked for. The check reports the first violation in a fixed order.
-/
namespace RingServer

/-- What is asked of the kernel when the queues are set up. -/
structure QueueSettings where
  sqEntries : UInt32
  /-- Twice the submission entries unless given. -/
  cqEntries : Option UInt32
  /-- A kernel thread picks submissions up by itself. -/
  sqPoll : Bool
  sqPollIdleMs : UInt32
  sqPollCpu : Option UInt32
  deriving DecidableEq, Repr

def QueueSettings.default : QueueSettings := ⟨64, none, false, 5000, none⟩

structure Settings where
  port : UInt16
  backlog : Int32
  sqEntries : UInt32
  sqPoll : Bool
  sqPollIdleMs : UInt32
  sqPollCpu : Option UInt32
  poolEntries : Nat
  poolEntrySize : Nat
  rings : List RingParams
  /-- Group whose buffers receive on connections. -/
  receiveGroup : UInt16
  reply : ReplyMode
  accessLog : Bool
  logLevel : String
  deriving DecidableEq, Repr

namespace Settings

def maxSqEntries : Nat := 32768

def default : Settings where
  port := 3000
  backlog := 5
  sqEntries := 64
  sqPoll := false
  sqPollIdleMs := 5000
  sqPollCpu := none
  poolEntries := 16
  poolEntrySize := 256
  rings := [⟨16, 1024, 0⟩, ⟨16, 512, 1⟩]
  receiveGroup := 0
  reply := .acknowledge
  accessLog := true
  logLevel := "info"

/-- The defaults with what the environment overrides. Only a bad list of rings is an error. -/
def ofEnvironment (env : Environment) : Except Fault Settings := do
  let rings ← (env "RINGD_BUF_RINGS").readList RingParams.parse default.rings
  return {
    port := (env "RINGD_PORT").readOr Text.readUInt16 default.port
    backlog := (env "RINGD_BACKLOG").readOr Text.readInt32 default.backlog
    sqEntries := (env "RINGD_SQ_ENTRIES").readOr Text.readUInt32 default.sqEntries
    sqPoll := (env "RINGD_SQPOLL").flagOr default.sqPoll
    sqPollIdleMs := (env "RINGD_SQPOLL_IDLE_MS").readOr Text.readUInt32 default.sqPollIdleMs
    sqPollCpu := (env "RINGD_SQPOLL_CPU").read? Text.readUInt32
    poolEntries := (env "RINGD_POOL_ENTRIES").readOr Text.readSize default.poolEntries
    poolEntrySize := (env "RINGD_POOL_ENTRY_SIZE").readOr Text.readSize default.poolEntrySize
    rings := rings
    receiveGroup := (env "RINGD_CONN_BGID").readOr Text.readUInt16 default.receiveGroup
    reply := (env "RINGD_REPLY").readOr ReplyMode.parse default.reply
    accessLog := (env "RINGD_ACCESS_LOG").flagOr default.accessLog
    logLevel := (env "RINGD_LOG_LEVEL").readOr readText default.logLevel }

/-- Checks the rings from left to right; the answer is all groups seen. -/
def validateRings (seen : List UInt16) : List RingParams → Except Fault (List UInt16)
  | [] => .ok seen
  | p :: ps => do
    p.validate
    if p.group ∈ seen then throw (.config (.groupTwice p.group))
    validateRings (p.group :: seen) ps

def validate (s : Settings) : Except Fault Unit := do
  unless isPowerOfTwo s.sqEntries.toNat && s.sqEntries.toNat ≤ maxSqEntries do
    throw (.config (.queueEntries s.sqEntries))
  unless 0 < s.backlog do throw (.config .backlog)
  unless 0 < s.poolEntries ∧ s.poolEntries ≤ FreeList.maxSlots do throw (.config .poolEntries)
  unless 0 < s.poolEntrySize do throw (.config .poolEntrySize)
  let groups ← validateRings [] s.rings
  unless s.receiveGroup ∈ groups do throw (.unknownGroup s.receiveGroup)

def queue (s : Settings) : QueueSettings :=
  ⟨s.sqEntries, none, s.sqPoll, s.sqPollIdleMs, s.sqPollCpu⟩

/-- The rings as `RINGD_BUF_RINGS` would give them. -/
def ringsText (s : Settings) : String := ",".intercalate (s.rings.map RingParams.text)

/-- The event that reports the settings in effect. -/
def event (s : Settings) : Event :=
  ⟨.info, "configuration",
    [("port", toString s.port), ("backlog", toString s.backlog),
      ("sq_entries", toString s.sqEntries), ("sqpoll", toString s.sqPoll),
      ("pool", s!"{s.poolEntries}x{s.poolEntrySize}"), ("buf_rings", s.ringsText),
      ("conn_bgid", toString s.receiveGroup), ("reply", s.reply.text),
      ("access_log", toString s.accessLog)]⟩

end Settings

end RingServer
