/-!
Counters of the server. They are 64-bit words and only grow.
-/
namespace RingServer

structure Counters where
  accepts : UInt64
  acceptErrors : UInt64
  acceptRearms : UInt64
  messages : UInt64
  bytesIn : UInt64
  receiveRearms : UInt64
  /-- Receive streams that stopped because no buffer waited. -/
  receiveStops : UInt64
  replies : UInt64
  /-- Copied replies lost because no slot was free. -/
  repliesDropped : UInt64
  /-- Copied replies cut to the size of a slot. -/
  repliesTruncated : UInt64
  logLines : UInt64
  /-- Log lines lost because no slot was free. -/
  logDropped : UInt64
  closes : UInt64
  /-- Connections shut down because of a malformed completion. -/
  faults : UInt64
  unknown : UInt64
  completions : UInt64
  turns : UInt64
  deriving DecidableEq, Repr

namespace Counters

def zero : Counters := ⟨0, 0, 0, 0, 0, 0, 0, 0, 0, 0, 0, 0, 0, 0, 0, 0, 0⟩

def toList (c : Counters) : List UInt64 :=
  [c.accepts, c.acceptErrors, c.acceptRearms, c.messages, c.bytesIn, c.receiveRearms,
    c.receiveStops, c.replies, c.repliesDropped, c.repliesTruncated, c.logLines, c.logDropped,
    c.closes, c.faults, c.unknown, c.completions, c.turns]

/-- The counters in the order of `toList`; missing ones are zero. -/
def ofList (values : List UInt64) : Counters :=
  let v := fun i => values.getD i 0
  ⟨v 0, v 1, v 2, v 3, v 4, v 5, v 6, v 7, v 8, v 9, v 10, v 11, v 12, v 13, v 14, v 15, v 16⟩

theorem ofList_toList (c : Counters) : ofList c.toList = c := rfl

/-- One line of the counters that an operator watches. -/
def text (c : Counters) : String :=
  s!"turns={c.turns} cqes={c.completions} accepts={c.accepts} msgs={c.messages} " ++
  s!"bytes_in={c.bytesIn} replies={c.replies} replies_dropped={c.repliesDropped} " ++
  s!"log_dropped={c.logDropped} closes={c.closes} faults={c.faults} " ++
  s!"enobufs={c.receiveStops} unknown={c.unknown}"

end Counters

end RingServer
