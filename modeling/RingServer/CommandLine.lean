import RingServer.Server

/-!
The command line: settings from the environment, a port as the only argument, and log lines on
standard error. Settings that cannot be read or a bad argument end the program with code 2, a server
that cannot start with code 1.
-/
namespace RingServer.CommandLine

open Kernel

/-- What a run has written, and its exit code unless it goes on serving. -/
structure Outcome where
  stderr : List String
  code : Option UInt32
  deriving DecidableEq, Repr

def programName : String := "ringd-echo"

/-- The variables that the program looks at. -/
def variableNames : List String :=
  ["RUST_LOG", "RINGD_PORT", "RINGD_BACKLOG", "RINGD_SQ_ENTRIES", "RINGD_SQPOLL",
    "RINGD_SQPOLL_IDLE_MS", "RINGD_SQPOLL_CPU", "RINGD_POOL_ENTRIES", "RINGD_POOL_ENTRY_SIZE",
    "RINGD_BUF_RINGS", "RINGD_CONN_BGID", "RINGD_REPLY", "RINGD_ACCESS_LOG", "RINGD_LOG_LEVEL"]

def refuse (line : String) : Outcome := ⟨[line], some 2⟩

/-- The settings with the port that the first argument gives. -/
def withArguments (args : List String) (s : Settings) : Option Settings :=
  match args with
  | [] => some s
  | port :: _ => (Text.readUInt16 port).toOption.map fun port => { s with port }

/-- One variable decides what is logged, or else a setting. -/
def eventFilter (env : Environment) (s : Settings) : EventFilter :=
  match env "RUST_LOG" with
  | .text word => .ofText word
  | _ => .ofText s.logLevel

def exitEvent (fault : Fault) : Event :=
  ⟨.error, s!"{programName} exiting",
    [("error", fault.message), ("setup", toString fault.isSetup)]⟩

def servingEvent (s : Settings) (l : Listener) : Event :=
  ⟨.info, s!"{programName} listening", [("port", toString l.port), ("reply", s.reply.text)]⟩

/-- Starts the server and makes its loop accept. -/
def serve (host : Host) (s : Settings) : Array Event × Option Fault :=
  match (Server.start host s).run.run #[] with
  | (.error fault, events) => (events, some fault)
  | (.ok server, events) =>
    match (EventLoop.listen server.listener.fd).run.run server.loop with
    | (.error fault, loop) => (events ++ loop.events, some fault)
    | (.ok _, loop) => (events ++ loop.events ++ #[servingEvent s server.listener], none)

def run (host : Host) (args : List String) (env : Environment) : Outcome :=
  match Settings.ofEnvironment env with
  | .error fault => refuse s!"{programName}: {fault.message}"
  | .ok s =>
    match withArguments args s with
    | none => refuse s!"usage: {programName} [port]"
    | some s =>
      let (events, fault) := serve host s
      let events := s.event :: events.toList ++ fault.toList.map exitEvent
      ⟨(events.filter (eventFilter env s).passes).map Event.line, fault.map fun _ => 1⟩

end RingServer.CommandLine
