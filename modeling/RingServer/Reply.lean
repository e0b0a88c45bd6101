import RingServer.Tag
import RingServer.Text.Bytes
import RingServer.Text.Quoted

/-!
Replies and the handlers that choose them. A handler sees each message once and may keep a state of
its own. `Handler.recording` keeps the calls beside that state without changing a reply.
-/
namespace RingServer

open Text (Bytes)

inductive Reply
  | nothing
  /-- Bytes that stay where they are until sent. -/
  | fixed (bytes : Bytes)
  /-- Bytes to be copied into a pool slot and sent from there. -/
  | copied (bytes : Bytes)
  deriving DecidableEq, Repr

structure Handler (σ : Type) where
  respond : σ → Descriptor → Bytes → Reply × σ

namespace Handler

variable {σ : Type}

/-- A handler without a state. -/
def pure (f : Descriptor → Bytes → Reply) : Handler Unit := ⟨fun _ fd payload => (f fd payload, ())⟩

/-- The same handler with its calls kept, in order. -/
def recording (h : Handler σ) : Handler (σ × List (Descriptor × Bytes)) where
  respond s fd payload :=
    let (reply, next) := h.respond s.1 fd payload
    (reply, next, s.2 ++ [(fd, payload)])

end Handler

/-- The acknowledgement `OK` and a line end. -/
def acknowledgement : Bytes := [0x4f, 0x4b, 0x0a]

/-- The built-in ways to reply. -/
inductive ReplyMode
  | acknowledge
  | echo
  | silent
  deriving DecidableEq, Repr

namespace ReplyMode

def text : ReplyMode → String
  | acknowledge => "ack"
  | echo => "echo"
  | silent => "silent"

/-- Reads a mode in any case of ASCII letters; the error is the message. -/
def parse (s : String) : Except String ReplyMode :=
  let word := Text.lowerAscii s
  if word = "ack" then .ok acknowledge
  else if word = "echo" then .ok echo
  else if word = "silent" ∨ word = "none" then .ok silent
  else .error s!"unknown reply mode {Text.quote word}"

def reply (mode : ReplyMode) (payload : Bytes) : Reply :=
  match mode with
  | acknowledge => .fixed acknowledgement
  | echo => .copied payload
  | silent => .nothing

def handler (mode : ReplyMode) : Handler Unit := Handler.pure fun _ => mode.reply

end ReplyMode

/-- A handler that takes its instruction from the first byte of a message: `a` acknowledges, `e`
returns the rest, `z` sends an empty fixed reply, and anything else gets no reply. -/
def Handler.byFirstByte : Handler Unit :=
  Handler.pure fun _ payload =>
    match payload with
    | 0x61 :: _ => .fixed acknowledgement
    | 0x65 :: rest => .copied rest
    | 0x7a :: _ => .fixed []
    | _ => .nothing

end RingServer
