/-!
Tags: the 64-bit word that a submission carries and its completions bring back. Bits 0 to 31 hold
a descriptor, bits 32 to 39 the number of an operation; the rest is zero in a word built here and
ignored in a word read back.
-/
namespace RingServer

inductive Opcode
  | listen
  | accept
  | receive
  | write
  | writeFixed
  | send
  | close
  | shutdown
  deriving DecidableEq, Repr

namespace Opcode

def code : Opcode → UInt8
  | listen => 1
  | accept => 2
  | receive => 3
  | write => 4
  | writeFixed => 5
  | send => 6
  | close => 7
  | shutdown => 8

def all : List Opcode := [listen, accept, receive, write, writeFixed, send, close, shutdown]

def ofCode? (n : UInt8) : Option Opcode := all.find? fun op => op.code = n

def name : Opcode → String
  | listen => "listen"
  | accept => "accept"
  | receive => "recvmsg"
  | write => "write"
  | writeFixed => "write_fixed"
  | send => "send"
  | close => "close"
  | shutdown => "shutdown"

theorem ofCode?_code (op : Opcode) : ofCode? op.code = some op := by cases op <;> rfl

theorem code_of_ofCode? {n : UInt8} {op : Opcode} (h : ofCode? n = some op) : op.code = n := by
  simpa using List.find?_some h

end Opcode

/-- A file descriptor as the kernel reports it; negative numbers occur in faulty reports. -/
abbrev Descriptor := Int32

structure Tag where
  word : UInt64
  deriving DecidableEq, Repr

namespace Tag

def encode (descriptor : UInt32) (op : Opcode) : Tag :=
  ⟨descriptor.toUInt64 ||| (op.code.toUInt64 <<< 32)⟩

def descriptor (t : Tag) : UInt32 := t.word.toUInt32

def opcodeByte (t : Tag) : UInt8 := (t.word >>> 32).toUInt8

/-- The operation, if its number names one. -/
def opcode? (t : Tag) : Option Opcode := Opcode.ofCode? t.opcodeByte

/-- The tag of an operation on a descriptor of any sign. -/
def onDescriptor (fd : Descriptor) (op : Opcode) : Tag := encode fd.toUInt32 op

/-- The tag of a fixed write, which names the pool slot it sends from. -/
def onSlot (index : UInt16) : Tag := encode index.toUInt32 .writeFixed

theorem word_encode (d : UInt32) (op : Opcode) :
    (encode d op).word.toNat = op.code.toNat <<< 32 + d.toNat := by
  have hd := d.toNat_lt
  rw [Nat.shiftLeft_add_eq_or_of_lt hd, Nat.or_comm]
  cases op <;> simp [encode, Opcode.code]

theorem descriptor_encode (d : UInt32) (op : Opcode) : (encode d op).descriptor = d := by
  have hd := d.toNat_lt
  apply UInt32.toNat_inj.mp
  simp only [descriptor, UInt64.toNat_toUInt32, word_encode, Nat.shiftLeft_eq]
  omega

theorem opcodeByte_encode (d : UInt32) (op : Opcode) : (encode d op).opcodeByte = op.code := by
  have hd := d.toNat_lt
  have hc := op.code.toNat_lt
  apply UInt8.toNat_inj.mp
  simp [opcodeByte, word_encode, Nat.shiftRight_eq_div_pow, Nat.shiftLeft_eq]
  omega

theorem opcode?_encode (d : UInt32) (op : Opcode) : (encode d op).opcode? = some op := by
  rw [opcode?, opcodeByte_encode, Opcode.ofCode?_code]

end Tag

end RingServer
