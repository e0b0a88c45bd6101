import RingServer.Text.Hex
import RingServer.Text.Integer

/-!
Socket addresses and their text. In an IPv6 address the longest run of two or more zero groups, the
first of equals, is written `::`, and an address that maps an IPv4 one ends in its dotted form.
Reading also accepts the longer spellings.
-/
namespace RingServer

structure IPv4 where
  a : UInt8
  b : UInt8
  c : UInt8
  d : UInt8
  deriving DecidableEq, Repr

/-- An IPv6 address as its eight groups. -/
structure IPv6 where
  groups : Vector UInt16 8
  deriving DecidableEq, Repr

inductive SocketAddress
  | v4 (host : IPv4) (port : UInt16)
  | v6 (host : IPv6) (scope : UInt32) (port : UInt16)
  deriving DecidableEq, Repr

namespace IPv4

def text (x : IPv4) : String := s!"{x.a}.{x.b}.{x.c}.{x.d}"

/-- The two groups that stand for the address in an IPv6 one. -/
def groups (x : IPv4) : List UInt16 :=
  [x.a.toUInt16 <<< 8 ||| x.b.toUInt16, x.c.toUInt16 <<< 8 ||| x.d.toUInt16]

def ofGroups (hi lo : UInt16) : IPv4 :=
  ⟨(hi >>> 8).toUInt8, hi.toUInt8, (lo >>> 8).toUInt8, lo.toUInt8⟩

end IPv4

namespace IPv6

def groupTexts (groups : List UInt16) : String :=
  ":".intercalate (groups.map fun g => Text.hex g.toNat)

/-- The longest run of zeros, as its start and length; the first of equal ones. -/
def longestZeros (groups : List UInt16) : Nat × Nat :=
  let step := fun ((best, current, i) : (Nat × Nat) × (Nat × Nat) × Nat) (g : UInt16) =>
    if g = 0 then
      let current := (if current.2 = 0 then i else current.1, current.2 + 1)
      (if current.2 > best.2 then current else best, current, i + 1)
    else (best, (0, 0), i + 1)
  (groups.foldl step ((0, 0), (0, 0), 0)).1

def text (x : IPv6) : String :=
  match x.groups.toList with
  | [0, 0, 0, 0, 0, 0xffff, hi, lo] => s!"::ffff:{(IPv4.ofGroups hi lo).text}"
  | groups =>
    let (start, length) := longestZeros groups
    if length > 1 then
      groupTexts (groups.take start) ++ "::" ++ groupTexts (groups.drop (start + length))
    else groupTexts groups

end IPv6

namespace SocketAddress

def text : SocketAddress → String
  | v4 host port => s!"{host.text}:{port}"
  | v6 host scope port =>
    if scope = 0 then s!"[{host.text}]:{port}" else s!"[{host.text}%{scope}]:{port}"

/-! Reading. A reader takes what it recognises from the front and returns the rest. -/

/-- The value and number of the leading digits, at most `most` of them, and the rest. -/
def readDigits (base : Nat) : Nat → List Char → Nat × Nat × List Char :=
  go 0 0
where
  go (value count : Nat) : Nat → List Char → Nat × Nat × List Char
    | most + 1, c :: cs =>
      match Text.hexDigit? c with
      | some d =>
        if d < base then go (base * value + d) (count + 1) most cs else (value, count, c :: cs)
      | none => (value, count, c :: cs)
    | _, cs => (value, count, cs)

def readChar (c : Char) : List Char → Option (List Char)
  | x :: xs => if x = c then some xs else none
  | [] => none

/-- A decimal number up to `limit`; leading zeros are allowed. -/
def readNumber (limit : Nat) (cs : List Char) : Option (Nat × List Char) :=
  let (value, count, rest) := readDigits 10 cs.length cs
  if count = 0 ∨ value > limit then none else some (value, rest)

/-- One of the four parts of an IPv4 address: up to three digits, no leading zero. -/
def readOctet (cs : List Char) : Option (UInt8 × List Char) :=
  let (value, count, rest) := readDigits 10 3 cs
  if count = 0 ∨ value > 255 ∨ (count > 1 ∧ cs.head? = some '0') then none
  else some (UInt8.ofNat value, rest)

def readIPv4 (cs : List Char) : Option (IPv4 × List Char) := do
  let (a, cs) ← readOctet cs
  let (b, cs) ← readOctet (← readChar '.' cs)
  let (c, cs) ← readOctet (← readChar '.' cs)
  let (d, cs) ← readOctet (← readChar '.' cs)
  return (⟨a, b, c, d⟩, cs)

/-- A group of an IPv6 address: up to four hexadecimal digits. -/
def readGroup (cs : List Char) : Option (UInt16 × List Char) :=
  let (value, count, rest) := readDigits 16 4 cs
  if count = 0 then none else some (UInt16.ofNat value, rest)

/-- Up to `most` groups with colons between them. An IPv4 address counts as two groups and ends
the list, which the Boolean of the answer says. -/
def readGroups : Nat → Bool → List Char → List UInt16 × Bool × List Char
  | 0, _, cs => ([], false, cs)
  | most + 1, first, cs =>
    match if first then some cs else readChar ':' cs with
    | none => ([], false, cs)
    | some inner =>
      match if most = 0 then none else readIPv4 inner with
      | some (x, rest) => (x.groups, true, rest)
      | none =>
        match readGroup inner with
        | none => ([], false, cs)
        | some (g, rest) =>
          let (gs, dotted, rest) := readGroups most false rest
          (g :: gs, dotted, rest)

def readIPv6 (cs : List Char) : Option (IPv6 × List Char) := do
  let (head, dotted, rest) := readGroups 8 true cs
  if h : head.length = 8 then return (⟨⟨head.toArray, by simpa using h⟩⟩, rest)
  if dotted then none
  let rest ← readChar ':' (← readChar ':' rest)
  let (tail, _, rest) := readGroups (7 - head.length) true rest
  let groups := head ++ List.replicate (8 - head.length - tail.length) 0 ++ tail
  if h : groups.length = 8 then return (⟨⟨groups.toArray, by simpa using h⟩⟩, rest)
  none

def readScope (cs : List Char) : Option (UInt32 × List Char) :=
  match readChar '%' cs with
  | none => some (0, cs)
  | some cs => (readNumber (UInt32.size - 1) cs).map fun (n, rest) => (UInt32.ofNat n, rest)

def readPort (cs : List Char) : Option UInt16 := do
  let (port, rest) ← readNumber (UInt16.size - 1) (← readChar ':' cs)
  if rest.isEmpty then some (UInt16.ofNat port) else none

/-- The address that a text denotes, if it has one of the two forms. -/
def parse? (s : String) : Option SocketAddress :=
  match s.toList with
  | '[' :: cs => do
    let (host, cs) ← readIPv6 cs
    let (scope, cs) ← readScope cs
    return v6 host scope (← readPort (← readChar ']' cs))
  | cs => do
    let (host, cs) ← readIPv4 cs
    return v4 host (← readPort cs)

end SocketAddress

end RingServer
