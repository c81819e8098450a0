/-!
# Strict UTF-8

Bytes are read as text only if they are well-formed UTF-8 throughout. Otherwise the fault says
where the text breaks off and whether the bytes there are wrong or merely end too early.
-/

namespace ScopeMachine.Text.Utf8

inductive Fault where
  /-- `width` bytes from `index` on start no encoded character. -/
  | invalid (index width : Nat)
  /-- The bytes from `index` on are the beginning of a character that is cut off. -/
  | incomplete (index : Nat)
  deriving DecidableEq, Repr

def Fault.message : Fault → String
  | .invalid index width => s!"invalid utf-8 sequence of {width} bytes from index {index}"
  | .incomplete index => s!"incomplete utf-8 byte sequence from index {index}"

def isContinuation (b : UInt8) : Bool :=
  0x80 ≤ b && b ≤ 0xBF

/-- The range of the second byte and the number of bytes of a character that starts with `b` and
has more than one byte. The range of the second byte keeps out overlong forms, surrogates and
code points past U+10FFFF. -/
def lead? (b : UInt8) : Option (UInt8 × UInt8 × Nat) :=
  -- 0xC0 and 0xC1 would be overlong forms of ASCII characters
  if 0xC2 ≤ b && b ≤ 0xDF then some (0x80, 0xBF, 2)
  else if b = 0xE0 then some (0xA0, 0xBF, 3)
  -- 0xED 0xA0 and above are the surrogates
  else if b = 0xED then some (0x80, 0x9F, 3)
  else if 0xE1 ≤ b && b ≤ 0xEF then some (0x80, 0xBF, 3)
  else if b = 0xF0 then some (0x90, 0xBF, 4)
  else if 0xF1 ≤ b && b ≤ 0xF3 then some (0x80, 0xBF, 4)
  else if b = 0xF4 then some (0x80, 0x8F, 4)
  else none

inductive Front where
  /-- A whole character of this many bytes. -/
  | whole (width : Nat)
  /-- This many bytes start no character. -/
  | wrong (width : Nat)
  /-- The bytes end within the character. -/
  | cutOff

/-- Reads the continuation bytes that are still due, `seen` bytes into a character of `width`. -/
def continuation (seen width : Nat) : List UInt8 → Front
  | bs =>
    if width ≤ seen then .whole width
    else match bs with
      | [] => .cutOff
      | b :: rest => if isContinuation b then continuation (seen + 1) width rest else .wrong seen

def front (b : UInt8) (rest : List UInt8) : Front :=
  if b < 0x80 then .whole 1
  else match lead? b with
    | none => .wrong 1
    | some (low, high, width) =>
      match rest with
      | [] => .cutOff
      | second :: rest =>
        if low ≤ second && second ≤ high then continuation 2 width rest else .wrong 1

/-- The first fault of `bytes`, whose front stands at `index`. -/
def firstFault? (index : Nat) : List UInt8 → Option Fault
  | [] => none
  | b :: rest =>
    match front b rest with
    | .whole width => firstFault? (index + width) (rest.drop (width - 1))
    | .wrong width => some (.invalid index width)
    | .cutOff => some (.incomplete index)
  termination_by bytes => bytes.length
  decreasing_by
    simp only [List.length_drop, List.length_cons]
    omega

def decode (bytes : ByteArray) : Except Fault String :=
  match String.fromUTF8? bytes with
  | some s => .ok s
  | none => .error ((firstFault? 0 bytes.data.toList).getD (.incomplete bytes.size))

end ScopeMachine.Text.Utf8
