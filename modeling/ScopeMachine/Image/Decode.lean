import ScopeMachine.Bytes.LittleEndian
import ScopeMachine.Image.Basic
import ScopeMachine.Image.Fault

/-!
# Reading encoded images

Fields are read in order from the front of the bytes and the first fault ends the reading. What
follows the last field is left over.
-/

namespace ScopeMachine.Image

open Bytes

/-- Reads one field at the front of some bytes and leaves the rest. -/
abbrev Reader := StateT (List UInt8) (Except Fault)

namespace Reader

def bytes (shortage : Fault) (width : Nat) : Reader (List UInt8) := fun bytes =>
  let (front, rest) := bytes.splitAt width
  if front.length = width then .ok (front, rest) else .error shortage

def number (width : Nat) : Reader Nat := do
  return LittleEndian.decode (← bytes .endOfBytes width)

def byte : Reader UInt8 := do
  return UInt8.ofNat (← number 1)

def index : Reader UInt16 := do
  return UInt16.ofNat (← number 2)

def bool : Reader Bool := do
  let b ← byte
  if b = 0 then return false
  else if b = 1 then return true
  else throw (.notBool b)

def option (read : Reader α) : Reader (Option α) := do
  let tag ← byte
  if tag = 0 then return none
  else if tag = 1 then return some (← read)
  else throw (.notTag tag)

def text : Reader String := do
  let width ← number 8
  let encoded ← bytes .endOfText width
  match Text.Utf8.decode ⟨encoded.toArray⟩ with
  | .ok s => return s
  | .error fault => throw (.notUtf8 fault)

/-- Reads `count` more entries after those in `done`, which holds the last one first. -/
def entries (read : Reader α) : (count : Nat) → (done : List α) → Reader (List α)
  | 0, done, rest => .ok (done.reverse, rest)
  | count + 1, done, rest =>
    match read rest with
    | .ok (x, rest) => entries read count (x :: done) rest
    | .error fault => .error fault

def list (read : Reader α) : Reader (List α) := do
  entries read (← number 8) []

end Reader

def Reference.read : Reader Reference := do
  let name ← Reader.text
  let namespaces ← Reader.list Reader.text
  return ⟨name, namespaces⟩

def Slot.read : Reader Slot := do
  let name ← Reader.text
  let qualifier ← Reader.option Reader.text
  let hoisted ← Reader.bool
  let immutable ← Reader.bool
  return ⟨name, qualifier, hoisted, immutable⟩

def Frame.read : Reader Frame := do
  let parent ← Reader.option Reader.index
  let slots ← Reader.list Slot.read
  return ⟨parent, slots⟩

def Constant.read : Reader Constant := do
  match ← Reader.number 4 with
  | 0 => return .undefined
  | 1 => return .null
  | 2 => return .bool (← Reader.bool)
  | 3 => return .int (UInt64.ofNat (← Reader.number 8)).toInt64
  | 4 => return .float ⟨UInt64.ofNat (← Reader.number 8)⟩
  | 5 => return .str (← Reader.text)
  | kind => throw (.notKind kind)

def read : Reader Image := do
  let multinames ← Reader.list Reference.read
  let frames ← Reader.list Frame.read
  let constants ← Reader.list Constant.read
  let base ← Reader.index
  let code ← Reader.list Reader.byte
  return ⟨multinames, frames, constants, base, code⟩

/-- The image at the front of the bytes; what follows it does not matter. -/
def decode (bytes : List UInt8) : Except Fault Image :=
  match read.run bytes with
  | .ok (image, _) => .ok image
  | .error fault => .error fault

end ScopeMachine.Image
