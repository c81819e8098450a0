import ScopeMachine.Bytes.LittleEndian
import ScopeMachine.Image.Basic

/-!
# Encoded images

The bytes of an image: its fields in order, numbers little-endian in their full width, the length of
a list or a text in eight bytes before it, and one byte of value 0 or 1 for a truth value or for
whether an optional field is there.
-/

namespace ScopeMachine.Image

open Bytes

def encodeList (encode : α → List UInt8) (xs : List α) : List UInt8 :=
  LittleEndian.encode 8 xs.length ++ xs.flatMap encode

def encodeText (s : String) : List UInt8 :=
  LittleEndian.encode 8 s.utf8ByteSize ++ s.toByteArray.data.toList

def encodeBool (b : Bool) : List UInt8 :=
  [if b then 1 else 0]

def encodeOption (encode : α → List UInt8) : Option α → List UInt8
  | none => [0]
  | some x => 1 :: encode x

def encodeIndex (n : UInt16) : List UInt8 :=
  LittleEndian.encode 2 n.toNat

def Reference.encode (r : Reference) : List UInt8 :=
  encodeText r.name ++ encodeList encodeText r.namespaces

def Slot.encode (s : Slot) : List UInt8 :=
  encodeText s.name ++ encodeOption encodeText s.qualifier ++ encodeBool s.hoisted ++
    encodeBool s.immutable

def Frame.encode (f : Frame) : List UInt8 :=
  encodeOption encodeIndex f.parent ++ encodeList Slot.encode f.slots

/-- A constant: the number of its kind in four bytes, then what it holds. -/
def Constant.encode : Constant → List UInt8
  | undefined => LittleEndian.encode 4 0
  | null => LittleEndian.encode 4 1
  | bool b => LittleEndian.encode 4 2 ++ encodeBool b
  | int n => LittleEndian.encode 4 3 ++ LittleEndian.encode 8 n.toUInt64.toNat
  | float x => LittleEndian.encode 4 4 ++ LittleEndian.encode 8 x.bits.toNat
  | str s => LittleEndian.encode 4 5 ++ encodeText s

end ScopeMachine.Image

namespace ScopeMachine

def Image.encode (image : Image) : List UInt8 :=
  encodeList Reference.encode image.multinames ++ encodeList Frame.encode image.frames ++
    encodeList Constant.encode image.constants ++ encodeIndex image.base ++
    encodeList (fun b => [b]) image.code

end ScopeMachine
