import ScopeMachine.CodeUnit.Basic

/-!
# Loading

Turns an image into a code unit: its texts are interned, its tables built in order, and the whole is
verified. What was interned before a failure stays interned.
-/

namespace ScopeMachine.CodeUnit

/-- The declaration of a written slot: its namespace is interned first, then its name. -/
def internSlot (s : Image.Slot) : Loader Declaration := do
  let qualifier ← s.qualifier.mapM Loader.intern
  let name ← Loader.intern s.name
  return ⟨⟨qualifier, name⟩, ⟨s.hoisted, s.immutable⟩⟩

def loadTemplate (a : Arena) (f : Image.Frame) : Loader Arena := do
  let slots ← f.slots.mapM internSlot
  match a.push ⟨f.parent, slots⟩ with
  | (.ok _, a) => return a
  | (.error e, _) => throw e

def internConstant : Image.Constant → Loader Constant
  | .undefined => return .undefined
  | .null => return .null
  | .bool b => return .bool b
  | .int n => return .int n
  | .float x => return .float x
  | .str s => return .str (← Loader.intern s)

def loader (image : Image) : Loader CodeUnit := do
  let multinames ← MultinameTable.load image.multinames
  let templates ← image.frames.foldlM loadTemplate .empty
  -- constants are interned even if the unit then turns out to be faulty
  let constants ← image.constants.mapM internConstant
  ofDraft
    { interner := ← get
      multinames
      templates
      constants := constants.toArray
      base := image.base
      code := image.code.toArray }

def load (i : Interner) (image : Image) : Except LoadError CodeUnit × Interner :=
  (loader image).run i

end ScopeMachine.CodeUnit
