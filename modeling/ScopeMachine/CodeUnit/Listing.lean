import ScopeMachine.CodeUnit.Basic
import ScopeMachine.Text.Layout
import ScopeMachine.Text.Quoted

/-!
# Listings

The code of a unit in readable form: a line for each instruction, with its offset and, after a
semicolon, what its index refers to.
-/

namespace ScopeMachine

def Constant.toText (i : Interner) : Constant → String
  | undefined => "undefined"
  | null => "null"
  | bool b => if b then "true" else "false"
  | int n => toString n.toInt
  | float x => x.toText
  | str s => Text.Quoted.encode (i.text s)

def Template.toText (i : Interner) (t : Template) : String :=
  "[" ++ ", ".intercalate (t.names.map (·.toText i)) ++ "]"

namespace CodeUnit

def comment? (u : CodeUnit) : Instruction → Option String
  | .constant n => (u.constant n).toOption.map (·.toText u.interner)
  | .multiname n | .dotRead n | .lexicalRead n | .lexicalWrite n | .lexicalAssign n =>
    (u.multinames.get n).toOption.map (·.toText u.interner)
  | .pushFrame n => (u.templates.get n).toOption.map (·.toText u.interner)
  | .pop | .popFrame | .ret => none

def line (u : CodeUnit) (offset : Nat) (i : Instruction) : String :=
  let head := Text.alignRight 6 (toString offset) ++ "  " ++ i.toText
  match u.comment? i with
  | none => head ++ "\n"
  | some comment => head ++ "  ; " ++ comment ++ "\n"

def listing (u : CodeUnit) : String :=
  String.join ((Instruction.decode u.code).instructions.map fun (offset, i) => u.line offset i)

end CodeUnit

end ScopeMachine
