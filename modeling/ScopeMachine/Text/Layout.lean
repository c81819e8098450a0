/-!
# Column layout

Texts padded to a column width and numbers in lower-case hexadecimal. Widths count characters; a
text that is already as wide as its column is left alone.
-/

namespace ScopeMachine.Text

def alignRight (width : Nat) (s : String) : String :=
  String.ofList (List.replicate (width - s.length) ' ') ++ s

def alignLeft (width : Nat) (s : String) : String :=
  s ++ String.ofList (List.replicate (width - s.length) ' ')

/-- Hexadecimal digits of `n`, filled up with zeros to at least `digits` of them. -/
def hex (digits n : Nat) : String :=
  let ds := Nat.toDigits 16 n
  String.ofList (List.replicate (digits - ds.length) '0' ++ ds)

end ScopeMachine.Text
