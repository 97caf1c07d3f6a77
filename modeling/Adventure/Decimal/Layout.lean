/-
How numbers are written.

The digits are those of the shortest decimal that reads back.  A layout settles
the rest: whether whole numbers keep a point, and for which powers of ten the
digits stand in their places rather than before an exponent.
-/
import Adventure.Decimal.Shortest

namespace Adventure.Decimal

/-- The decisions left once the digits are known. -/
structure Layout where
  /-- Whether a whole number written in place ends in `.0`. -/
  keepsPoint : Bool
  /-- The powers of ten of the first digit that are written in place, from the first
  to the second; without bounds all of them are. -/
  inPlace : Option (Int × Int)

/-- Numbers as players and authors read them: always in place, no idle point. -/
def Layout.plain : Layout :=
  ⟨false, none⟩

/-- Numbers as a labelled value shows them: with a point in whole numbers, and with
an exponent below a ten-thousandth and from ten to the sixteenth on. -/
def Layout.labelled : Layout :=
  ⟨true, some (-4, 15)⟩

namespace Scientific

/-- The power of ten that the first digit counts. -/
def leadingPower (s : Scientific) : Int :=
  s.exponent + (Nat.toDigits 10 s.digits).length - 1

/-- The digits in their places around the point. -/
def inPlace (keepsPoint : Bool) (s : Scientific) : List Char :=
  let digits := Nat.toDigits 10 s.digits
  if 0 ≤ s.exponent then
    digits ++ List.replicate s.exponent.toNat '0' ++ if keepsPoint then ['.', '0'] else []
  else
    let places := (-s.exponent).toNat
    let padded := List.replicate (places + 1 - digits.length) '0' ++ digits
    padded.take (padded.length - places) ++ '.' :: padded.drop (padded.length - places)

/-- One digit before the point and the power of ten behind. -/
def withExponent (s : Scientific) : List Char :=
  let power := (toString s.leadingPower).toList
  match Nat.toDigits 10 s.digits with
  | [] => 'e' :: power
  | [d] => d :: 'e' :: power
  | d :: rest => d :: '.' :: rest ++ 'e' :: power

/-- The number in the given layout. -/
def write (layout : Layout) (s : Scientific) : List Char :=
  match layout.inPlace with
  | none => s.inPlace layout.keepsPoint
  | some (first, last) =>
    if first ≤ s.leadingPower ∧ s.leadingPower ≤ last then s.inPlace layout.keepsPoint
    else s.withExponent

end Scientific

/-- A reading in the given layout. -/
def Reading.write (layout : Layout) : Reading → String
  | .notANumber => "NaN"
  | .infinite negative => if negative then "-inf" else "inf"
  | .zero negative =>
    String.ofList ((if negative then ['-'] else []) ++ Scientific.inPlace layout.keepsPoint ⟨0, 0⟩)
  | .finite negative value =>
    String.ofList ((if negative then ['-'] else []) ++ value.shortest.write layout)

/-- The text of a number in the given layout. -/
def write (layout : Layout) (x : Float) : String :=
  (Reading.ofFloat x).write layout

/-- The text of a number as messages show it. -/
def text (x : Float) : String :=
  write .plain x

end Adventure.Decimal
