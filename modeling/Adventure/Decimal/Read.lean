/-
Reading numbers.

An integer is an optional sign and decimal digits, and has to fit sixty-four bits.
A number is an optional sign and either one of the words for the values that are
not finite, or digits with an optional point among or beside them, and then an
optional power of ten.  What the digits say is rounded once, to the nearest double.
-/

namespace Adventure.Decimal

/-- Splits an optional sign off; true for a minus. -/
def splitSign : List Char → Bool × List Char
  | '-' :: rest => (true, rest)
  | '+' :: rest => (false, rest)
  | rest => (false, rest)

/-- The number that decimal digits spell, most significant first. -/
def ofDigits (digits : List Char) : Nat :=
  digits.foldl (fun n c => 10 * n + (c.toNat - '0'.toNat)) 0

/-- A natural number: decimal digits and nothing else, at least one. -/
def readNat? (cs : List Char) : Option Nat :=
  if cs.isEmpty || !cs.all Char.isDigit then none else some (ofDigits cs)

/-- An integer of unlimited size. -/
def readInt? (cs : List Char) : Option Int :=
  let (negative, rest) := splitSign cs
  (readNat? rest).map fun n => if negative then -(n : Int) else n

/-- An integer of sixty-four bits with a sign. -/
def readInt64? (cs : List Char) : Option Int :=
  (readInt? cs).filter fun i => -9223372036854775808 ≤ i && i ≤ 9223372036854775807

/-- The power of ten behind the digits: nothing, or `e` and an integer. -/
def readPower? : List Char → Option Int
  | [] => some 0
  | c :: rest => if c = 'e' ∨ c = 'E' then readInt? rest else none

/-- The double nearest to `digits * 10 ^ power`.  Numbers far beyond the range are
cut off by their first digit's place, before any large power is computed. -/
def scale (digits : Nat) (power : Int) : Float :=
  let top := (Nat.toDigits 10 digits).length + power
  if digits = 0 ∨ top < -400 then 0.0
  else if 400 < top then Float.ofScientific 1 false 400
  else if power < 0 then Float.ofScientific digits true (-power).toNat
  else Float.ofScientific digits false power.toNat

/-- The number without its sign. -/
def readMagnitude? (cs : List Char) : Option Float :=
  let whole := cs.takeWhile Char.isDigit
  let (fraction, rest) : List Char × List Char := match cs.dropWhile Char.isDigit with
    | '.' :: rest => (rest.takeWhile Char.isDigit, rest.dropWhile Char.isDigit)
    | rest => ([], rest)
  let digits := whole ++ fraction
  if digits.isEmpty then none
  else (readPower? rest).map fun power =>
    scale (ofDigits digits) (power - fraction.length)

/-- The value of a word for a number that is not finite. -/
def readWord? (cs : List Char) : Option Float :=
  match String.ofList (cs.map Char.toLower) with
  | "inf" | "infinity" => some (1.0 / 0.0)
  | "nan" => some (0.0 / 0.0)
  | _ => none

/-- A number. -/
def readFloat? (cs : List Char) : Option Float :=
  let (negative, rest) := splitSign cs
  (readWord? rest <|> readMagnitude? rest).map fun x => if negative then -x else x

end Adventure.Decimal
