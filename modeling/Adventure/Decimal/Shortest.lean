/-
The shortest decimal that still names a binary fraction.

A finite floating-point number stands for every real that rounds to it: an
interval that reaches half way to each neighbour, ends included when the mantissa
is even.  Among the decimals in that interval the one on the coarsest grid
`10 ^ p` has the fewest digits.  If a point of a grid lies in the interval then so
does one of the two grid points next to the number itself, so only those two are
tried, in exact arithmetic.  Of two hits the nearer wins, and the upper at a tie.
-/

namespace Adventure.Decimal

/-- The number `digits * 10 ^ exponent`. -/
structure Scientific where
  digits : Nat
  exponent : Int
  deriving DecidableEq, Repr

/-- A positive binary fraction `mantissa * 2 ^ exponent` among its neighbours. -/
structure Binary where
  mantissa : Nat
  exponent : Int
  /-- Whether the neighbour below lies only half as far as the one above. -/
  belowCloser : Bool
  deriving DecidableEq, Repr

namespace Binary

/-- A number in units of the grid `10 ^ p`, as a fraction of naturals: what is
four times the mantissa in quarters of the last binary place is `n * up / down`. -/
structure Grid where
  up : Nat
  down : Nat

/-- The grid `10 ^ p`, measured in quarters of the last binary place of `b`. -/
def grid (b : Binary) (p : Int) : Grid where
  up := Nat.pow 2 (b.exponent - 2).toNat * Nat.pow 10 (-p).toNat
  down := Nat.pow 2 (2 - b.exponent).toNat * Nat.pow 10 p.toNat

/-- The lower end of the interval, in quarters of the last binary place. -/
def low (b : Binary) : Nat :=
  4 * b.mantissa - if b.belowCloser then 1 else 2

/-- The upper end of the interval, in quarters of the last binary place. -/
def high (b : Binary) : Nat :=
  4 * b.mantissa + 2

/-- Whether `d * 10 ^ p` rounds to `b`. -/
def reads (b : Binary) (p : Int) (d : Nat) : Bool :=
  let g := b.grid p
  if b.mantissa % 2 = 0 then b.low * g.up ≤ d * g.down && d * g.down ≤ b.high * g.up
  else b.low * g.up < d * g.down && d * g.down < b.high * g.up

/-- The point of the grid `10 ^ p` that names `b`, if one does. -/
def onGrid? (b : Binary) (p : Int) : Option Scientific :=
  let g := b.grid p
  let value := 4 * b.mantissa * g.up
  let d := value / g.down
  let nearer := if value - d * g.down < (d + 1) * g.down - value then d else d + 1
  let farther := if nearer = d then d + 1 else d
  if b.reads p nearer then some ⟨nearer, p⟩
  else if b.reads p farther then some ⟨farther, p⟩
  else none

/-- A power of ten above the number: its binary logarithm times the common
logarithm of two, rounded up. -/
def topPower (b : Binary) : Int :=
  (b.exponent + b.mantissa.log2 + 1) * 30103 / 100000 + 1

/-- The shortest decimal that names `b`; nineteen grids below its top power are
finer than the interval, so one of them holds it. -/
def shortest (b : Binary) : Scientific :=
  ((List.range 20).findSome? fun i : Nat => b.onGrid? (b.topPower - i)).getD ⟨0, 0⟩

end Binary

/-- What a double-precision word stands for. -/
inductive Reading where
  | notANumber
  | infinite (negative : Bool)
  | zero (negative : Bool)
  | finite (negative : Bool) (value : Binary)
  deriving DecidableEq, Repr

/-- Takes a double-precision word apart: a sign, eleven bits of exponent and
fifty-two of fraction. -/
def Reading.ofBits (bits : Nat) : Reading :=
  let hidden := Nat.pow 2 52
  let negative : Bool := bits / Nat.pow 2 63 % 2 = 1
  let power : Nat := bits / hidden % Nat.pow 2 11
  let fraction := bits % hidden
  if power = 2047 then if fraction = 0 then .infinite negative else .notANumber
  else if power = 0 then
    if fraction = 0 then .zero negative else .finite negative ⟨fraction, -1074, false⟩
  else .finite negative ⟨hidden + fraction, (power : Int) - 1075, fraction = 0 ∧ 1 < power⟩

/-- What a number stands for. -/
def Reading.ofFloat (x : Float) : Reading :=
  .ofBits x.toBits.toNat

end Adventure.Decimal
