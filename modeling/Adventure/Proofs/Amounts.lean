/-
Amounts that are not negative.

An amount that passes its check is no less than zero, and so is the sum of two of them.  The
sum is taken in floating point, so this is seen on the parts of a number: a sum of two
positive signs has the positive sign, and neither rounding nor packing changes it.  Zero
counts whichever sign it has; what is no number at all does not.
-/
import Mathlib
import Adventure.World.Resource
import Adventure.World.Rule

namespace Adventure

open Float.Model Float.Model.UnpackedFloat

/-- The parts are those of a number that is no less than zero. -/
def NotBelowZero : UnpackedFloat → Prop
  | .infinity sign | .finite sign .. => sign = .positive
  | .zero _ => True
  | .notANumber => False

theorem unpack_zero : (0.0 : Float).toModel.unpack = .zero .positive :=
  rfl

/-- Whether a number is less than zero is read off its parts. -/
theorem ge_zero_iff {x : Float} : x ≥ 0.0 ↔ NotBelowZero x.toModel.unpack := by
  have hle : x ≥ 0.0 ↔ (UnpackedFloat.zero .positive).le x.toModel.unpack = true := by
    show decide ((0.0 : Float).toModel.unpack.le x.toModel.unpack = true) = true ↔ _
    rw [decide_eq_true_iff, unpack_zero]
  rw [hle]
  cases x.toModel.unpack with
  | notANumber => exact iff_of_false nofun nofun
  | zero sign => exact iff_of_true rfl trivial
  | infinity sign | finite sign =>
    cases sign with
    | negative => exact iff_of_false nofun nofun
    | positive => exact iff_of_true rfl rfl

/-! ### Sums -/

section Sums

variable {spec : Format} {x y : UnpackedFloat}

theorem notBelowZero_round (mantissa : Nat) (exponent : Int) :
    NotBelowZero (UnpackedFloat.round spec .positive mantissa exponent) := by
  unfold UnpackedFloat.round roundWithAccuracy
  dsimp only
  split
  · trivial
  · rfl

theorem notBelowZero_normalize {mantissa : Int} (h : 0 ≤ mantissa) (exponent : Int)
    (sign : Sign) : NotBelowZero (UnpackedFloat.normalize spec mantissa exponent sign) := by
  unfold UnpackedFloat.normalize
  split
  · next hlt => exact absurd (Int.compare_eq_lt.mp hlt) (Int.not_lt.mpr h)
  · trivial
  · exact notBelowZero_round _ _

/-- Two infinities of the same sign add up, so no sum is lost. -/
theorem NotBelowZero.add (hx : NotBelowZero x) (hy : NotBelowZero y) :
    NotBelowZero (UnpackedFloat.add spec x y) := by
  cases x with
  | notANumber => exact hx.elim
  | infinity sign =>
    obtain rfl : sign = .positive := hx
    cases y with
    | notANumber => exact hy.elim
    | infinity sign' =>
      obtain rfl : sign' = .positive := hy
      rfl
    | zero | finite => rfl
  | zero sign =>
    cases y with
    | notANumber => exact hy.elim
    | infinity | finite => exact hy
    | zero sign' =>
      cases sign <;> cases sign' <;> trivial
  | finite sign mantissa exponent hpos =>
    obtain rfl : sign = .positive := hx
    cases y with
    | notANumber => exact hy.elim
    | infinity => exact hy
    | zero => rfl
    | finite sign' mantissa' exponent' hpos' =>
      obtain rfl : sign' = .positive := hy
      exact notBelowZero_normalize (Int.add_nonneg (Int.natCast_nonneg _) (Int.natCast_nonneg _))
        _ _

end Sums

/-! ### Packing -/

section Packing

variable {spec : Format} {x : UnpackedFloat}

/-- Only an exponent of ones, above a mantissa that is not zero, is no number. -/
theorem notBelowZero_unpack {exponent : BitVec spec.exponentBits}
    {mantissa : BitVec spec.mantissaBitsWithoutImplicit}
    (h : exponent = -1#_ → mantissa = 0#_) :
    NotBelowZero (UnpackedFloat.unpack spec (packComponents spec .positive exponent mantissa)) := by
  unfold UnpackedFloat.unpack
  simp only [unpackExponent_packComponents, unpackMantissa_packComponents,
    unpackSign_packComponents]
  split
  · next hexponent =>
    rw [if_pos (h hexponent)]
    rfl
  · split
    · split
      · trivial
      · rfl
    · rfl

theorem ofNat_ne_ones {w n : Nat} (h : n < (BitVec.allOnes w).toNat) :
    BitVec.ofNat w n ≠ -1#w := by
  intro heq
  have hvalue := congrArg BitVec.toNat heq
  rw [BitVec.neg_one_eq_allOnes, BitVec.toNat_ofNat,
    Nat.mod_eq_of_lt (Nat.lt_trans h (BitVec.isLt _))] at hvalue
  exact Nat.ne_of_lt h hvalue

/-- A number too large for its format is packed as infinity, and keeps its sign. -/
theorem NotBelowZero.unpack_pack (hx : NotBelowZero x) :
    NotBelowZero (UnpackedFloat.unpack spec (UnpackedFloat.pack spec x)) := by
  cases x with
  | notANumber => exact hx.elim
  | infinity sign =>
    obtain rfl : sign = .positive := hx
    exact notBelowZero_unpack fun _ => rfl
  | zero sign =>
    rw [show UnpackedFloat.pack spec (.zero sign) = packedZero spec sign from rfl,
      unpack_packedZero]
    trivial
  | finite sign mantissa exponent hpos =>
    obtain rfl : sign = .positive := hx
    unfold UnpackedFloat.pack
    dsimp only
    split
    · exact notBelowZero_unpack fun _ => rfl
    · next hexponent =>
      split
      · refine notBelowZero_unpack fun hones => absurd hones (ofNat_ne_ones ?_)
        rw [BitVec.toNat_allOnes]
        exact Nat.lt_sub_of_add_lt (Nat.not_le.mp hexponent)
      · refine notBelowZero_unpack fun hones => absurd hones ?_
        simp [Nat.ne_of_gt spec.he]

end Packing

theorem unpack_add (x y : Float) : (x + y).toModel.unpack =
    UnpackedFloat.unpack .binary64 (UnpackedFloat.pack .binary64
      (UnpackedFloat.add .binary64 x.toModel.unpack y.toModel.unpack)) :=
  rfl

/-- **The sum of two amounts that are not negative is not negative.** -/
theorem add_ge_zero {x y : Float} (hx : x ≥ 0.0) (hy : y ≥ 0.0) : x + y ≥ 0.0 := by
  rw [ge_zero_iff, unpack_add]
  exact ((ge_zero_iff.mp hx).add (ge_zero_iff.mp hy)).unpack_pack

/-- A text that is accepted as an amount stands for a number that is not negative. -/
theorem Rule.ge_zero_of_nonNegative {given : String} {v : Value} {amount : Float}
    (h : nonNegative.read? given = some v) (hamount : v.number? = some amount) :
    amount ≥ 0.0 := by
  simp only [read?, Option.filter_eq_some_iff, numberPasses, hamount, Option.any_some,
    decide_eq_true_iff] at h
  exact h.2

end Adventure
