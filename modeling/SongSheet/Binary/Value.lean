/-
SongSheet/Binary/Value.lean

The values of a binary format, and exact arithmetic on them.

A value is a sign and a magnitude code, that is, its bit pattern: two zeros that
differ in sign are different values, and so are two patterns that are not
numbers.  Order is the order of the numbers: `rank` sends the finite and
infinite values to whole numbers in the same order (both zeros to 0).

Each operation takes the exact result and rounds it once.
-/
import SongSheet.Binary.Format

namespace SongSheet

/-- A bit pattern of the format `f`. -/
structure Binary (f : Format) where
  /-- The sign bit. -/
  negative : Bool
  /-- The code of the magnitude. -/
  magnitude : Nat
  magnitude_lt : magnitude < f.size
  deriving DecidableEq

/-- A 32-bit floating-point number. -/
abbrev Single := Binary Format.single

/-- A 64-bit floating-point number. -/
abbrev Double := Binary Format.double

namespace Binary

variable {f : Format}

/-! ### Patterns -/

/-- The value with the given bit pattern. -/
def ofBits (bits : Nat) : Binary f :=
  ⟨bits / f.size % 2 == 1, bits % f.size, Nat.mod_lt _ f.size_pos⟩

/-- The bit pattern. -/
def toBits (x : Binary f) : Nat :=
  (if x.negative then f.size else 0) + x.magnitude

theorem ofBits_toBits (x : Binary f) : ofBits x.toBits = x := by
  obtain ⟨n, m, h⟩ := x
  cases n
  · simp [ofBits, toBits, Nat.mod_eq_of_lt h, Nat.div_eq_of_lt h]
  · have hd : (f.size + m) / f.size = 1 := by
      rw [Nat.add_div_left _ f.size_pos, Nat.div_eq_of_lt h]
    simp [ofBits, toBits, Nat.mod_eq_of_lt h, hd]

/-- Zero, with the given sign. -/
def zero (negative : Bool) : Binary f := ⟨negative, 0, f.size_pos⟩

/-- Infinity, with the given sign. -/
def infinite (negative : Bool) : Binary f := ⟨negative, f.infinity, f.infinity_lt_size⟩

/-- A pattern that is not a number. -/
def notANumber : Binary f := ofBits (f.infinity + f.binade / 2)

instance : Inhabited (Binary f) := ⟨zero false⟩

/-- The pattern is not a number. -/
def isNaN (x : Binary f) : Bool := f.infinity < x.magnitude

/-- The value is a finite number. -/
def isFinite (x : Binary f) : Bool := x.magnitude < f.infinity

/-- The value is an infinity. -/
def isInfinite (x : Binary f) : Bool := x.magnitude == f.infinity

/-- The value is a zero of either sign. -/
def isZero (x : Binary f) : Bool := x.magnitude == 0

/-- The number of units of a finite value, without its sign. -/
def units (x : Binary f) : Nat := f.units x.magnitude

/-- The value nearest to `num / den` units, with the given sign. -/
def round (negative : Bool) (num den : Nat) : Binary f :=
  ⟨negative, f.nearest num den, f.nearest_lt_size num den⟩

/-- The value nearest to `num / den`. -/
def ofQuotient (negative : Bool) (num den : Nat) : Binary f :=
  round negative (num * f.oneUnits) den

/-- The value nearest to a natural number. -/
def ofNat (n : Nat) : Binary f := ofQuotient false n 1

/-! ### Order -/

/-- Numbers in order: the larger the number, the larger its rank. -/
def rank (x : Binary f) : Int := if x.negative then -x.magnitude else x.magnitude

/-- Less than, as numbers; never where one side is not a number. -/
def lt (x y : Binary f) : Bool := !x.isNaN && !y.isNaN && x.rank < y.rank

/-- Equal as numbers: both zeros are, and what is not a number is equal to nothing. -/
def same (x y : Binary f) : Bool := !x.isNaN && !y.isNaN && x.rank == y.rank

/-- The value moved into `lo ..= hi`; what is not a number stays as it is. -/
def clamp (x lo hi : Binary f) : Binary f :=
  if x.lt lo then lo else if hi.lt x then hi else x

/-- The larger of two values; one that is not a number gives way to the other. -/
def max (x y : Binary f) : Binary f :=
  if x.isNaN then y else if y.isNaN then x else if x.lt y then y else x

/-! ### Arithmetic -/

/-- The signed number of units of a finite value. -/
def signedUnits (x : Binary f) : Int := if x.negative then -x.units else x.units

/-- A finite value in parts of `2 ^ shift` units, where these parts are no larger than
the steps around the value. -/
def scaled (x : Binary f) (shift : Nat) : Int :=
  let n := f.significand x.magnitude * Nat.pow 2 (f.step x.magnitude - shift)
  if x.negative then -n else n

/-- The value nearest to `n * 2 ^ shift` units; zero has the sign given. -/
def ofScaled (zeroSign : Bool) (n : Int) (shift : Nat) : Binary f :=
  if n = 0 then zero zeroSign
  else ⟨n < 0, f.nearestShifted n.natAbs shift,
    Nat.lt_of_le_of_lt (f.nearestShifted_le_infinity _ _) f.infinity_lt_size⟩

/-- Sum.  Finite values are added in parts of the smaller step. -/
def add (x y : Binary f) : Binary f :=
  if x.isNaN || y.isNaN then notANumber
  else if x.isInfinite then (if y.isInfinite && x.negative != y.negative then notANumber else x)
  else if y.isInfinite then y
  else
    let shift := min (f.step x.magnitude) (f.step y.magnitude)
    ofScaled (x.negative && y.negative) (x.scaled shift + y.scaled shift) shift

/-- The parts make up the value. -/
theorem scaled_mul_powTwo (x : Binary f) {shift : Nat} (h : shift ≤ f.step x.magnitude) :
    x.scaled shift * (Nat.pow 2 shift : Nat) = x.signedUnits := by
  have hu : x.units = f.significand x.magnitude
      * Nat.pow 2 (f.step x.magnitude - shift) * Nat.pow 2 shift := by
    rw [Nat.mul_assoc, ← Format.powTwo_split h, units, Format.units]
  rw [scaled, signedUnits, hu]
  split
  · rw [Int.neg_mul, ← Int.natCast_mul]
  · rw [← Int.natCast_mul]

/-- What is rounded is the number `n * 2 ^ shift`. -/
theorem ofScaled_eq (zeroSign : Bool) (n : Int) (shift : Nat) :
    (ofScaled zeroSign n shift : Binary f) =
      if n = 0 then zero zeroSign else round (n < 0) (n * (Nat.pow 2 shift : Nat)).natAbs 1 := by
  rw [ofScaled]
  split
  case isTrue => rfl
  case isFalse h =>
    have hn : n.natAbs ≠ 0 := Int.natAbs_ne_zero.2 h
    simp only [round, Format.nearestShifted_eq f hn, Int.natAbs_mul, Int.natAbs_natCast]

/-- A sum of finite values is the value nearest to the exact sum. -/
theorem add_eq_round {x y : Binary f} (hx : x.isFinite = true) (hy : y.isFinite = true) :
    x.add y =
      if x.signedUnits + y.signedUnits = 0 then zero (x.negative && y.negative)
      else round (x.signedUnits + y.signedUnits < 0) (x.signedUnits + y.signedUnits).natAbs 1 := by
  have finite {z : Binary f} (hz : z.isFinite = true) : z.isNaN = false ∧ z.isInfinite = false := by
    simp only [isFinite, decide_eq_true_eq] at hz
    constructor
    · simp only [isNaN, decide_eq_false_iff_not]; omega
    · simp only [isInfinite, beq_eq_false_iff_ne]; omega
  let shift := min (f.step x.magnitude) (f.step y.magnitude)
  have hp : (0 : Int) < (Nat.pow 2 shift : Nat) := Int.natCast_pos.2 (Format.powTwo_pos shift)
  have hs : x.signedUnits + y.signedUnits
      = (x.scaled shift + y.scaled shift) * (Nat.pow 2 shift : Nat) := by
    rw [Int.add_mul, x.scaled_mul_powTwo (Nat.min_le_left _ _),
      y.scaled_mul_powTwo (Nat.min_le_right _ _)]
  have hz : (x.scaled shift + y.scaled shift) * (Nat.pow 2 shift : Nat) = 0 ↔
      x.scaled shift + y.scaled shift = 0 := by
    rw [Int.mul_eq_zero]; omega
  have hn : (x.scaled shift + y.scaled shift) * (Nat.pow 2 shift : Nat) < 0 ↔
      x.scaled shift + y.scaled shift < 0 := by
    constructor
    · intro h
      exact Int.lt_of_not_ge fun hge => Int.not_le.2 h (Int.mul_nonneg hge (Int.le_of_lt hp))
    · intro h
      exact Int.mul_neg_of_neg_of_pos h hp
  rw [hs]
  simp only [add, (finite hx).1, (finite hx).2, (finite hy).1, (finite hy).2, Bool.or_self,
    Bool.false_eq_true, if_false, ofScaled_eq, hz, hn]
  rfl

/-- Product. -/
def mul (x y : Binary f) : Binary f :=
  let negative := x.negative != y.negative
  if x.isNaN || y.isNaN then notANumber
  else if x.isInfinite || y.isInfinite then
    if x.isZero || y.isZero then notANumber else infinite negative
  else round negative (x.units * y.units) f.oneUnits

/-- Quotient by a positive natural number. -/
def divNat (x : Binary f) (n : Nat) : Binary f :=
  if x.isFinite then round x.negative x.units n else x

end Binary

end SongSheet
