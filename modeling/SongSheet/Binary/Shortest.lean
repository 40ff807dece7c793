/-
SongSheet/Binary/Shortest.lean

The fewest digits that read back.

A decimal number reads back as the value `x` when it lies between the midpoints
of `x` and its two neighbours; a midpoint itself reads back exactly when the
code of `x` is even.  `shortest` looks at one decimal grid after the other, from
one digit upwards.  On a grid only the two points around the value can lie
nearest to it, so the first grid on which one of the two reads back gives the
digits; when both do, the nearer one is taken, and a tie goes as the caller says.
-/
import SongSheet.Binary.Value

namespace SongSheet

/-- Which way a tie between two equally short and equally near decimals goes. -/
inductive DigitTie where
  /-- To the larger one. -/
  | up
  /-- To the one with an even last digit. -/
  | even
  deriving DecidableEq, Repr

/-- The decimal number `coefficient * 10 ^ exponent`. -/
structure Decimal where
  coefficient : Nat
  exponent : Int
  deriving DecidableEq, Repr

namespace Decimal

/-- The same number without zeros at the end of its coefficient. -/
def normalize (d : Decimal) : Decimal :=
  if 0 < d.coefficient ∧ d.coefficient % 10 = 0 then
    normalize ⟨d.coefficient / 10, d.exponent + 1⟩
  else d
termination_by d.coefficient
decreasing_by omega

end Decimal

namespace Format

/-- Twice the midpoint between a code and the one below it. -/
def lowerMidpoint (f : Format) (code : Nat) : Nat := f.units (code - 1) + f.units code

/-- Twice the midpoint between a code and the one above it. -/
def upperMidpoint (f : Format) (code : Nat) : Nat := f.units code + f.units (code + 1)

/-- The decimal `num / den` reads back as the finite magnitude `code`. -/
def readsBack (f : Format) (code num den : Nat) : Bool :=
  let twice := 2 * num * f.oneUnits
  let lo := f.lowerMidpoint code * den
  let hi := f.upperMidpoint code * den
  if code % 2 = 0 then lo ≤ twice && twice ≤ hi else lo < twice && twice < hi

/-- The number of decimal digits in front of the point of `num / den`; for a
quotient below one, minus the number of zeros behind the point. -/
def decimalPoint (num den : Nat) : Int :=
  if den ≤ num then (Nat.toDigits 10 (num / den)).length
  else
    let d := (Nat.toDigits 10 (den / num)).length
    if den ≤ num * Nat.pow 10 (d - 1) then 2 - (d : Int) else 1 - (d : Int)

/-- The number `num / den` measured in steps of `10 ^ exponent`, as a quotient. -/
def inSteps (num den : Nat) (exponent : Int) : Nat × Nat :=
  if 0 ≤ exponent then (num, den * Nat.pow 10 exponent.toNat)
  else (num * Nat.pow 10 (-exponent).toNat, den)

/-- The number `n * 10 ^ exponent` as a quotient. -/
def stepQuotient (n : Nat) (exponent : Int) : Nat × Nat :=
  if 0 ≤ exponent then (n * Nat.pow 10 exponent.toNat, 1) else (n, Nat.pow 10 (-exponent).toNat)

/-- The point of the grid with steps of `10 ^ exponent` that reads back as `code`
and is nearest to it. -/
def onGrid (f : Format) (tie : DigitTie) (code : Nat) (exponent : Int) : Option Decimal :=
  let (num, den) := inSteps (f.units code) f.oneUnits exponent
  let below := num / den
  let r := num % den
  let fits (n : Nat) : Bool :=
    let (p, q) := stepQuotient n exponent
    f.readsBack code p q
  match fits below, fits (below + 1) with
  | false, false => none
  | true, false => some ⟨below, exponent⟩
  | false, true => some ⟨below + 1, exponent⟩
  | true, true =>
      let up := den < 2 * r ∨ (2 * r = den ∧ (tie = .up ∨ below % 2 = 1))
      some ⟨if up then below + 1 else below, exponent⟩

/-- The digits of the positive finite magnitude `code`: grids with `digits`,
`digits + 1`, … digits are tried, at most `fuel` of them. -/
def firstOnGrid (f : Format) (tie : DigitTie) (code : Nat) (point : Int) :
    Nat → Nat → Option Decimal
  | 0, _ => none
  | fuel + 1, digits =>
      match f.onGrid tie code (point - digits) with
      | some d => some d
      | none => firstOnGrid f tie code point fuel (digits + 1)

/-- The fewest digits that read back as the positive finite magnitude `code`. -/
def shortest (f : Format) (tie : DigitTie) (code : Nat) : Decimal :=
  let point := decimalPoint (f.units code) f.oneUnits
  match f.firstOnGrid tie code point (f.fractionBits + 2) 1 with
  | some d => d.normalize
  | none => ⟨f.units code, 0⟩

end Format

end SongSheet
