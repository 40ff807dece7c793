/-
SongSheet/Binary/Layout.lean

Printing a binary value.

The digits are the fewest that read back; a layout decides the rest.  With the
digits `d₁ … dₙ` and the value `0.d₁ … dₙ * 10 ^ point`, a number is written
positionally when `point` lies in the range of the layout, and otherwise as
`d₁.d₂ … dₙe<point - 1>`.
-/
import SongSheet.Binary.Shortest

namespace SongSheet

/-- How a value is printed. -/
structure Layout where
  /-- Positional for points above this one, if there is such a limit. -/
  above : Option Int
  /-- Positional for points up to this one, if there is such a limit. -/
  upTo : Option Int
  /-- What follows a positional whole number. -/
  wholeEnd : List Char
  tie : DigitTie
  infinity : List Char
  notANumber : List Char
  deriving Repr

namespace Layout

/-- In running text numbers are always positional, and whole numbers have no point. -/
def running : Layout := ⟨none, none, [], .up, ['i', 'n', 'f'], ['N', 'a', 'N']⟩

/-- A 64-bit number in a document. -/
def documentDouble : Layout :=
  ⟨some (-5), some 16, ['.', '0'], .even, ['.', 'i', 'n', 'f'], ['.', 'n', 'a', 'n']⟩

/-- A 32-bit number in a document. -/
def documentSingle : Layout :=
  ⟨some (-6), some 13, ['.', '0'], .even, ['.', 'i', 'n', 'f'], ['.', 'n', 'a', 'n']⟩

/-- The layout writes a number with this point positionally. -/
def isPositional (l : Layout) (point : Int) : Bool :=
  l.above.all (· < point) && l.upTo.all (point ≤ ·)

/-- The digit zero, `n` times. -/
def zeros (n : Nat) : List Char := List.replicate n '0'

/-- The digits with the point in its place. -/
def positional (l : Layout) (digits : List Char) (point : Int) : List Char :=
  if point ≤ 0 then '0' :: '.' :: (zeros (-point).toNat ++ digits)
  else if digits.length ≤ point.toNat then
    digits ++ zeros (point.toNat - digits.length) ++ l.wholeEnd
  else digits.take point.toNat ++ '.' :: digits.drop point.toNat

/-- A whole number with a minus sign where it is negative. -/
def wholeNumber (n : Int) : List Char :=
  if n < 0 then '-' :: Nat.toDigits 10 n.natAbs else Nat.toDigits 10 n.natAbs

/-- The digits with an exponent. -/
def scientific (digits : List Char) (point : Int) : List Char :=
  let fraction := if digits.drop 1 = [] then [] else '.' :: digits.drop 1
  digits.take 1 ++ fraction ++ 'e' :: wholeNumber (point - 1)

/-- A positive finite magnitude. -/
def magnitude (l : Layout) (d : Decimal) : List Char :=
  let digits := Nat.toDigits 10 d.coefficient
  let point := d.exponent + digits.length
  if l.isPositional point then l.positional digits point else scientific digits point

/-- Prints a value. -/
def render {f : Format} (l : Layout) (x : Binary f) : List Char :=
  if x.isNaN then l.notANumber
  else
    let sign := if x.negative then ['-'] else []
    if x.isInfinite then sign ++ l.infinity
    else if x.isZero then sign ++ '0' :: l.wholeEnd
    else sign ++ l.magnitude (f.shortest l.tie x.magnitude)

end Layout

end SongSheet
