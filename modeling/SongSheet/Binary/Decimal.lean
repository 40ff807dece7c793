/-
SongSheet/Binary/Decimal.lean

Reading a binary value from decimal text.

The text is first read into what it says (`Written`): a sign, a whole number of
digits and a power of ten, or one of the words for infinity and for what is not
a number.  The value is then rounded once from that exact number, never through
another format.

    number   = [sign] (digits ["." [digits]] | "." digits) [("e" | "E") [sign] digits]
    words    = [sign] ("inf" | "infinity" | "nan")     in any case
-/
import SongSheet.Text.Numeral
import SongSheet.Binary.Value

namespace SongSheet

/-- What a text for a number says. -/
inductive Written where
  /-- The number `digits * 10 ^ exponent`. -/
  | number (negative : Bool) (digits : Nat) (exponent : Int)
  | infinite (negative : Bool)
  | notANumber
  deriving DecidableEq, Repr

namespace Written

open Text

/-- A sign in front of a text: whether it is negative, and the text after it. -/
def splitSign : List Char → Bool × List Char
  | '-' :: cs => (true, cs)
  | '+' :: cs => (false, cs)
  | cs => (false, cs)

/-- The value of a run of decimal digits. -/
def digitsValue (ds : List Char) : Nat :=
  ds.foldl (fun v c => v * 10 + (c.toNat - 48)) 0

/-- Reads the power of ten behind a number: nothing, or `e` and a whole number. -/
def readExponent : List Char → Option Int
  | [] => some 0
  | c :: cs =>
      if c = 'e' ∨ c = 'E' then
        let (negative, ds) := splitSign cs
        if ds.isEmpty ∨ !ds.all isDecimalDigit then none
        else some (if negative then -digitsValue ds else digitsValue ds)
      else none

/-- Reads the part of a number behind its sign. -/
def readUnsigned (negative : Bool) (cs : List Char) : Option Written :=
  let whole := cs.takeWhile isDecimalDigit
  let rest := cs.dropWhile isDecimalDigit
  let (fraction, rest) : List Char × List Char :=
    match rest with
    | '.' :: r => (r.takeWhile isDecimalDigit, r.dropWhile isDecimalDigit)
    | r => ([], r)
  if whole.isEmpty && fraction.isEmpty then none
  else (readExponent rest).map fun e =>
    number negative (digitsValue (whole ++ fraction)) (e - fraction.length)

/-- Reads a number or one of the words. -/
def read (cs : List Char) : Option Written :=
  let (negative, body) := splitSign cs
  let word := body.map Char.toLower
  if word = ['i', 'n', 'f'] ∨ word = ['i', 'n', 'f', 'i', 'n', 'i', 't', 'y'] then
    some (infinite negative)
  else if word = ['n', 'a', 'n'] then some notANumber
  else readUnsigned negative body

end Written

namespace Binary

variable {f : Format}

/-- The value nearest to `digits * 10 ^ exponent`.  A power of ten that lies beyond
every number of the format is decided without being computed. -/
def ofDecimal (negative : Bool) (digits : Nat) (exponent : Int) : Binary f :=
  let point : Int := (Nat.toDigits 10 digits).length + exponent
  let reach : Int := f.oneExponent
  if digits = 0 then zero negative
  else if reach + 1 < point then infinite negative
  else if point < -reach then zero negative
  else if 0 ≤ exponent then ofQuotient negative (digits * Nat.pow 10 exponent.toNat) 1
  else ofQuotient negative digits (Nat.pow 10 (-exponent).toNat)

/-- The value that a text says. -/
def ofWritten : Written → Binary f
  | .number negative digits exponent => ofDecimal negative digits exponent
  | .infinite negative => infinite negative
  | .notANumber => notANumber

/-- Reads a value from decimal text. -/
def read (cs : List Char) : Option (Binary f) := (Written.read cs).map ofWritten

/-- Reads a finite value; a number that is too large for the format is refused. -/
def readFinite (cs : List Char) : Option (Binary f) := (read cs).filter isFinite

/-- What `readFinite` reads is finite. -/
theorem isFinite_of_readFinite {cs : List Char} {x : Binary f} (h : readFinite cs = some x) :
    x.isFinite = true := by
  rw [readFinite, Option.filter_eq_some_iff] at h
  exact h.2

end Binary

end SongSheet
