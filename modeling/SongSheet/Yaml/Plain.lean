/-
SongSheet/Yaml/Plain.lean

What an unquoted scalar of a YAML document stands for.

    null      the empty text, `~`, `null`, `Null`, `NULL`
    Boolean   `true`, `True`, `TRUE`, `false`, `False`, `FALSE`
    integer   [sign] digits, or [sign] `0x`, `0o`, `0b` and digits of that radix; 128 bits at most
    float     a finite decimal number, [sign] `.inf`, or `.nan`
    text      anything else

Two or more decimal digits that start with `0` are neither an integer nor a
float.  The kinds are tried in this order.
-/
import SongSheet.Binary.Decimal

namespace SongSheet.Yaml

open Text

/-- What an unquoted scalar stands for. -/
inductive Plain where
  | null
  | boolean (b : Bool)
  | integer (n : Int)
  | float (x : Double)
  | text
  deriving DecidableEq

namespace Plain

/-- The spellings of null. -/
def nullWords : List (List Char) :=
  [['~'], ['n', 'u', 'l', 'l'], ['N', 'u', 'l', 'l'], ['N', 'U', 'L', 'L']]

/-- The spellings of true. -/
def trueWords : List (List Char) :=
  [['t', 'r', 'u', 'e'], ['T', 'r', 'u', 'e'], ['T', 'R', 'U', 'E']]

/-- The spellings of false. -/
def falseWords : List (List Char) :=
  [['f', 'a', 'l', 's', 'e'], ['F', 'a', 'l', 's', 'e'], ['F', 'A', 'L', 'S', 'E']]

/-- The spellings of infinity. -/
def infinityWords : List (List Char) :=
  [['.', 'i', 'n', 'f'], ['.', 'I', 'n', 'f'], ['.', 'I', 'N', 'F']]

/-- The spellings of what is not a number. -/
def notANumberWords : List (List Char) :=
  [['.', 'n', 'a', 'n'], ['.', 'N', 'a', 'N'], ['.', 'N', 'A', 'N']]

/-- The text reads as null. -/
def isNull (cs : List Char) : Bool := cs.isEmpty || nullWords.contains cs

/-- Two or more decimal digits of which the first is `0`, behind an optional sign. -/
def hasLeadingZero (cs : List Char) : Bool :=
  match (Written.splitSign cs).2 with
  | '0' :: ds => !ds.isEmpty && ds.all isDecimalDigit
  | _ => false

/-- Reads the magnitude of an integer. -/
def readMagnitude : List Char → Option Nat
  | '0' :: 'x' :: ds => readDigits 16 ds
  | '0' :: 'o' :: ds => readDigits 8 ds
  | '0' :: 'b' :: ds => readDigits 2 ds
  | ds => if hasLeadingZero ds then none else readDigits 10 ds

/-- Reads an integer of at most 128 bits. -/
def readInteger (cs : List Char) : Option Int :=
  let (negative, body) := Written.splitSign cs
  (readMagnitude body).bind fun n =>
    if negative then if n ≤ Nat.pow 2 127 then some (-(n : Int)) else none
    else if n < Nat.pow 2 128 then some (n : Int) else none

/-- Reads a float.  Unlike an unquoted scalar as a whole, a float may have leading zeros. -/
def readFloat (cs : List Char) : Option Double :=
  match cs with
  | '+' :: body =>
      if infinityWords.contains body then some (Binary.infinite false)
      else match body with
        | '+' :: _ => none
        | '-' :: _ => none
        | _ => Binary.readFinite body
  | _ =>
      if infinityWords.contains cs then some (Binary.infinite false)
      else if infinityWords.any (fun w => '-' :: w == cs) then some (Binary.infinite true)
      else if notANumberWords.contains cs then some Binary.notANumber
      else Binary.readFinite cs

/-- What an unquoted scalar stands for. -/
def ofText (cs : List Char) : Plain :=
  if isNull cs then null
  else if trueWords.contains cs then boolean true
  else if falseWords.contains cs then boolean false
  else match readInteger cs with
    | some n => integer n
    | none =>
        if hasLeadingZero cs then text
        else match readFloat cs with
          | some x => float x
          | none => text

end Plain

end SongSheet.Yaml
