/-
SongSheet/Text/Numeral.lean

Whole numbers written with digits.

`readDigits radix` reads a non-empty run of digits and nothing else; letters of
either case stand for the digits from ten on.  `readNatural` is the form in
which a sheet writes a whole number: an optional `+` and decimal digits, with a
largest value.
-/

namespace SongSheet.Text

/-- The value of an ASCII digit or letter in the given radix. -/
def digitValue (radix : Nat) (c : Char) : Option Nat :=
  let n := c.toNat
  let v :=
    if '0' ≤ c ∧ c ≤ '9' then n - 48
    else if 'a' ≤ c ∧ c ≤ 'z' then n - 87
    else if 'A' ≤ c ∧ c ≤ 'Z' then n - 55
    else radix
  if v < radix then some v else none

/-- Decimal digits. -/
def isDecimalDigit (c : Char) : Bool := '0' ≤ c && c ≤ '9'

/-- The value of a digit in its radix is below the radix. -/
theorem digitValue_lt {radix v : Nat} {c : Char} (h : digitValue radix c = some v) : v < radix := by
  simp only [digitValue] at h
  generalize (if '0' ≤ c ∧ c ≤ '9' then c.toNat - 48 else _) = w at h
  by_cases hw : w < radix
  · simp only [hw, if_true, Option.some.injEq] at h
    exact h ▸ hw
  · simp [hw] at h

/-- Reads a non-empty run of digits. -/
def readDigits (radix : Nat) (cs : List Char) : Option Nat :=
  if cs.isEmpty then none
  else cs.foldlM (fun v c => (digitValue radix c).map (v * radix + ·)) 0

/-- The text without a leading `+`, if it has one. -/
def dropPlus : List Char → List Char
  | '+' :: cs => cs
  | cs => cs

/-- Reads a decimal number of at most `largest`, with an optional `+` in front. -/
def readNatural (largest : Nat) (cs : List Char) : Option Nat :=
  (readDigits 10 (dropPlus cs)).filter (· ≤ largest)

/-- What `readNatural` reads is in range. -/
theorem readNatural_le {largest n : Nat} {cs : List Char}
    (h : readNatural largest cs = some n) : n ≤ largest := by
  rw [readNatural, Option.filter_eq_some_iff] at h
  simpa using h.2

end SongSheet.Text
