/-
SongSheet/Pitch.lean

Pitch names, their numbers and their frequencies.

A pitch name is a letter `A` to `G`, an optional `#` or `b`, and one digit `1`
to `7`; `-` is a rest.  Pitches are numbered in semitones, 12 to an octave, with
69 for `A4`; names may spell one pitch in several ways (`Cb4` is `B3`).

Tuning is equal temperament with 440 Hz for `A4`: semitone `n` has the frequency
`440 * 2 ^ ((n - 69) / 12)`.  An octave doubles the frequency, so the 24-bit
significands of one octave (`significand`) serve them all: the frequency of
semitone `n` is the significand of `n % 12`, scaled by the octave.  Each entry is
the whole number nearest to the exact one (`significand_nearest`): a whole number
`s` is nearest to the twelfth root of `x` when `(2s - 1) ^ 12 < 2 ^ 12 x < (2s + 1) ^ 12`.
-/
import SongSheet.Binary.Value

namespace SongSheet.Pitch

/-! ### Names -/

/-- Semitones from C to a natural note. -/
def natural : Char → Option Nat
  | 'C' => some 0
  | 'D' => some 2
  | 'E' => some 4
  | 'F' => some 5
  | 'G' => some 7
  | 'A' => some 9
  | 'B' => some 11
  | _ => none

/-- An accidental in front of the octave: its semitones, and the rest. -/
def splitAccidental : List Char → Int × List Char
  | '#' :: cs => (1, cs)
  | 'b' :: cs => (-1, cs)
  | cs => (0, cs)

/-- The octave: exactly one digit from 1 to 7. -/
def octave : List Char → Option Nat
  | [c] => if '1' ≤ c ∧ c ≤ '7' then some (c.toNat - 48) else none
  | _ => none

/-- The number of a pitch, by its name. -/
def number : List Char → Option Int
  | [] => none
  | c :: cs => do
      let base ← natural c
      let (accidental, digits) := splitAccidental cs
      let o ← octave digits
      return 12 * (o + 1) + base + accidental

/-! ### Frequencies -/

/-- The 24-bit significand of a semitone's frequency, counted from C. -/
def significand (semitone : Nat) : Nat :=
  match semitone with
  | 0 => 8572947
  | 1 => 9082720
  | 2 => 9622807
  | 3 => 10195009
  | 4 => 10801236
  | 5 => 11443511
  | 6 => 12123977
  | 7 => 12844906
  | 8 => 13608704
  | 9 => 14417920
  | 10 => 15275254
  | _ => 16183568

/-- Each significand is the whole number nearest to `440 * 2 ^ 15 * 2 ^ ((k - 9) / 12)`. -/
theorem significand_nearest : ∀ k < 12,
    let exact := Nat.pow (880 * Nat.pow 2 15) 12 * Nat.pow 2 k
    Nat.pow (2 * significand k - 1) 12 * Nat.pow 2 9 < exact ∧
      exact < Nat.pow (2 * significand k + 1) 12 * Nat.pow 2 9 := by
  decide

/-- The frequency of a semitone in Hz. -/
def tuned (semitone : Nat) : Single :=
  Binary.ofQuotient false (significand (semitone % 12) * Nat.pow 2 (semitone / 12)) (Nat.pow 2 20)

/-- The spelling of a rest. -/
def rest : List Char := ['-']

/-- The frequency of a pitch by its name; a rest has frequency zero. -/
def frequency (name : List Char) : Option Single :=
  if name = rest then some (Binary.zero false)
  else (number name).map fun n => tuned n.toNat

end SongSheet.Pitch
