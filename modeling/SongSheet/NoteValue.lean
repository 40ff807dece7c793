/-
SongSheet/NoteValue.lean

Note values: the lengths a note can be written with.

A note value is a plain one (whole to sixteenth) or its dotted form, half as
long again.  Lengths are counted in eighths of a beat, where a quarter note is
one beat; that makes all ten of them whole numbers.  At a tempo of `bpm` beats a
minute a note of `n` eighths lasts `n * 60 / (8 * bpm)` seconds, rounded once; at
tempo 0 it never ends.
-/
import SongSheet.Binary.Value

namespace SongSheet

/-- The plain note values. -/
inductive PlainValue where
  | whole
  | half
  | quarter
  | eighth
  | sixteenth
  deriving DecidableEq, Repr

/-- A note value, dotted or not. -/
structure NoteValue where
  plain : PlainValue
  dotted : Bool
  deriving DecidableEq, Repr

namespace PlainValue

/-- All plain note values, the longest first. -/
def all : List PlainValue := [whole, half, quarter, eighth, sixteenth]

/-- The letter of a plain note value. -/
def letter : PlainValue → Char
  | whole => 'w'
  | half => 'h'
  | quarter => 'q'
  | eighth => 'e'
  | sixteenth => 's'

/-- The plain note value of a letter. -/
def ofLetter (c : Char) : Option PlainValue := all.find? (·.letter == c)

/-- The length in sixteenths of a quarter beat, that is, four for a beat. -/
def quarterBeats : PlainValue → Nat
  | whole => 16
  | half => 8
  | quarter => 4
  | eighth => 2
  | sixteenth => 1

theorem ofLetter_letter (v : PlainValue) : ofLetter v.letter = some v := by
  cases v <;> rfl

end PlainValue

namespace NoteValue

/-- All note values: the plain ones, then the dotted ones. -/
def all : List NoteValue :=
  PlainValue.all.map (⟨·, false⟩) ++ PlainValue.all.map (⟨·, true⟩)

/-- The code of a note value in a cell. -/
def code (v : NoteValue) : List Char :=
  if v.dotted then ['d', v.plain.letter] else [v.plain.letter]

/-- The note value of a code. -/
def ofCode : List Char → Option NoteValue
  | [c] => (PlainValue.ofLetter c).map (⟨·, false⟩)
  | ['d', c] => (PlainValue.ofLetter c).map (⟨·, true⟩)
  | _ => none

/-- The plain note value under a dotted one. -/
def undotted (v : NoteValue) : Option NoteValue :=
  if v.dotted then some ⟨v.plain, false⟩ else none

/-- The length in eighths of a beat. -/
def eighths (v : NoteValue) : Nat :=
  if v.dotted then 3 * v.plain.quarterBeats else 2 * v.plain.quarterBeats

/-- The length in beats. -/
def beats (v : NoteValue) : Double := Binary.ofQuotient false v.eighths 8

/-- The length in seconds at a tempo. -/
def seconds (v : NoteValue) (bpm : Nat) : Double :=
  if bpm = 0 then Binary.infinite false
  else Binary.ofQuotient false (v.eighths * 60) (8 * bpm)

theorem ofCode_code (v : NoteValue) : ofCode v.code = some v := by
  obtain ⟨p, d⟩ := v
  cases d <;> cases p <;> rfl

/-- A dotted note value is half as long again as the plain one under it. -/
theorem two_mul_eighths_of_undotted {v u : NoteValue} (h : v.undotted = some u) :
    2 * v.eighths = 3 * u.eighths := by
  obtain ⟨p, d⟩ := v
  cases d
  · simp [undotted] at h
  · obtain rfl : ⟨p, false⟩ = u := by simpa [undotted] using h
    simp only [eighths, if_true, Bool.false_eq_true, if_false]
    omega

end NoteValue

end SongSheet
