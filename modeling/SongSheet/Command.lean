/-
SongSheet/Command.lean

The commands of a sheet, and reading them from its text.

A sheet is read line by line.  What follows the first `;` of a line is a
comment; a line with nothing but blanks before it says nothing.  A line that
starts with `#` is a command: its first word is the keyword, the others are
arguments, and arguments that the command does not take are not looked at.  Any
other line is a row of cells, `pitch+pitch+…:length`.

Reading is local: a line is decoded from its own text alone (`Command.ofLine`),
and the first line that cannot be decoded decides the error of the whole text
(`readCommands`).
-/
import SongSheet.Text.Blank
import SongSheet.Text.Lines
import SongSheet.Text.Numeral
import SongSheet.Text.Split
import SongSheet.Binary.Decimal
import SongSheet.Pitch
import SongSheet.Sheet
import SongSheet.SheetError

namespace SongSheet

open Text SheetError

/-! ### Commands -/

/-- The pitches that start together, and how long they last. -/
structure Cell where
  pitches : List Single
  value : NoteValue
  deriving DecidableEq

/-- A command with its arguments. -/
inductive Command where
  /-- The tempo, in beats a minute. -/
  | bpm (bpm : Nat)
  | pan (pan : Single)
  | volume (volume : Single)
  | type (timbre : Timbre)
  | track (name : String)
  | loop (count : Nat)
  | endLoop
  | notes (cells : List Cell)
  deriving DecidableEq

/-- A command and the line it stands on. -/
structure Located where
  line : Nat
  command : Command
  deriving DecidableEq

/-! ### Cells -/

namespace Cell

/-- The frequency of a pitch name. -/
def readPitch (name : List Char) : Except Cause Single :=
  match Pitch.frequency name with
  | some f => .ok f
  | none => .error (.unknownPitch (String.ofList name))

/-- Reads a cell: pitch names joined by `+`, a colon, and the code of a length. -/
def read (cs : List Char) : Except Cause Cell :=
  match splitFirst ':' cs with
  | none => .error (.malformedCell (String.ofList cs))
  | some (names, code) => do
      let pitches ← (splitAll '+' names).mapM readPitch
      match NoteValue.ofCode code with
      | some value => .ok ⟨pitches, value⟩
      | none => .error (.unknownDuration (String.ofList code))

end Cell

/-! ### Lines -/

namespace Command

/-- The largest whole number of a sheet. -/
def largestNumber : Nat := Nat.pow 2 32 - 1

/-- The first argument of a command. -/
def argument (k : Keyword) : List (List Char) → Except Cause (List Char)
  | [] => .error (.missingArgument k)
  | w :: _ => .ok w

/-- The value of an argument, where it has one. -/
def valueOf {α : Type} (k : Keyword) (w : List Char) : Option α → Except Cause α
  | some v => .ok v
  | none => .error (.invalidArgument k (String.ofList w))

/-- The timbre with a name. -/
def readTimbre (w : List Char) : Except Cause Timbre :=
  match Timbre.ofName (String.ofList w) with
  | some t => .ok t
  | none => .error (.unknownTimbre (String.ofList w))

/-- Reads the arguments behind a keyword. -/
def ofKeyword (k : Keyword) (args : List (List Char)) : Except Cause Command :=
  match k with
  | .bpm => do
      let w ← argument .bpm args
      return .bpm (← valueOf .bpm w ((readNatural largestNumber w).filter (0 < ·)))
  | .pan => do
      let w ← argument .pan args
      return .pan (← valueOf .pan w (Binary.readFinite w))
  | .volume => do
      let w ← argument .volume args
      return .volume (← valueOf .volume w (Binary.readFinite w))
  | .type => do
      let w ← argument .type args
      return .type (← readTimbre w)
  | .track => do
      let w ← argument .track args
      return .track (String.ofList w)
  | .loop => do
      let w ← argument .loop args
      return .loop (← valueOf .loop w (readNatural largestNumber w))
  | .endLoop => .ok .endLoop
  | .notes => do return .notes (← args.mapM Cell.read)

/-- Reads a command from the text behind its `#`. -/
def ofDirective (cs : List Char) : Except Cause Command :=
  let (word, args) :=
    match words cs with
    | [] => ([], [])
    | w :: ws => (w, ws)
  match Keyword.ofText (String.ofList word) with
  | some k => ofKeyword k args
  | none => .error (.unknownCommand (String.ofList word))

/-- The text of a line without its comment and the blanks at its ends. -/
def content (line : List Char) : List Char := trim (line.takeWhile (· != ';'))

/-- Reads a line; `none` where it says nothing. -/
def ofLine (line : List Char) : Except Cause (Option Command) :=
  match content line with
  | [] => .ok none
  | '#' :: cs => (ofDirective cs).map some
  | cs => do return some (.notes (← (words cs).mapM Cell.read))

end Command

/-! ### Texts -/

/-- Reads lines that are counted from `line` on, up to the first that cannot be
decoded. -/
def readLines : Nat → List (List Char) → Except SheetError (List Located)
  | _, [] => .ok []
  | line, l :: ls =>
      match Command.ofLine l with
      | .error cause => .error ⟨line, cause⟩
      | .ok found => do
          let rest ← readLines (line + 1) ls
          return match found with
            | none => rest
            | some c => ⟨line, c⟩ :: rest

/-- The commands of a text, with their lines. -/
def readCommands (text : List Char) : Except SheetError (List Located) :=
  readLines 1 (lines text)

end SongSheet
