/-
SongSheet/SheetError.lean

What can be wrong with a sheet.

An error is the line it was found on and a cause.  The wording of all causes is
in one place, `SheetError.message`.
-/

namespace SongSheet

/-- The words a command line can start with. -/
inductive Keyword where
  | bpm
  | pan
  | volume
  | type
  | track
  | loop
  | endLoop
  | notes
  deriving DecidableEq, Repr

namespace Keyword

/-- All keywords. -/
def all : List Keyword := [bpm, pan, volume, type, track, loop, endLoop, notes]

/-- The spelling of a keyword, without the `#` in front. -/
def text : Keyword → String
  | bpm => "BPM"
  | pan => "PAN"
  | volume => "VOLUME"
  | type => "TYPE"
  | track => "TRACK"
  | loop => "LOOP"
  | endLoop => "ENDLOOP"
  | notes => "NOTES"

/-- The keyword with a spelling. -/
def ofText (s : String) : Option Keyword := all.find? (·.text == s)

theorem ofText_text (k : Keyword) : ofText k.text = some k := by
  cases k <;> decide

end Keyword

/-- Why a sheet is refused. -/
inductive SheetError.Cause where
  /-- The word behind `#` is no keyword. -/
  | unknownCommand (word : String)
  | missingArgument (command : Keyword)
  | invalidArgument (command : Keyword) (value : String)
  | unknownTimbre (name : String)
  /-- A cell without a colon. -/
  | malformedCell (cell : String)
  | unknownPitch (name : String)
  | unknownDuration (code : String)
  | unmatchedEndLoop
  | unclosedLoop
  /-- A loop that would leave more notes than `limit` in one place. -/
  | loopTooLarge (limit : Nat)
  | undeclaredTrack (name : String)
  deriving DecidableEq, Repr

/-- A cause and the line it was found on; lines are counted from 1. -/
structure SheetError where
  line : Nat
  cause : SheetError.Cause
  deriving DecidableEq, Repr

namespace SheetError

/-- The wording of a cause. -/
def Cause.message : Cause → String
  | unknownCommand word => s!"unknown command '#{word}'"
  | missingArgument command => s!"#{command.text} requires an argument"
  | invalidArgument command value => s!"invalid argument '{value}' for #{command.text}"
  | unknownTimbre name => s!"unknown timbre '{name}'"
  | malformedCell cell => s!"malformed cell '{cell}', expected <pitch>:<duration>"
  | unknownPitch name => s!"unknown pitch '{name}'"
  | unknownDuration code => s!"unknown duration '{code}'"
  | unmatchedEndLoop => "#ENDLOOP without a matching #LOOP"
  | unclosedLoop => "#LOOP is never closed with #ENDLOOP"
  | loopTooLarge limit => s!"#LOOP expands to more than {limit} notes"
  | undeclaredTrack name => s!"track '{name}' has not been declared"

/-- The wording of an error. -/
def message (e : SheetError) : String := s!"line {e.line}: {e.cause.message}"

end SheetError

end SongSheet
