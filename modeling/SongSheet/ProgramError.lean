/-
SongSheet/ProgramError.lean

What can end a run of the program, and the words it ends with.
-/
import SongSheet.Config
import SongSheet.SheetError

namespace SongSheet

/-- Why a file cannot be read. -/
inductive FileError where
  | missing
  | denied
  /-- It is a directory. -/
  | directory
  /-- Its path goes on behind a file. -/
  | notDirectory
  /-- Its name or its path is too long. -/
  | nameTooLong
  /-- Its bytes are no UTF-8 text. -/
  | notText
  | other (reason : String)
  deriving DecidableEq, Repr

/-- The wording of a file error. -/
def FileError.message : FileError → String
  | missing => "No such file or directory (os error 2)"
  | denied => "Permission denied (os error 13)"
  | directory => "Is a directory (os error 21)"
  | notDirectory => "Not a directory (os error 20)"
  | nameTooLong => "File name too long (os error 36)"
  | notText => "stream did not contain valid UTF-8"
  | other reason => reason

/-- The text of the bytes of a file. -/
def FileError.decode (bytes : ByteArray) : Except FileError (List Char) :=
  match String.fromUTF8? bytes with
  | some text => .ok text.toList
  | none => .error .notText

/-- Why there is no result. -/
inductive ProgramError where
  | file (e : FileError)
  | config (r : Config.Refusal)
  | sheet (e : SheetError)

namespace ProgramError

/-- The wording of an error; of a configuration only where it has one. -/
def message? : ProgramError → Option String
  | file e => some e.message
  | config r => r.message.map ("Invalid configuration: " ++ ·)
  | sheet e => some ("Parse error at " ++ e.message)

/-- The wording of an error, without a reason where there is none to give. -/
def message (e : ProgramError) : String := e.message?.getD "Invalid configuration"

end ProgramError

end SongSheet
