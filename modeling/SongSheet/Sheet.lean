/-
SongSheet/Sheet.lean

Song sheets: tracks of notes.

A sheet is a list of named tracks that sound together, a track a list of notes
that sound one after the other.  A note carries everything it needs to sound:
its pitches in Hz (0 for a rest, several for a chord), its length in seconds,
its timbre, its place between left and right, and its volume.
-/
import SongSheet.NoteValue

namespace SongSheet

/-! ### Timbres -/

/-- The waveform of a note. -/
inductive Timbre where
  | sine
  | square
  | sawtooth
  | triangle
  deriving DecidableEq, Repr, Inhabited

namespace Timbre

/-- All timbres. -/
def all : List Timbre := [sine, square, sawtooth, triangle]

/-- The name of a timbre. -/
def name : Timbre → String
  | sine => "sine"
  | square => "square"
  | sawtooth => "sawtooth"
  | triangle => "triangle"

/-- The timbre with a name. -/
def ofName (name : String) : Option Timbre := all.find? (·.name == name)

end Timbre

/-! ### Notes and tracks -/

/-- One event of a track. -/
structure Note where
  /-- The frequencies that sound together, in Hz. -/
  pitches : List Single
  /-- The length in seconds. -/
  duration : Double
  timbre : Timbre
  /-- From -1 (left) to 1 (right). -/
  pan : Single
  /-- From 0 to 1. -/
  volume : Single
  deriving DecidableEq

namespace Note

/-- Several pitches sound together. -/
def isChord (n : Note) : Bool := 1 < n.pitches.length

/-- Nothing sounds. -/
def isRest (n : Note) : Bool := n.pitches.all Binary.isZero

end Note

/-- A named run of notes. -/
structure Track where
  name : String
  notes : List Note
  deriving DecidableEq

namespace Track

/-- A track without notes. -/
def empty (name : String) : Track := ⟨name, []⟩

/-- The number of pitches in all notes. -/
def pitchCount (t : Track) : Nat := t.notes.foldr (fun n k => n.pitches.length + k) 0

/-- The length of a track in seconds: the lengths of its notes added from the
first to the last. -/
def seconds (t : Track) : Double :=
  t.notes.foldl (fun s n => s.add n.duration) (Binary.zero false)

end Track

/-! ### Sheets -/

/-- The tracks of a song, in the order of their declaration. -/
structure Sheet where
  tracks : List Track
  deriving DecidableEq

namespace Sheet

/-- The track every sheet starts with. -/
def defaultTrack : String := "default"

/-- The sheet without commands: one empty track. -/
def initial : Sheet := ⟨[Track.empty defaultTrack]⟩

/-- The first track with a name. -/
def track? (s : Sheet) (name : String) : Option Track := s.tracks.find? (·.name == name)

/-- The number of notes in all tracks. -/
def noteCount (s : Sheet) : Nat := s.tracks.foldr (fun t n => t.notes.length + n) 0

/-- The longest of some lengths; zero if there is none. -/
def longest (lengths : List Double) : Double := lengths.foldl Binary.max (Binary.zero false)

/-- The length of the longest track in seconds. -/
def seconds (s : Sheet) : Double := longest (s.tracks.map Track.seconds)

end Sheet

end SongSheet
