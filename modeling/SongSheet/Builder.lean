/-
SongSheet/Builder.lean

Running commands into a sheet.

A builder holds the settings that new notes take over (tempo, timbre, pan,
volume), the tracks declared so far, the name of the active one, and the loops
that are open, the innermost first.  New notes go to one place, the *target*:
the innermost open loop, or the active track when none is open.  Closing a loop
repeats its notes onto the target behind it, so nested loops multiply.

A loop may not leave more than `noteLimit` notes on its target; rows of cells
are not limited.  A sheet whose commands fail yields no tracks at all.
-/
import SongSheet.Command

namespace SongSheet

open SheetError

/-! ### The state -/

/-- What a new note takes over. -/
structure Settings where
  bpm : Nat
  timbre : Timbre
  pan : Single
  volume : Single
  deriving DecidableEq

namespace Settings

/-- A tempo of 120 beats a minute, square waves, in the middle, at full volume. -/
def initial : Settings := ⟨120, .square, Binary.zero false, Binary.ofNat 1⟩

/-- The range of pans. -/
def clampPan (x : Single) : Single :=
  x.clamp (Binary.ofQuotient true 1 1) (Binary.ofNat 1)

/-- The range of volumes. -/
def clampVolume (x : Single) : Single := x.clamp (Binary.zero false) (Binary.ofNat 1)

/-- The note of a cell. -/
def note (s : Settings) (c : Cell) : Note :=
  ⟨c.pitches, c.value.seconds s.bpm, s.timbre, s.pan, s.volume⟩

end Settings

/-- A loop that is not closed yet. -/
structure OpenLoop where
  count : Nat
  notes : List Note
  /-- The line it was opened on. -/
  line : Nat
  deriving DecidableEq

/-- A sheet under construction. -/
structure Builder where
  settings : Settings
  /-- The name of the active track. -/
  active : String
  /-- The open loops, the innermost first. -/
  loops : List OpenLoop
  tracks : List Track
  deriving DecidableEq

namespace Builder

/-- The state before the first command. -/
def initial : Builder := ⟨Settings.initial, Sheet.defaultTrack, [], Sheet.initial.tracks⟩

/-- The most notes a loop may leave on its target. -/
def noteLimit : Nat := 1000000

/-! ### Tracks and targets -/

/-- Empties the track with a name where it stands, or adds it at the end. -/
def declare (name : String) : List Track → List Track
  | [] => [Track.empty name]
  | t :: ts => if t.name = name then ⟨t.name, []⟩ :: ts else t :: declare name ts

/-- Changes the notes of the first track with a name; `none` if there is none. -/
def updateTrack (name : String) (g : List Note → List Note) : List Track → Option (List Track)
  | [] => none
  | t :: ts =>
      if t.name = name then some (⟨t.name, g t.notes⟩ :: ts)
      else (updateTrack name g ts).map (t :: ·)

/-- The notes that new ones are added to. -/
def target (b : Builder) : Option (List Note) :=
  match b.loops with
  | l :: _ => some l.notes
  | [] => (b.tracks.find? (·.name = b.active)).map (·.notes)

/-- Adds notes to the target. -/
def append (b : Builder) (line : Nat) (notes : List Note) : Except SheetError Builder :=
  match b.loops with
  | l :: ls => .ok { b with loops := { l with notes := l.notes ++ notes } :: ls }
  | [] =>
      match updateTrack b.active (· ++ notes) b.tracks with
      | some ts => .ok { b with tracks := ts }
      | none => .error ⟨line, .undeclaredTrack b.active⟩

/-- A list of notes, `count` times. -/
def repeated (count : Nat) (notes : List Note) : List Note :=
  if notes.isEmpty then [] else (List.replicate count notes).flatten

/-- An empty list makes no difference. -/
theorem repeated_eq (count : Nat) (notes : List Note) :
    repeated count notes = (List.replicate count notes).flatten := by
  cases notes with
  | nil => simp [repeated]
  | cons n ns => rfl

/-- So many copies of some notes have so many times their number. -/
theorem length_copies (count : Nat) (notes : List Note) :
    (List.replicate count notes).flatten.length = notes.length * count := by
  simp [Nat.mul_comm]

theorem length_repeated (count : Nat) (notes : List Note) :
    (repeated count notes).length = notes.length * count := by
  rw [repeated_eq, length_copies]

/-! ### Commands -/

/-- Closes the innermost loop. -/
def closeLoop (b : Builder) (line : Nat) : Except SheetError Builder :=
  match b.loops with
  | [] => .error ⟨line, .unmatchedEndLoop⟩
  | l :: ls =>
      let outer := { b with loops := ls }
      match outer.target with
      | none => .error ⟨line, .undeclaredTrack b.active⟩
      | some notes =>
          if l.notes.length * l.count + notes.length ≤ noteLimit then
            outer.append line (repeated l.count l.notes)
          else .error ⟨l.line, .loopTooLarge noteLimit⟩

/-- Runs one command. -/
def step (b : Builder) (c : Located) : Except SheetError Builder :=
  match c.command with
  | .bpm n => .ok { b with settings := { b.settings with bpm := n } }
  | .pan x => .ok { b with settings := { b.settings with pan := Settings.clampPan x } }
  | .volume x => .ok { b with settings := { b.settings with volume := Settings.clampVolume x } }
  | .type t => .ok { b with settings := { b.settings with timbre := t } }
  | .track name => .ok { b with active := name, tracks := declare name b.tracks }
  | .loop n => .ok { b with loops := ⟨n, [], c.line⟩ :: b.loops }
  | .endLoop => b.closeLoop c.line
  | .notes cells => b.append c.line (cells.map b.settings.note)

/-- Runs commands from a state on. -/
def run (b : Builder) (cs : List Located) : Except SheetError Builder := cs.foldlM step b

/-- The sheet of a state in which no loop is open. -/
def finish (b : Builder) : Except SheetError Sheet :=
  match b.loops with
  | l :: _ => .error ⟨l.line, .unclosedLoop⟩
  | [] => .ok ⟨b.tracks⟩

@[simp] theorem run_nil (b : Builder) : b.run [] = .ok b := rfl

@[simp] theorem run_cons (b : Builder) (c : Located) (cs : List Located) :
    b.run (c :: cs) = (b.step c).bind (·.run cs) := rfl

/-- Commands run one part after the other. -/
theorem run_append (b : Builder) (cs ds : List Located) :
    b.run (cs ++ ds) = (b.run cs).bind (·.run ds) := by
  induction cs generalizing b with
  | nil => rfl
  | cons c cs ih =>
      simp only [List.cons_append, run_cons]
      cases b.step c with
      | error e => rfl
      | ok b' => exact ih b'

/-! ### What an observer sees -/

/-- A step of the construction worth telling about. -/
inductive Event where
  | declaring (track : String) (line : Nat)
  | expanding (count notes openedAt : Nat)
  deriving DecidableEq, Repr

/-- What a command announces before it takes effect. -/
def announce (b : Builder) (c : Located) : List Event :=
  match c.command, b.loops with
  | .track name, _ => [.declaring name c.line]
  | .endLoop, l :: _ => [.expanding l.count l.notes.length l.line]
  | _, _ => []

/-- What the commands announce, up to the first that fails. -/
def events (b : Builder) : List Located → List Event
  | [] => []
  | c :: cs =>
      b.announce c ++
        match b.step c with
        | .ok b' => b'.events cs
        | .error _ => []

end Builder

/-! ### Sheets from commands and from text -/

namespace Sheet

/-- The sheet of a list of commands. -/
def ofCommands (cs : List Located) : Except SheetError Sheet := do
  (← Builder.initial.run cs).finish

/-- The sheet of a text.  All of the text is read before the first command runs. -/
def ofText (text : List Char) : Except SheetError Sheet := do
  ofCommands (← readCommands text)

/-- What is announced while a text is made into a sheet. -/
def eventsOfText (text : List Char) : List Builder.Event :=
  match readCommands text with
  | .ok cs => Builder.initial.events cs
  | .error _ => []

end Sheet

end SongSheet
