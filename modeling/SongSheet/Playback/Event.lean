/-
SongSheet/Playback/Event.lean

What a playback tells while it goes on.

An event has a level, a message and named values.
-/
import SongSheet.Builder
import SongSheet.MasterBus
import SongSheet.Playback.Tone

namespace SongSheet.Playback

/-- How much an event matters. -/
inductive Level where
  | debug
  | info
  | warn
  | error
  deriving DecidableEq, Repr

/-- Events of this level are told without being asked for. -/
def Level.isShown : Level → Bool
  | debug => false
  | info | warn | error => true

/-- The name of a level. -/
def Level.name : Level → String
  | debug => "DEBUG"
  | info => "INFO"
  | warn => "WARN"
  | error => "ERROR"

/-- A value in an event. -/
inductive Detail where
  | text (s : String)
  | number (n : Nat)
  | flag (b : Bool)
  | single (x : Single)
  deriving DecidableEq

/-- Something worth telling. -/
inductive Event where
  /-- A step in the construction of the sheet. -/
  | building (e : Builder.Event)
  | volumeSet (bus : MasterBus)
  | started (tracks notes : Nat)
  | finished (notes : Nat) (cancelled : Bool)
  | trackStarted (track : String) (notes : Nat)
  /-- A track is too far ahead of the clock. -/
  | waiting (track : String)
  | trackCancelled (track : String) (scheduled : Nat)
  /-- A track was cut short after its last note had been scheduled. -/
  | trackStopped (track : String)
  | trackFinished (track : String) (completed failed : Nat)
  | trackCrashed
  | toneFailed (track : String) (e : RenderError)
  | toneCrashed (track : String)
  /-- A tone says something, at a gain of the master bus. -/
  | said (r : Remark) (gain : Single)
  deriving DecidableEq

namespace Event

/-- The level of an event. -/
def level : Event → Level
  | started .. | finished .. | trackCancelled .. | trackStopped .. | said (.sounds _) _ => .info
  | toneFailed .. => .warn
  | trackCrashed | toneCrashed _ => .error
  | _ => .debug

/-- The message of an event. -/
def message : Event → String
  | building (.declaring ..) => "declaring track"
  | building (.expanding ..) => "expanding loop"
  | volumeSet _ => "master volume set"
  | started .. => "starting playback"
  | finished .. => "playback finished"
  | trackStarted .. => "track started"
  | waiting _ => "cursor ahead of look-ahead horizon, waiting"
  | trackCancelled .. => "track cancelled"
  | trackStopped _ => "track stopped during its last notes"
  | trackFinished .. => "track finished"
  | trackCrashed => "track task failed"
  | toneFailed _ e => e.message
  | toneCrashed _ => "tone task failed"
  | said (.sounds _) _ => "tone"
  | said (.cancelledBeforeStart _) _ => "tone cancelled before start"
  | said (.stoppedEarly _) _ => "tone stopped early"

/-- Whole milliseconds, in 64 bits. -/
def milliseconds (nanoseconds : Nat) : Nat := nanoseconds / Clock.millisecond % Nat.pow 2 64

/-- The named values of an event. -/
def details : Event → List (String × Detail)
  | building (.declaring track line) => [("track", .text track), ("line", .number line)]
  | building (.expanding count notes openedAt) =>
      [("count", .number count), ("notes", .number notes), ("opened_at", .number openedAt)]
  | volumeSet bus => [("volume", .single bus.volume), ("gain", .single bus.gain)]
  | started tracks notes => [("tracks", .number tracks), ("notes", .number notes)]
  | finished notes cancelled => [("notes", .number notes), ("cancelled", .flag cancelled)]
  | trackStarted track notes => [("track", .text track), ("notes", .number notes)]
  | waiting track | trackStopped track | toneFailed track _ | toneCrashed track =>
      [("track", .text track)]
  | trackCancelled track scheduled => [("track", .text track), ("scheduled", .number scheduled)]
  | trackFinished track completed failed =>
      [("track", .text track), ("completed", .number completed), ("failed", .number failed)]
  | trackCrashed => []
  | said (.sounds r) gain =>
      [("frequency", .single r.frequency), ("duration_ms", .number (milliseconds r.duration)),
        ("timbre", .text r.timbre.name), ("pan", .single r.pan),
        ("gain", .single (r.volume.mul gain))]
  | said (.cancelledBeforeStart frequency) _ | said (.stoppedEarly frequency) _ =>
      [("frequency", .single frequency)]

/-- What is told of a tone when it is counted; nothing of one that ended well. -/
def ofOutcome (track : String) : Outcome → Option Event
  | .completed => none
  | .failed e => some (.toneFailed track e)
  | .crashed => some (.toneCrashed track)

/-- A named value in a line of text. -/
def detailText : String × Detail → String
  | (name, .text s) => s!" {name}={s}"
  | (name, .number n) => s!" {name}={n}"
  | (name, .flag true) => s!" {name}=true"
  | (name, .flag false) => s!" {name}=false"
  | (name, .single x) => s!" {name}={String.ofList (Layout.running.render x)}"

/-- An event as a line of text. -/
def line (e : Event) : String :=
  s!"{e.level.name} {e.message}" ++ String.join (e.details.map detailText)

end Event

end SongSheet.Playback
