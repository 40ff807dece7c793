/-
SongSheet/Playback/Request.lean

What a renderer is asked for: one pitch of one note.

A request says when the tone starts and how long it sounds, in nanoseconds.  The
start lies ahead of the clock as a rule, but may also be in the past.
-/
import SongSheet.Binary.Layout
import SongSheet.Clock
import SongSheet.Sheet

namespace SongSheet.Playback

/-- One pitch to be sounded. -/
structure Request where
  /-- In Hz, zero for a rest. -/
  frequency : Single
  /-- In nanoseconds. -/
  duration : Nat
  timbre : Timbre
  pan : Single
  volume : Single
  /-- The instant at which the tone is to be heard. -/
  start : Nat
  deriving DecidableEq

namespace Request

/-- The request for a pitch of a note that lasts `duration` from `start` on. -/
def ofNote (n : Note) (duration start : Nat) (frequency : Single) : Request :=
  ⟨frequency, duration, n.timbre, n.pan, n.volume, start⟩

/-- Nothing sounds. -/
def isRest (r : Request) : Bool := r.frequency.isZero

/-- The instant at which the tone is over. -/
def stop (r : Request) : Nat := r.start + r.duration

end Request

/-- A failure of the device behind a renderer. -/
structure RenderError where
  frequency : Single
  reason : String
  deriving DecidableEq

/-- The wording of a failure. -/
def RenderError.message (e : RenderError) : String :=
  s!"tone renderer failed at {String.ofList (Layout.running.render e.frequency)} Hz: {e.reason}"

end SongSheet.Playback
