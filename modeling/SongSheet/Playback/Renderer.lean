/-
SongSheet/Playback/Renderer.lean

What turns requests into tones.

A renderer may keep something in mind from one call to the next.  It is handed the
token and the master bus with each request, so it sees them, and may fire the one
and set the other while it is called.  It reacts to a call with a tone, or breaks
down in the call itself.  How many deadlines its tones wait for is known before.

The logging renderer makes no sound: each tone says when it would be heard, or
that it was cut short.
-/
import SongSheet.MasterBus
import SongSheet.Playback.Tone

namespace SongSheet.Playback

/-- What a renderer sees in a call, besides the request. -/
structure Surroundings where
  now : Nat
  /-- The token of the playback is fired. -/
  cancelled : Bool
  bus : MasterBus
  deriving DecidableEq

/-- What comes of a call. -/
structure Reaction where
  /-- The call fires the token of the playback. -/
  cancels : Bool
  /-- The volume the master bus is set to, if it is. -/
  volume : Option Single
  /-- The tone; `none` when the call breaks down. -/
  tone : Option Tone

/-- A way to make tones, with a memory of the type `σ`. -/
structure Renderer (σ : Type) where
  /-- The memory before the first call. -/
  memory : σ
  /-- Reacts to a call. -/
  react : σ → Surroundings → Request → σ × Reaction
  /-- How many deadlines one tone waits for at most. -/
  waits : Nat
  waitsAtMost : ∀ memory surroundings r t, (react memory surroundings r).2.tone = some t →
    t.WaitsAtMost waits

namespace Tone

/-- Is heard from its start to its stop, and says so. -/
def logging (r : Request) : Tone :=
  let sounding := wait r.stop (ended .completed) fun _ =>
    say (.stoppedEarly r.frequency) (ended .completed)
  wait r.start (if r.isRest then sounding else say (.sounds r) sounding) fun _ =>
    say (.cancelledBeforeStart r.frequency) (ended .completed)

theorem waitsAtMost_logging (r : Request) : (logging r).WaitsAtMost 2 := by
  have sounding : (wait r.stop (ended .completed) fun _ =>
      say (.stoppedEarly r.frequency) (ended .completed)).WaitsAtMost 1 :=
    .wait .ended fun _ => .say .ended
  refine .wait ?_ fun _ => .say .ended
  split
  · exact sounding
  · exact .say sounding

/-- Lasts until its stop, or until the token is fired. -/
def timed (r : Request) : Tone := wait r.stop (ended .completed) fun _ => ended .completed

/-- Lasts until its stop, whatever happens. -/
def stubborn (r : Request) : Tone := hold r.stop (ended .completed)

end Tone

namespace Renderer

/-- Makes no sound, and says what would be heard. -/
def logging : Renderer Unit where
  memory := ()
  react _ _ r := ((), ⟨false, none, some (.logging r)⟩)
  waits := 2
  waitsAtMost _ _ r _ h := Option.some.inj h ▸ Tone.waitsAtMost_logging r

end Renderer

end SongSheet.Playback
