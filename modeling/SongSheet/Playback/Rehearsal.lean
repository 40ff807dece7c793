/-
SongSheet/Playback/Rehearsal.lean

Renderers for trying a sheet out.

In a rehearsal no device is needed: tones last as long as they are told to, each
until one deadline, and the troubles of real devices can be staged, by frequency
or by the number of the call.
-/
import SongSheet.Playback.Renderer

namespace SongSheet.Playback

/-- What is staged. -/
structure Rehearsal where
  /-- The life of a tone that nothing is wrong with, up to a second deadline. -/
  tone : Request → Tone
  /-- The frequencies at which tones fail. -/
  failing : List Single
  /-- The frequencies at which tones end without a result. -/
  crashing : List Single
  /-- The frequencies at which the call itself breaks down. -/
  refusing : List Single
  /-- The call, counted from 1, that fires the token. -/
  cancelOnCall : Option Nat

namespace Rehearsal

/-- What a failing tone gives as its reason. -/
def reason : String := "oscillator unavailable"

/-- The tone for a request. -/
def toneFor (h : Rehearsal) (r : Request) : Tone :=
  if h.crashing.any r.frequency.same then .ended .crashed
  else if h.failing.any r.frequency.same then .ended (.failed ⟨r.frequency, reason⟩)
  else (h.tone r).upTo 1

theorem waitsAtMost_toneFor (h : Rehearsal) (r : Request) : (h.toneFor r).WaitsAtMost 1 := by
  rw [toneFor]
  split
  · exact .ended
  · split
    · exact .ended
    · exact Tone.waitsAtMost_upTo 1 _

/-- The reaction to the call with a number. -/
def reaction (h : Rehearsal) (call : Nat) (r : Request) : Reaction :=
  ⟨h.cancelOnCall == some call, none,
    if h.refusing.any r.frequency.same then none else some (h.toneFor r)⟩

/-- The renderer of a rehearsal; it counts its calls. -/
def renderer (h : Rehearsal) : Renderer Nat where
  memory := 0
  react calls _ r := (calls + 1, h.reaction (calls + 1) r)
  waits := 1
  waitsAtMost calls _ r t made := by
    simp only [reaction] at made
    split at made
    · cases made
    · exact Option.some.inj made ▸ h.waitsAtMost_toneFor r

end Rehearsal

end SongSheet.Playback
