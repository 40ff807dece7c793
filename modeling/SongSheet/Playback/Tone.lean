/-
SongSheet/Playback/Tone.lean

The life of a tone.

A tone is a program of waits that ends with an outcome.  A wait has a deadline,
which passes at a whole millisecond, and is cut when the token of the playback
is fired; a hold has a deadline and nothing cuts it.  In between a tone can make
remarks.

Time passes only in waits, so at each instant a tone goes on as far as it can:
`Tone.poll` follows it to the first deadline that is not reached.  A token that
is fired counts before a deadline that is reached.

No tone waits for ever more deadlines, but it may be asked how many there are
(`Tone.WaitsAtMost`), and be held to a number of them (`Tone.upTo`).
-/
import SongSheet.Playback.Request

namespace SongSheet.Playback

open Clock

/-- How a tone ended. -/
inductive Outcome where
  | completed
  | failed (e : RenderError)
  /-- It ended without a result. -/
  | crashed
  deriving DecidableEq

/-- What a tone says about itself. -/
inductive Remark where
  | sounds (r : Request)
  | cancelledBeforeStart (frequency : Single)
  | stoppedEarly (frequency : Single)
  deriving DecidableEq

/-- What is left of the life of a tone. -/
inductive Tone where
  | ended (o : Outcome)
  /-- Waits for a deadline; when it is cut, goes on by the instant of the cut. -/
  | wait (deadline : Nat) (onTime : Tone) (cut : Nat → Tone)
  /-- Waits for a deadline, come what may. -/
  | hold (deadline : Nat) (next : Tone)
  | say (r : Remark) (next : Tone)
  /-- Waits for something that does not come. -/
  | never

namespace Tone

/-- Goes on as far as possible at an instant; the remarks made, and what is left. -/
def poll (now : Nat) (cancelled : Bool) : Tone → List Remark × Tone
  | ended o => ([], ended o)
  | wait deadline onTime cut =>
      if cancelled then (cut now).poll now cancelled
      else if tick deadline ≤ now then onTime.poll now cancelled
      else ([], wait deadline onTime cut)
  | hold deadline next =>
      if tick deadline ≤ now then next.poll now cancelled else ([], hold deadline next)
  | say r next =>
      let (rs, t) := next.poll now cancelled
      (r :: rs, t)
  | never => ([], never)

/-- The outcome of a tone that is over. -/
def outcome? : Tone → Option Outcome
  | ended o => some o
  | _ => none

/-- The instant at which a tone goes on by itself. -/
def wake? : Tone → Option Nat
  | wait deadline _ _ | hold deadline _ => some (tick deadline)
  | _ => none

@[simp] theorem poll_ended (now : Nat) (cancelled : Bool) (o : Outcome) :
    (ended o).poll now cancelled = ([], ended o) := by
  simp only [poll]

/-! ### Counting deadlines -/

/-- At most `n` deadlines come one after the other, whether the tone is cut or not. -/
inductive WaitsAtMost : Nat → Tone → Prop
  | ended {n : Nat} {o : Outcome} : WaitsAtMost n (ended o)
  | wait {n deadline : Nat} {onTime : Tone} {cut : Nat → Tone} : WaitsAtMost n onTime →
      (∀ now, WaitsAtMost n (cut now)) → WaitsAtMost (n + 1) (wait deadline onTime cut)
  | hold {n deadline : Nat} {next : Tone} : WaitsAtMost n next →
      WaitsAtMost (n + 1) (hold deadline next)
  | say {n : Nat} {r : Remark} {next : Tone} : WaitsAtMost n next → WaitsAtMost n (say r next)
  | never {n : Nat} : WaitsAtMost n never

/-- Waits for `n` deadlines at most: where one more would come, the tone ends without a
result. -/
def upTo : Nat → Tone → Tone
  | _, ended o => ended o
  | n + 1, wait deadline onTime cut => wait deadline (onTime.upTo n) fun now => (cut now).upTo n
  | n + 1, hold deadline next => hold deadline (next.upTo n)
  | 0, wait .. | 0, hold .. => ended .crashed
  | n, say r next => say r (next.upTo n)
  | _, never => never

theorem waitsAtMost_upTo (n : Nat) (t : Tone) : WaitsAtMost n (t.upTo n) := by
  induction t generalizing n with
  | ended o => exact .ended
  | wait deadline onTime cut ihOnTime ihCut =>
      cases n with
      | zero => exact .ended
      | succ n => exact .wait (ihOnTime n) fun now => ihCut now n
  | hold deadline next ih =>
      cases n with
      | zero => exact .ended
      | succ n => exact .hold (ih n)
  | say r next ih =>
      cases n with
      | zero => exact .say (ih 0)
      | succ n => exact .say (ih (n + 1))
  | never => cases n <;> exact .never

/-- A tone that waits for no more deadlines is left as it is. -/
theorem WaitsAtMost.upTo_eq {n : Nat} {t : Tone} (h : WaitsAtMost n t) : t.upTo n = t := by
  induction h with
  | ended => rfl
  | wait _ _ ihOnTime ihCut => rw [upTo, ihOnTime, funext ihCut]
  | hold _ ih => rw [upTo, ih]
  | say _ ih => rw [upTo, ih]
  | never => rfl

end Tone

end SongSheet.Playback
