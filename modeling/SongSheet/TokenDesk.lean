/-
SongSheet/TokenDesk.lean

Cancellation tokens on the clock.

A token is a stop flag that, once up, stays up.  Handles are numbers of tokens,
and all handles of a token see the same flag.  A desk keeps the clock, the flags
and the alarms: an alarm raises a flag by itself, at an instant of the timer
grid.

Only a wait lets time pass.  It ends when its own flag is up, or else at its
deadline, rounded up to the grid; a deadline that is not after now takes no time.
When a wait ends at its deadline, alarms for just that instant have not gone off
yet, and the alarms that are left are never in the past.  Setting an alarm lets
all alarms go off that are due now, itself too.
-/
import SongSheet.Clock

namespace SongSheet

open Clock

/-- A flag that goes up at an instant. -/
structure Alarm where
  instant : Nat
  token : Nat
  deriving DecidableEq, Repr

/-- Tokens, handles and alarms at an instant. -/
structure TokenDesk where
  now : Nat
  /-- The number of tokens made so far. -/
  tokens : Nat
  /-- The token of each handle. -/
  handles : List Nat
  /-- The tokens whose flag is up. -/
  fired : List Nat
  alarms : List Alarm
  deriving DecidableEq, Repr

namespace TokenDesk

/-- One token, at the origin. -/
def initial : TokenDesk := ⟨0, 1, [0], [], []⟩

/-- What can be done with a handle. -/
inductive Action where
  /-- Makes a token. -/
  | new
  /-- Makes another handle of the same token. -/
  | clone
  | cancel
  | isCancelled
  /-- Waits for a length of time. -/
  | sleep (length : Nat)
  /-- Waits for an instant. -/
  | sleepUntil (instant : Nat)
  /-- Sets an alarm. -/
  | cancelIn (length : Nat)
  /-- Waits for the flag, for a length of time at most. -/
  | awaitCancel (length : Nat)
  deriving DecidableEq, Repr

/-- What comes of an action. -/
inductive Result where
  | nothing
  | handle (i : Nat)
  | flag (b : Bool)
  deriving DecidableEq, Repr

/-! ### Flags -/

/-- The flag of a token. -/
def isFired (d : TokenDesk) (token : Nat) : Bool := d.fired.contains token

/-- The flags of all handles. -/
def flags (d : TokenDesk) : List Bool := d.handles.map d.isFired

/-- Raises a flag. -/
def fire (d : TokenDesk) (token : Nat) : TokenDesk := { d with fired := token :: d.fired }

theorem isFired_fire (d : TokenDesk) (token other : Nat) :
    (d.fire token).isFired other = (other == token || d.isFired other) := by
  simp only [isFired, fire, List.contains_cons]

/-! ### Waiting -/

/-- Lets time pass until an instant; the alarms that meet `due` go off. -/
def passTo (d : TokenDesk) (instant : Nat) (due : Alarm → Bool) : TokenDesk :=
  { d with
    now := instant
    fired := (d.alarms.filter due).map (·.token) ++ d.fired
    alarms := d.alarms.filter (!due ·) }

/-- Sets an alarm; what is due goes off. -/
def setAlarm (d : TokenDesk) (a : Alarm) : TokenDesk :=
  { d with alarms := d.alarms ++ [a] }.passTo d.now (·.instant ≤ d.now)

/-- The instant of the first alarm of a token before an instant. -/
def firstAlarm? (d : TokenDesk) (token before : Nat) : Option Nat :=
  ((d.alarms.filter fun a => a.token == token && a.instant < before).map (·.instant)).min?

/-- Waits with a token for a deadline; the answer says whether the flag came up. -/
def wait (d : TokenDesk) (token deadline : Nat) : TokenDesk × Bool :=
  if d.isFired token then (d, true)
  else if tick deadline ≤ d.now then (d, false)
  else match d.firstAlarm? token (tick deadline) with
    | some c => (d.passTo c (·.instant ≤ c), true)
    | none => (d.passTo (tick deadline) (·.instant < tick deadline), false)

/-! ### Actions -/

/-- Carries out an action with a token. -/
def act (d : TokenDesk) (token : Nat) : Action → TokenDesk × Result
  | .new =>
      ({ d with tokens := d.tokens + 1, handles := d.handles ++ [d.tokens] },
        .handle d.handles.length)
  | .clone => ({ d with handles := d.handles ++ [token] }, .handle d.handles.length)
  | .cancel => (d.fire token, .nothing)
  | .isCancelled => (d, .flag (d.isFired token))
  | .sleep length =>
      let (d, cut) := d.wait token (d.now + length)
      (d, .flag (!cut))
  | .sleepUntil instant =>
      let (d, cut) := d.wait token instant
      (d, .flag (!cut))
  | .cancelIn length =>
      (d.setAlarm ⟨tick (d.now + length), token⟩, .nothing)
  | .awaitCancel length =>
      let (d, cut) := d.wait token (d.now + length)
      (d, .flag cut)

/-- Carries out an action with a handle; without such a handle nothing is done. -/
def step (d : TokenDesk) (handle : Nat) (a : Action) : TokenDesk × Result :=
  match d.handles[handle]? with
  | some token => d.act token a
  | none => (d, .nothing)

end TokenDesk

end SongSheet
