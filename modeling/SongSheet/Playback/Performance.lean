/-
SongSheet/Playback/Performance.lean

Playing a sheet.

A performance plays all tracks of a sheet from one origin, on a clock that stands
still while anything can be done and then jumps to the next instant at which
something is due.  An instant is played in a round: first the interventions from
outside, then the tones that were waiting longest, then the players in the order
of the sheet, then all tones.

The performance is over when every player is, and is then reported; it can also
be dropped from outside, and is then not reported at all.  A performance in which
nothing is due any more, or in which a player waits for an instant that does not
lie ahead, stands still for good.
-/
import SongSheet.Playback.Player

namespace SongSheet.Playback

/-! ### What is to be played, and how -/

/-- Something done to a performance from outside. -/
inductive Intervention where
  /-- Fires the token. -/
  | cancel
  | setVolume (x : Single)
  /-- Gives the performance up. -/
  | drop
  deriving DecidableEq

/-- What a performance needs besides a sheet. -/
structure Setup (σ : Type) where
  config : Config
  renderer : Renderer σ
  bus : MasterBus
  /-- The token is fired before the performance starts. -/
  cancelled : Bool
  /-- What is done from outside, and when. -/
  interventions : List (Nat × Intervention)

/-- What comes of a performance. -/
structure Result where
  /-- The report, unless the performance was dropped. -/
  report : Option Report
  /-- The instant at which it was over. -/
  elapsed : Nat
  calls : List Call
  events : List (Nat × Event)
  deriving DecidableEq

/-- A performance that is going on. -/
structure Performance (σ : Type) where
  setup : Setup σ
  stage : Stage σ
  players : List Player
  /-- The interventions still to come. -/
  interventions : List (Nat × Intervention)
  dropped : Bool

namespace Performance

variable {σ : Type}

/-! ### Rounds -/

/-- Lets each player do something, the first one first. -/
def visit (act : Stage σ → Player → Stage σ × Player) :
    Stage σ → List Player → Stage σ × List Player
  | s, [] => (s, [])
  | s, p :: ps =>
      let (s, p) := act s p
      let (s, ps) := visit act s ps
      (s, p :: ps)

/-- The effect of an intervention. -/
def undergo (p : Performance σ) : Intervention → Performance σ
  | .cancel => { p with stage := { p.stage with cancelled := true } }
  | .setVolume x => { p with stage := { p.stage with bus := .withVolume x } }
  | .drop => { p with dropped := true }

/-- The effect of the interventions that are due. -/
def intervene (p : Performance σ) : Performance σ :=
  let due := p.interventions.filter (·.1 ≤ p.stage.now)
  let p := { p with interventions := p.interventions.filter (p.stage.now < ·.1) }
  due.foldl (fun p d => p.undergo d.2) p

/-- The report of the players. -/
def report (p : Performance σ) : Report := ⟨p.players.map (·.report)⟩

/-- Every player is over. -/
def isComplete (p : Performance σ) : Bool := p.players.all (·.isOver)

/-- Nothing more will happen. -/
def isOver (p : Performance σ) : Bool := p.dropped || p.isComplete

/-- Tells that all is over, if it is. -/
def conclude (p : Performance σ) : Performance σ :=
  if p.isComplete then
    { p with stage := p.stage.tell (.finished p.report.notesScheduled p.report.wasCancelled) }
  else p

/-- Lets the players and tones do what is due. -/
def proceed (p : Performance σ) : Performance σ :=
  let config := p.setup.config
  let renderer := p.setup.renderer
  let (s, ps) := visit (fun s q => q.soundOlder s) p.stage p.players
  let (s, ps) := visit (fun s q => q.play config renderer s) s ps
  let (s, ps) := visit (fun s q => q.soundAll s) s ps
  { p with stage := s, players := ps }

/-- Plays the present instant. -/
def round (p : Performance σ) : Performance σ :=
  let p := p.intervene
  if p.dropped then p else p.proceed.conclude

/-! ### From instant to instant -/

/-- The instants at which something is due, apart from players to be woken by the token. -/
def dueTimes (p : Performance σ) : List Nat :=
  p.interventions.map (·.1) ++ p.players.flatMap (·.wakes)

/-- The next instant to be played. -/
def next? (p : Performance σ) : Option Nat :=
  if p.stage.cancelled && p.players.any (·.isThrottled) then some p.stage.now
  else p.dueTimes.min?.filter (p.stage.now < ·)

/-- Plays the next instant; `none` when the performance is over or stands still. -/
def advance (p : Performance σ) : Option (Performance σ) :=
  if p.isOver then none
  else p.next?.map fun t => { p with stage := { p.stage with now := t } }.round

/-- Plays up to `n` instants. -/
def run : Nat → Performance σ → Performance σ
  | 0, p => p
  | n + 1, p =>
      match p.advance with
      | some p => run n p
      | none => p

/-- A run can be cut in two. -/
theorem run_add (m n : Nat) (p : Performance σ) : p.run (m + n) = (p.run m).run n := by
  induction m generalizing p with
  | zero => rw [Nat.zero_add]; rfl
  | succ m ih =>
      rw [Nat.succ_add]
      show (match p.advance with | some p => run (m + n) p | none => p) = _
      rcases h : p.advance with - | p'
      · -- a performance that stands still does so in both parts
        show p = run n (match p.advance with | some p => run m p | none => p)
        rw [h]
        cases n with
        | zero => rfl
        | succ n =>
            show p = match p.advance with | some p => run n p | none => p
            rw [h]
      · show run (m + n) p' = run n (match p.advance with | some p => run m p | none => p)
        rw [h]
        exact ih p'

/-! ### Whole performances -/

/-- A performance that did not play its first instant yet. -/
def ofSheet (setup : Setup σ) (sheet : Sheet) : Performance σ where
  setup := setup
  stage :=
    { now := 0, cancelled := setup.cancelled, bus := setup.bus
      memory := setup.renderer.memory, calls := [], endings := []
      events := [(0, .started sheet.tracks.length sheet.noteCount)] }
  players := sheet.tracks.mapIdx Player.ofTrack
  interventions := setup.interventions
  dropped := false

/-- Plays the first instant.  A sheet without tracks is over before. -/
def start (p : Performance σ) : Performance σ := if p.isComplete then p.conclude else p.round

/-- The nanoseconds of a track, without the notes whose length is no length of time. -/
def lengthOf (t : Track) : Nat :=
  t.notes.foldr (fun n rest => (Clock.nanoseconds n.duration).getD 0 + rest) 0

/-- A number of instants in which a sheet is played to the end, if ever. -/
def roundLimit (setup : Setup σ) (sheet : Sheet) : Nat :=
  let perTrack (t : Track) :=
    lengthOf t / Clock.millisecond + 2 + setup.renderer.waits * t.pitchCount
  sheet.tracks.foldr (fun t n => perTrack t + n) (setup.interventions.length + 2)

/-- What comes of a performance that is over. -/
def result? (p : Performance σ) : Option Result :=
  if p.isOver then
    some ⟨if p.dropped then none else some p.report, p.stage.now, p.stage.calls.reverse,
      p.stage.events.reverse⟩
  else none

end Performance

/-- Plays a sheet; `none` if that never ends. -/
def perform {σ : Type} (setup : Setup σ) (sheet : Sheet) : Option Result :=
  ((Performance.ofSheet setup sheet).start.run (Performance.roundLimit setup sheet)).result?

end SongSheet.Playback
