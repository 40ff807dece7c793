/-
SongSheet/Playback/Player.lean

Playing one track.

A player walks a cursor through the notes of its track, from the origin on and by
the lengths of the notes.  For each note it calls the renderer once per pitch,
all with the start at the cursor, and goes on without waiting for the tones.
Before a note, when the cursor is further ahead of the clock than the look-ahead
allows, it waits in throttle ticks; when the token is fired it schedules nothing
more.  At last it waits for its tones, and reports.

A player crashes on a note whose length is no length of time, on an instant that
is too late to be represented, and on a renderer that breaks down in a call.  Its
tones are dropped then.

Deadlines that are reached at the same instant take effect in the order in which
they were set: tones that were called before the player last went to wait come
before the player, those called since come after it.
-/
import SongSheet.Config
import SongSheet.Playback.Report
import SongSheet.Playback.Stage

namespace SongSheet.Playback

open Clock

/-- What a player is doing. -/
inductive Phase where
  /-- It did not start yet. -/
  | ready
  /-- It is too far ahead, and waits for an instant. -/
  | throttled (wake : Nat)
  /-- It schedules nothing more, and waits for its tones. -/
  | joining
  | finished
  | crashed
  deriving DecidableEq, Repr

/-- The tone of a call. -/
structure Voice where
  /-- The number of the call, among the calls of its track. -/
  number : Nat
  /-- What is left of the tone. -/
  tone : Tone

namespace Voice

/-- Goes on as far as possible at an instant; the remarks made, and what is left. -/
def poll (now : Nat) (cancelled : Bool) (v : Voice) : List Remark × Voice :=
  let (remarks, tone) := v.tone.poll now cancelled
  (remarks, ⟨v.number, tone⟩)

/-- The tone is not over. -/
def isRinging (v : Voice) : Bool := v.tone.outcome?.isNone

/-- How the tone ended, if it is over. -/
def ending? (track : Nat) (v : Voice) : Option Ending :=
  v.tone.outcome?.map (⟨track, v.number, ·⟩)

end Voice

/-- A track that is being played. -/
structure Player where
  /-- The number of the track. -/
  index : Nat
  name : String
  /-- The notes that are not scheduled yet. -/
  notes : List Note
  /-- The instant at which the next note starts. -/
  cursor : Nat
  report : TrackReport
  /-- The calls made so far. -/
  called : Nat
  /-- The tones called before the player last went to wait. -/
  older : List Voice
  /-- The tones called since, the newest first. -/
  fresh : List Voice
  /-- The outcomes not counted yet. -/
  settled : List Outcome
  phase : Phase

namespace Player

variable {σ : Type}

/-- The player of a track, before it starts. -/
def ofTrack (index : Nat) (t : Track) : Player :=
  ⟨index, t.name, t.notes, 0, .initial t.name, 0, [], [], [], .ready⟩

/-- The player does nothing any more. -/
def isOver (p : Player) : Bool := p.phase == .finished || p.phase == .crashed

/-- The tones that are not over. -/
def ringing (p : Player) : List Voice := p.older ++ p.fresh

/-! ### Counting tones -/

/-- Counts the outcomes that are there. -/
def collect (s : Stage σ) (p : Player) : Stage σ × Player :=
  (s.tellAll (p.settled.filterMap (Event.ofOutcome p.name)),
    { p with report := p.settled.foldl TrackReport.count p.report, settled := [] })

/-- Ends with a report. -/
def finish (s : Stage σ) (p : Player) : Stage σ × Player :=
  let stopped := s.cancelled && !p.report.cancelled
  let s := if stopped then s.tell (.trackStopped p.name) else s
  let report := { p.report with cancelled := p.report.cancelled || s.cancelled }
  (s.tell (.trackFinished p.name report.tonesCompleted report.tonesFailed),
    { p with report := report, phase := .finished })

/-- Waits for the tones; with none left, ends. -/
def join (s : Stage σ) (p : Player) : Stage σ × Player :=
  let (s, p) := collect s p
  if p.ringing.isEmpty then finish s p else (s, { p with phase := .joining })

/-- Schedules nothing more. -/
def stop (s : Stage σ) (p : Player) : Stage σ × Player :=
  join (s.tell (.trackCancelled p.name p.report.notesScheduled))
    { p with notes := [], report := { p.report with cancelled := true } }

/-- Breaks down. -/
def crash (s : Stage σ) (p : Player) : Stage σ × Player :=
  (s.tell .trackCrashed,
    { p with
      notes := [], report := .lost p.name, older := [], fresh := [], settled := []
      phase := .crashed })

/-! ### Scheduling -/

/-- Calls the renderer for each pitch of a note that lasts `duration`.  The flag says
that no call broke down. -/
def fanOut (renderer : Renderer σ) (n : Note) (duration : Nat) :
    List Single → Stage σ → Player → Stage σ × Player × Bool
  | [], s, p => (s, p, true)
  | frequency :: rest, s, p =>
      match s.call renderer p.index (.ofNote n duration p.cursor frequency) with
      | (s, some t) =>
          fanOut renderer n duration rest s
            { p with called := p.called + 1, fresh := ⟨p.called, t⟩ :: p.fresh }
      | (s, none) => (s, p, false)

/-- Waits for a throttle tick, unless the token is fired. -/
def throttle (config : Config) (s : Stage σ) (p : Player) : Stage σ × Player :=
  let s := s.tell (.waiting p.name)
  if horizon ≤ s.now + config.throttleTick then p.crash s
  else if s.cancelled then p.stop s
  else (s, { p with phase := .throttled (tick (s.now + config.throttleTick)) })

/-- Schedules the notes of a player, until it has to wait or none is left. -/
def schedule (config : Config) (renderer : Renderer σ) :
    List Note → Stage σ → Player → Stage σ × Player
  | [], s, p => p.join s
  | n :: rest, s, p =>
      if config.lookAhead < p.cursor - s.now then throttle config s p
      else if s.cancelled then p.stop s
      else
        let (s, p) := p.collect s
        match nanoseconds n.duration with
        | none => p.crash s
        | some duration =>
            match fanOut renderer n duration n.pitches s p with
            | (s, p, false) => p.crash s
            | (s, p, true) =>
                if horizon ≤ p.cursor + duration then p.crash s
                else schedule config renderer rest s
                  { p with
                    notes := rest
                    cursor := p.cursor + duration
                    report := { p.report with notesScheduled := p.report.notesScheduled + 1 } }

/-! ### One instant -/

/-- Goes on with scheduling, if it is time to. -/
def play (config : Config) (renderer : Renderer σ) (s : Stage σ) (p : Player) :
    Stage σ × Player :=
  match p.phase with
  | .ready => schedule config renderer p.notes (s.tell (.trackStarted p.name p.notes.length)) p
  | .throttled wake =>
      if s.cancelled then p.stop s
      else if wake ≤ s.now then
        schedule config renderer p.notes s { p with older := p.older ++ p.fresh, fresh := [] }
      else (s, p)
  | _ => (s, p)

/-- Lets tones of a track go on; tells their remarks, records which ended and how, and
gives their outcomes and the tones left. -/
def sound (s : Stage σ) (track : Nat) (voices : List Voice) :
    Stage σ × List Outcome × List Voice :=
  let polled := voices.map (·.poll s.now s.cancelled)
  let endings := (polled.map (·.2)).filterMap (·.ending? track)
  ((s.tellAll ((polled.flatMap (·.1)).map (.said · s.bus.gain))).settle endings,
    endings.map (·.outcome),
    (polled.map (·.2)).filter (·.isRinging))

/-- Lets the older tones go on. -/
def soundOlder (s : Stage σ) (p : Player) : Stage σ × Player :=
  let (s, outcomes, older) := sound s p.index p.older
  (s, { p with older := older, settled := p.settled ++ outcomes })

/-- Lets all tones go on; a player that waits for its tones ends when none is left. -/
def soundAll (s : Stage σ) (p : Player) : Stage σ × Player :=
  let (s, p) := p.soundOlder s
  let (s, outcomes, fresh) := sound s p.index p.fresh
  let p := { p with fresh := fresh, settled := p.settled ++ outcomes }
  if p.phase = .joining then p.join s else (s, p)

/-- The instants at which something goes on by itself. -/
def wakes (p : Player) : List Nat :=
  let tones := p.ringing.filterMap (·.tone.wake?)
  match p.phase with
  | .throttled wake => wake :: tones
  | _ => tones

/-- The player waits for its turn to schedule. -/
def isThrottled (p : Player) : Bool :=
  match p.phase with
  | .throttled _ => true
  | _ => false

end Player

end SongSheet.Playback
