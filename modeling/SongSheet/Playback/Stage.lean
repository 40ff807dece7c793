/-
SongSheet/Playback/Stage.lean

What all tracks of a playback share.

The stage holds the clock, the token, the master bus, the memory of the renderer,
and three records of what happened: the calls of the renderer, how the tones ended,
and the events, all with the newest first.
-/
import SongSheet.Playback.Event
import SongSheet.Playback.Renderer

namespace SongSheet.Playback

/-- A call of the renderer. -/
structure Call where
  /-- The number of the track that called. -/
  track : Nat
  /-- The instant of the call. -/
  instant : Nat
  request : Request
  /-- The gain of the master bus at that instant. -/
  gain : Single
  /-- The call fired the token. -/
  cancels : Bool
  deriving DecidableEq

/-- The end of a tone. -/
structure Ending where
  /-- The number of the track that called for the tone. -/
  track : Nat
  /-- The number of the call, among the calls of the track. -/
  number : Nat
  outcome : Outcome
  deriving DecidableEq

/-- What the tracks share; `σ` is the type of the memory of the renderer. -/
structure Stage (σ : Type) where
  now : Nat
  /-- The token is fired. -/
  cancelled : Bool
  bus : MasterBus
  memory : σ
  /-- The newest first. -/
  calls : List Call
  /-- The newest first. -/
  endings : List Ending
  /-- Events and their instants, the newest first. -/
  events : List (Nat × Event)

namespace Stage

variable {σ : Type}

/-- Records events, the first one first. -/
def tellAll (s : Stage σ) (es : List Event) : Stage σ :=
  { s with events := es.foldl (fun told e => (s.now, e) :: told) s.events }

/-- Records an event. -/
def tell (s : Stage σ) (e : Event) : Stage σ := { s with events := (s.now, e) :: s.events }

@[simp] theorem calls_tell (s : Stage σ) (e : Event) : (s.tell e).calls = s.calls := by
  rw [tell]

@[simp] theorem calls_tellAll (s : Stage σ) (es : List Event) :
    (s.tellAll es).calls = s.calls := by
  rw [tellAll]

@[simp] theorem cancelled_tell (s : Stage σ) (e : Event) :
    (s.tell e).cancelled = s.cancelled := by
  rw [tell]

@[simp] theorem cancelled_tellAll (s : Stage σ) (es : List Event) :
    (s.tellAll es).cancelled = s.cancelled := by
  rw [tellAll]

@[simp] theorem now_tell (s : Stage σ) (e : Event) : (s.tell e).now = s.now := by
  rw [tell]

@[simp] theorem now_tellAll (s : Stage σ) (es : List Event) : (s.tellAll es).now = s.now := by
  rw [tellAll]

@[simp] theorem endings_tell (s : Stage σ) (e : Event) : (s.tell e).endings = s.endings := by
  rw [tell]

@[simp] theorem endings_tellAll (s : Stage σ) (es : List Event) :
    (s.tellAll es).endings = s.endings := by
  rw [tellAll]

/-- Calls the renderer for a track. -/
def call (s : Stage σ) (renderer : Renderer σ) (track : Nat) (r : Request) :
    Stage σ × Option Tone :=
  let (memory, reaction) := renderer.react s.memory ⟨s.now, s.cancelled, s.bus⟩ r
  ({ s with
      memory := memory
      cancelled := s.cancelled || reaction.cancels
      bus := (reaction.volume.map .withVolume).getD s.bus
      calls := ⟨track, s.now, r, s.bus.gain, reaction.cancels⟩ :: s.calls },
    reaction.tone)

/-- A call is recorded, takes no time and ends no tone; it may fire the token. -/
theorem call_spec {s s' : Stage σ} {renderer : Renderer σ} {track : Nat} {r : Request}
    {t : Option Tone} (h : s.call renderer track r = (s', t)) :
    ∃ c : Call, c.track = track ∧ c.instant = s.now ∧ c.request = r ∧ s'.calls = c :: s.calls ∧
      s'.now = s.now ∧ s'.endings = s.endings ∧ s'.cancelled = (s.cancelled || c.cancels) := by
  obtain rfl : (s.call renderer track r).1 = s' := by rw [h]
  exact ⟨_, rfl, rfl, rfl, rfl, rfl, rfl, rfl⟩

/-- Records the ends of tones, the first one first. -/
def settle (s : Stage σ) (es : List Ending) : Stage σ :=
  { s with endings := es.reverse ++ s.endings }

@[simp] theorem calls_settle (s : Stage σ) (es : List Ending) : (s.settle es).calls = s.calls := by
  rw [settle]

@[simp] theorem cancelled_settle (s : Stage σ) (es : List Ending) :
    (s.settle es).cancelled = s.cancelled := by
  rw [settle]

@[simp] theorem now_settle (s : Stage σ) (es : List Ending) : (s.settle es).now = s.now := by
  rw [settle]

end Stage

end SongSheet.Playback
