/-
SongSheet/Playback/Session.lean

Playing sheets with a renderer, a configuration and a master bus.

A session keeps what it has told.  A text is made into a sheet as a whole before
anything is played, so a text that is refused makes no calls.
-/
import SongSheet.Playback.Performance

namespace SongSheet.Playback

/-- What sheets are played with. -/
structure Session (σ : Type) where
  renderer : Renderer σ
  config : Config
  bus : MasterBus
  /-- What was told before anything is played. -/
  told : List Event

/-- What happens to a performance from outside. -/
structure Outside where
  /-- The token is fired before. -/
  cancelled : Bool
  /-- What is done while it goes on, and when. -/
  interventions : List (Nat × Intervention)

/-- Nothing happens from outside. -/
def Outside.nothing : Outside := ⟨false, []⟩

namespace Session

variable {σ : Type}

/-- A session at full volume. -/
def ofRenderer (renderer : Renderer σ) (config : Config) : Session σ :=
  ⟨renderer, config, .initial, []⟩

/-- Sets the master volume. -/
def setVolume (s : Session σ) (x : Single) : Session σ :=
  let bus := MasterBus.withVolume x
  { s with bus := bus, told := s.told ++ [.volumeSet bus] }

/-- What a performance of the session needs. -/
def setup (s : Session σ) (o : Outside) : Setup σ :=
  ⟨s.config, s.renderer, s.bus, o.cancelled, o.interventions⟩

/-- Puts what was told before the performance in front of its events. -/
def withTold (told : List Event) (r : Result) : Result :=
  { r with events := told.map (0, ·) ++ r.events }

/-- Plays a sheet; `none` if that never ends. -/
def playSheet (s : Session σ) (o : Outside) (sheet : Sheet) : Option Result :=
  (perform (s.setup o) sheet).map (withTold s.told)

/-- Plays the sheet of a text. -/
def playText (s : Session σ) (o : Outside) (text : List Char) :
    Except SheetError (Option Result) :=
  (Sheet.ofText text).map fun sheet =>
    (perform (s.setup o) sheet).map
      (withTold (s.told ++ (Sheet.eventsOfText text).map .building))

end Session

end SongSheet.Playback
