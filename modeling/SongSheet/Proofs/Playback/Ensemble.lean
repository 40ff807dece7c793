/-
SongSheet/Proofs/Playback/Ensemble.lean

Players that go on in any order.

`Performance` plays the tracks of a sheet in one order, on a clock that stands
still while they can do something.  Here nothing is said about the order: an
ensemble is a stage and its players, each of them somewhere in the loop over its
notes, and one move of the ensemble is one of

* a step of one player, from one look at the stage to the next (`Member.Step`);
* the end of any of the tones of a player, with any outcomes, while its other
  tones go on in any way (`Player.Sounds`);
* anything that happens to the stage meanwhile, as long as the clock does not go
  back, the token stays fired, and nobody else writes down calls and endings
  (`Stage.Meanwhile`).

`Ensemble.Reached` is what moves lead to.  It has a parameter that says which
player may take a step: any of them (`Ensemble.anyone`), or only one at a time, which
then goes on until it has to wait (`Ensemble.inTurn`).
-/
import Mathlib.Data.List.Perm.Basic
import Mathlib.Logic.Relation
import SongSheet.Playback.Performance

namespace SongSheet.Playback

open Clock

variable {σ : Type}

/-! ### Members -/

/-- Where a player is in the loop over its notes. -/
inductive Place where
  /-- Outside of it, or waiting in it; the phase says for what. -/
  | rest
  /-- Looks at the next note and at the clock. -/
  | heading
  /-- Is too far ahead, and sets up a wait. -/
  | pausing
  /-- Looks at the token. -/
  | checking
  /-- Counts outcomes, before it turns to the note. -/
  | counting
  /-- Calls the renderer for the pitches that are left of a note with a length. -/
  | calling (duration : Nat) (left : List Single)
  deriving DecidableEq

/-- A player and its place. -/
structure Member where
  player : Player
  place : Place

/-- One step of a player: how it changes the stage and itself. -/
inductive Member.Step (config : Config) (renderer : Renderer σ) :
    Stage σ → Member → Stage σ → Member → Prop
  | start {s : Stage σ} {p : Player} : p.phase = .ready →
      Step config renderer s ⟨p, .rest⟩
        (s.tell (.trackStarted p.name p.notes.length)) ⟨p, .heading⟩
  | exhausted {s : Stage σ} {p : Player} : p.notes = [] →
      Step config renderer s ⟨p, .heading⟩ s ⟨{ p with phase := .joining }, .rest⟩
  | ahead {s : Stage σ} {p : Player} : p.notes ≠ [] → config.lookAhead < p.cursor - s.now →
      Step config renderer s ⟨p, .heading⟩ (s.tell (.waiting p.name)) ⟨p, .pausing⟩
  | near {s : Stage σ} {p : Player} : p.notes ≠ [] → ¬ config.lookAhead < p.cursor - s.now →
      Step config renderer s ⟨p, .heading⟩ s ⟨p, .checking⟩
  | tooLate {s : Stage σ} {p : Player} : horizon ≤ s.now + config.throttleTick →
      Step config renderer s ⟨p, .pausing⟩ (p.crash s).1 ⟨(p.crash s).2, .rest⟩
  | skip {s : Stage σ} {p : Player} : s.cancelled = true →
      Step config renderer s ⟨p, .pausing⟩ s ⟨p, .checking⟩
  | pause {s : Stage σ} {p : Player} : s.cancelled = false →
      Step config renderer s ⟨p, .pausing⟩ s
        ⟨{ p with phase := .throttled (tick (s.now + config.throttleTick)) }, .rest⟩
  | wake {s : Stage σ} {p : Player} {instant : Nat} : p.phase = .throttled instant →
      instant ≤ s.now → Step config renderer s ⟨p, .rest⟩ s ⟨p, .heading⟩
  | cut {s : Stage σ} {p : Player} {instant : Nat} : p.phase = .throttled instant →
      s.cancelled = true → Step config renderer s ⟨p, .rest⟩ s ⟨p, .checking⟩
  | stop {s : Stage σ} {p : Player} : s.cancelled = true →
      Step config renderer s ⟨p, .checking⟩
        (s.tell (.trackCancelled p.name p.report.notesScheduled))
        ⟨{ p with
            notes := [], report := { p.report with cancelled := true }, phase := .joining },
          .rest⟩
  | goOn {s : Stage σ} {p : Player} : s.cancelled = false →
      Step config renderer s ⟨p, .checking⟩ s ⟨p, .counting⟩
  | count {s : Stage σ} {p : Player} {place : Place} {o : Outcome} {os : List Outcome} :
      p.settled = o :: os → place = .counting ∨ place = .rest ∧ p.phase = .joining →
      Step config renderer s ⟨p, place⟩ (s.tellAll (Event.ofOutcome p.name o).toList)
        ⟨{ p with report := p.report.count o, settled := os }, place⟩
  | noLength {s : Stage σ} {p : Player} {n : Note} {rest : List Note} : p.notes = n :: rest →
      nanoseconds n.duration = none →
      Step config renderer s ⟨p, .counting⟩ (p.crash s).1 ⟨(p.crash s).2, .rest⟩
  | turn {s : Stage σ} {p : Player} {n : Note} {rest : List Note} {duration : Nat} :
      p.notes = n :: rest → nanoseconds n.duration = some duration →
      Step config renderer s ⟨p, .counting⟩ s ⟨p, .calling duration n.pitches⟩
  | call {s s' : Stage σ} {p : Player} {n : Note} {rest : List Note} {duration : Nat}
      {frequency : Single} {left : List Single} {t : Tone} : p.notes = n :: rest →
      s.call renderer p.index (.ofNote n duration p.cursor frequency) = (s', some t) →
      Step config renderer s ⟨p, .calling duration (frequency :: left)⟩ s'
        ⟨{ p with called := p.called + 1, fresh := ⟨p.called, t⟩ :: p.fresh },
          .calling duration left⟩
  | refused {s s' : Stage σ} {p : Player} {n : Note} {rest : List Note} {duration : Nat}
      {frequency : Single} {left : List Single} : p.notes = n :: rest →
      s.call renderer p.index (.ofNote n duration p.cursor frequency) = (s', none) →
      Step config renderer s ⟨p, .calling duration (frequency :: left)⟩
        (p.crash s').1 ⟨(p.crash s').2, .rest⟩
  | advance {s : Stage σ} {p : Player} {n : Note} {rest : List Note} {duration : Nat} :
      p.notes = n :: rest → ¬ horizon ≤ p.cursor + duration →
      Step config renderer s ⟨p, .calling duration []⟩ s
        ⟨{ p with
            notes := rest, cursor := p.cursor + duration
            report := { p.report with notesScheduled := p.report.notesScheduled + 1 } },
          .heading⟩
  | beyond {s : Stage σ} {p : Player} {duration : Nat} : horizon ≤ p.cursor + duration →
      Step config renderer s ⟨p, .calling duration []⟩ (p.crash s).1 ⟨(p.crash s).2, .rest⟩
  | finish {s : Stage σ} {p : Player} : p.phase = .joining → p.settled = [] → p.ringing = [] →
      Step config renderer s ⟨p, .rest⟩ (p.finish s).1 ⟨(p.finish s).2, .rest⟩

/-- Any of the tones of a player end, with any outcomes; the others go on in any way. -/
def Player.Sounds (p : Player) (s s' : Stage σ) (p' : Player) : Prop :=
  ∃ (endings : List Ending) (older fresh : List Voice),
    (∀ e ∈ endings, e.track = p.index) ∧
    (endings.map (·.number) ++ (older ++ fresh).map (·.number)).Perm
      (p.ringing.map (·.number)) ∧
    s' = s.settle endings ∧
    p' = { p with
      older := older, fresh := fresh, settled := p.settled ++ endings.map (·.outcome) }

/-- What may happen to the stage while no player does anything. -/
structure Stage.Meanwhile (s s' : Stage σ) : Prop where
  now_le : s.now ≤ s'.now
  cancelled : s.cancelled = true → s'.cancelled = true
  calls : s'.calls = s.calls
  endings : s'.endings = s.endings

/-! ### Ensembles -/

/-- A stage and the members on it. -/
structure Ensemble (σ : Type) where
  stage : Stage σ
  members : List Member

namespace Ensemble

/-- Any member may take a step. -/
def anyone (_ : Ensemble σ) (_ : Nat) : Prop := True

/-- A member may take a step while all others are at rest. -/
def inTurn (c : Ensemble σ) (i : Nat) : Prop :=
  ∀ j m, j ≠ i → c.members[j]? = some m → m.place = .rest

/-- A move of an ensemble; `may` says which members may take a step. -/
inductive Move (setup : Setup σ) (may : Ensemble σ → Nat → Prop) :
    Ensemble σ → Ensemble σ → Prop
  | step {c : Ensemble σ} {i : Nat} {m m' : Member} {s' : Stage σ} : may c i →
      c.members[i]? = some m → m.Step setup.config setup.renderer c.stage s' m' →
      Move setup may c ⟨s', c.members.set i m'⟩
  | sound {c : Ensemble σ} {i : Nat} {m : Member} {p' : Player} {s' : Stage σ} :
      c.members[i]? = some m → m.player.Sounds c.stage s' p' →
      Move setup may c ⟨s', c.members.set i ⟨p', m.place⟩⟩
  | meanwhile {c : Ensemble σ} {s' : Stage σ} : c.stage.Meanwhile s' →
      Move setup may c ⟨s', c.members⟩

/-- The players of a performance, all at rest. -/
def ofPerformance (p : Performance σ) : Ensemble σ := ⟨p.stage, p.players.map (⟨·, .rest⟩)⟩

@[simp] theorem stage_ofPerformance (p : Performance σ) : (ofPerformance p).stage = p.stage := rfl

/-- After a change of one member, a member is the changed one or another one. -/
theorem getElem?_set_cases {ms : List Member} {i j : Nat} {m m' q : Member}
    (found : ms[i]? = some m) (h : (ms.set i m')[j]? = some q) :
    (j = i ∧ q = m') ∨ (j ≠ i ∧ ms[j]? = some q) := by
  by_cases hj : j = i
  · subst hj
    rw [List.getElem?_set_self (List.getElem?_eq_some_iff.1 found).1] at h
    exact .inl ⟨rfl, (Option.some.inj h).symm⟩
  · rw [List.getElem?_set_ne (Ne.symm hj)] at h
    exact .inr ⟨hj, h⟩

/-- What an ensemble can get to from the start of a sheet. -/
def Reached (setup : Setup σ) (sheet : Sheet) (may : Ensemble σ → Nat → Prop) :
    Ensemble σ → Prop :=
  Relation.ReflTransGen (Move setup may) (ofPerformance (.ofSheet setup sheet))

end Ensemble

end SongSheet.Playback
