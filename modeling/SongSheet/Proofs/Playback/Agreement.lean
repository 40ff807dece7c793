/-
SongSheet/Proofs/Playback/Agreement.lean

A performance is an ensemble that goes on in turn.

`Performance` is made of functions that each do much at once: a player schedules all
it can before the next one is looked at.  Each of these functions is a sequence of
steps of one member while all others are at rest (`Member.Goes`), so each round of a
performance is a sequence of moves, and so is a run of rounds.  The main result is
`reached_run`: whatever the number of rounds, a performance stands where an
ensemble in turn can get to.
-/
import SongSheet.Proofs.Playback.Ensemble

namespace SongSheet.Playback

open Clock Relation
open scoped List

variable {σ : Type} {config : Config} {renderer : Renderer σ}

/-! ### One member -/

namespace Member

/-- What can become of the stage and of one member, while the others do nothing. -/
inductive Change (config : Config) (renderer : Renderer σ) :
    Stage σ × Member → Stage σ × Member → Prop
  | step {s s' : Stage σ} {m m' : Member} : m.Step config renderer s s' m' →
      Change config renderer (s, m) (s', m')
  | sound {s s' : Stage σ} {m : Member} {p' : Player} : m.player.Sounds s s' p' →
      Change config renderer (s, m) (s', ⟨p', m.place⟩)
  | told {s : Stage σ} {m : Member} (es : List Event) :
      Change config renderer (s, m) (s.tellAll es, m)

/-- What becomes of them in the long run. -/
abbrev Goes (config : Config) (renderer : Renderer σ) :
    Stage σ × Member → Stage σ × Member → Prop :=
  ReflTransGen (Change config renderer)

/-- A step is one way to go. -/
theorem Step.goes {s s' : Stage σ} {m m' : Member} (h : m.Step config renderer s s' m') :
    Goes config renderer (s, m) (s', m') :=
  .single (.step h)

end Member

open Member

/-- Telling is something that may happen meanwhile. -/
theorem Stage.meanwhile_tellAll (s : Stage σ) (es : List Event) : s.Meanwhile (s.tellAll es) where
  now_le := Nat.le_of_eq (now_tellAll s es).symm
  cancelled := (cancelled_tellAll s es).trans
  calls := calls_tellAll s es
  endings := endings_tellAll s es

namespace Player

/-- Counting one outcome after the other. -/
theorem goes_collect (s : Stage σ) (p : Player) {place : Place}
    (h : place = .counting ∨ place = .rest ∧ p.phase = .joining) :
    Goes config renderer (s, ⟨p, place⟩) ((p.collect s).1, ⟨(p.collect s).2, place⟩) := by
  obtain ⟨index, name, notes, cursor, report, called, older, fresh, settled, phase⟩ := p
  -- the induction is on the outcomes: each is told and counted in a step of its own
  induction settled generalizing s report with
  | nil => exact .refl
  | cons o os ih =>
      refine .head (.step (.count rfl h)) ?_
      have := ih (s.tellAll (Event.ofOutcome name o).toList) (report.count o) h
      cases ho : Event.ofOutcome name o with
      | none => simpa only [collect, List.filterMap_cons, ho, List.foldl_cons, Option.toList_none,
          Stage.tellAll, List.foldl_nil] using this
      | some e => simpa only [collect, List.filterMap_cons, ho, List.foldl_cons,
          Option.toList_some, Stage.tellAll, List.foldl_nil] using this

/-- What a player tells when it ends. -/
def farewell (s : Stage σ) (p : Player) : List Event :=
  (if s.cancelled && !p.report.cancelled then [.trackStopped p.name] else []) ++
    [.trackFinished p.name p.report.tonesCompleted p.report.tonesFailed]

theorem finish_eq (s : Stage σ) (p : Player) :
    p.finish s =
      (s.tellAll (p.farewell s),
        { p with
          report := { p.report with cancelled := p.report.cancelled || s.cancelled }
          phase := .finished }) := by
  rw [finish, farewell]
  split <;> rfl

/-- A player counts the tones that ended, and then ends if none is left. -/
theorem join_eq (s : Stage σ) (p : Player) :
    p.join s =
      if p.ringing.isEmpty then (p.collect s).2.finish (p.collect s).1
      else ((p.collect s).1, { (p.collect s).2 with phase := .joining }) := rfl

/-- Joining, for a player that schedules nothing more. -/
theorem goes_join (s : Stage σ) (p : Player) :
    Goes config renderer (s, ⟨{ p with phase := .joining }, .rest⟩)
      ((p.join s).1, ⟨(p.join s).2, .rest⟩) := by
  -- `join` sets the phase after it counted, and the member before
  refine (goes_collect s { p with phase := .joining } (.inr ⟨rfl, rfl⟩)).trans ?_
  rw [join_eq]
  split
  case isTrue none =>
    have none : p.ringing = [] := List.isEmpty_iff.1 none
    exact (Step.finish (p := { (p.collect s).2 with phase := .joining }) rfl rfl none).goes
  case isFalse => exact .refl

/-- Stopping, for a player that looks at a token that is fired. -/
theorem goes_stop {s : Stage σ} (p : Player) (h : s.cancelled = true) :
    Goes config renderer (s, ⟨p, .checking⟩) ((p.stop s).1, ⟨(p.stop s).2, .rest⟩) :=
  .head (.step (.stop h))
    (goes_join (s.tell (.trackCancelled p.name p.report.notesScheduled))
      { p with notes := [], report := { p.report with cancelled := true } })

/-- Calling the renderer, for a player whose next note is `n`. -/
theorem goes_fanOut {n : Note} {rest : List Note} (duration : Nat) (left : List Single)
    (s : Stage σ) (p : Player) (h : p.notes = n :: rest) :
    match fanOut renderer n duration left s p with
    | (s', p', true) => p'.notes = n :: rest ∧
        Goes config renderer (s, ⟨p, .calling duration left⟩) (s', ⟨p', .calling duration []⟩)
    | (s', p', false) =>
        Goes config renderer (s, ⟨p, .calling duration left⟩)
          ((p'.crash s').1, ⟨(p'.crash s').2, .rest⟩) := by
  induction left generalizing s p with
  | nil => exact ⟨h, .refl⟩
  | cons frequency left ih =>
      rcases hc : s.call renderer p.index (.ofNote n duration p.cursor frequency) with ⟨s₁, - | t⟩
      · simp only [fanOut, hc]
        exact (Step.refused h hc).goes
      · simp only [fanOut, hc]
        have := ih s₁ { p with called := p.called + 1, fresh := ⟨p.called, t⟩ :: p.fresh } h
        have first : Member.Step config renderer s ⟨p, .calling duration (frequency :: left)⟩ s₁
            ⟨{ p with called := p.called + 1, fresh := ⟨p.called, t⟩ :: p.fresh },
              .calling duration left⟩ := .call h hc
        split at this
        · exact ⟨this.1, .head (.step first) this.2⟩
        · exact .head (.step first) this

/-- Setting up a wait, for a player that is too far ahead. -/
theorem goes_throttle (s : Stage σ) (p : Player) (some : p.notes ≠ [])
    (ahead : config.lookAhead < p.cursor - s.now) :
    Goes config renderer (s, ⟨p, .heading⟩)
      ((throttle config s p).1, ⟨(throttle config s p).2, .rest⟩) := by
  refine .head (.step (.ahead some ahead)) ?_
  simp only [throttle]
  split
  case isTrue late => exact (Step.tooLate late).goes
  case isFalse =>
    split
    case isTrue fired => exact .head (.step (.skip fired)) (goes_stop p fired)
    case isFalse fired => exact (Step.pause (Bool.eq_false_iff.2 fired)).goes

/-- Scheduling, for a player at the head of its loop. -/
theorem goes_schedule (notes : List Note) (s : Stage σ) (p : Player) (h : p.notes = notes) :
    Goes config renderer (s, ⟨p, .heading⟩)
      ((schedule config renderer notes s p).1,
        ⟨(schedule config renderer notes s p).2, .rest⟩) := by
  induction notes generalizing s p with
  | nil =>
      rw [schedule]
      exact .head (.step (.exhausted h)) (goes_join s p)
  | cons n rest ih =>
      -- one branch for each way in which `schedule` can leave the note
      have some : p.notes ≠ [] := by
        rw [h]
        exact List.cons_ne_nil _ _
      rw [schedule]
      split
      case isTrue ahead => exact goes_throttle s p some ahead
      case isFalse near =>
        refine .head (.step (.near some near)) ?_
        split
        case isTrue fired => exact goes_stop p fired
        case isFalse fired =>
          refine .head (.step (.goOn (Bool.eq_false_iff.2 fired))) ?_
          refine (goes_collect s p (.inl rfl)).trans ?_
          dsimp only
          split
          case h_1 none => exact (Step.noLength (p := (p.collect s).2) h none).goes
          case h_2 duration length =>
            refine .head (.step (.turn (p := (p.collect s).2) h length)) ?_
            have called := @goes_fanOut _ config renderer _ _ duration n.pitches
              (p.collect s).1 (p.collect s).2 h
            split
            case h_1 s' p' hf =>
              rw [hf] at called
              exact called
            case h_2 s' p' hf =>
              rw [hf] at called
              refine called.2.trans ?_
              split
              case isTrue beyond => exact (Step.beyond beyond).goes
              case isFalse beyond =>
                exact .head (.step (.advance called.1 beyond)) (ih _ _ rfl)

/-- Tones that do not end may change hands. -/
theorem sounds_regroup (s : Stage σ) (p : Player) :
    p.Sounds s s { p with older := p.older ++ p.fresh, fresh := [] } := by
  refine ⟨[], p.older ++ p.fresh, [], ?_, ?_, rfl, ?_⟩
  · simp
  · simp [ringing]
  · simp

/-- Going on with scheduling. -/
theorem goes_play (s : Stage σ) (p : Player) :
    Goes config renderer (s, ⟨p, .rest⟩)
      ((p.play config renderer s).1, ⟨(p.play config renderer s).2, .rest⟩) := by
  rw [play]
  split
  case h_1 ready => exact .head (.step (.start ready)) (goes_schedule p.notes _ p rfl)
  case h_2 instant waiting =>
    split
    case isTrue fired => exact .head (.step (.cut waiting fired)) (goes_stop p fired)
    case isFalse =>
      split
      case isTrue due =>
        refine .head (.step (.wake waiting due)) ?_
        exact .head (.sound (sounds_regroup s p)) (goes_schedule p.notes s _ rfl)
      case isFalse => exact .refl
  case h_3 => exact .refl

/-! ### Tones -/

/-- Tones are over or left, and keep their numbers. -/
theorem perm_number (track : Nat) (vs : List Voice) :
    (vs.filterMap (·.ending? track)).map (·.number) ++ (vs.filter (·.isRinging)).map (·.number)
      ~ vs.map (·.number) := by
  induction vs with
  | nil => exact .refl _
  | cons v vs ih =>
      rcases h : v.tone.outcome? with - | o
      · simpa [Voice.ending?, Voice.isRinging, h] using List.perm_middle.trans (ih.cons v.number)
      · simpa [Voice.ending?, Voice.isRinging, h] using ih

/-- The endings of `sound` are of the track they are recorded for. -/
theorem track_of_mem_endings {track : Nat} {vs : List Voice} {e : Ending}
    (h : e ∈ vs.filterMap (·.ending? track)) : e.track = track := by
  obtain ⟨v, -, hv⟩ := List.mem_filterMap.1 h
  obtain ⟨o, -, rfl⟩ := Option.map_eq_some_iff.1 hv
  rfl

/-- Letting some of the tones of a player go on, while the others are held back. -/
theorem goes_sound (s : Stage σ) (p : Player) (voices held older fresh : List Voice)
    (place : Place) (split : voices ++ held ~ p.ringing)
    (left : older ++ fresh ~ (sound s p.index voices).2.2 ++ held) :
    Goes config renderer (s, ⟨p, place⟩)
      ((sound s p.index voices).1,
        ⟨{ p with
            older := older, fresh := fresh
            settled := p.settled ++ (sound s p.index voices).2.1 }, place⟩) := by
  let polled := voices.map (·.poll s.now s.cancelled)
  let told := s.tellAll ((polled.flatMap (·.1)).map (.said · s.bus.gain))
  let after := polled.map (·.2)
  let endings := after.filterMap (·.ending? p.index)
  have same : after.map (·.number) = voices.map (·.number) := by
    simp only [after, polled, List.map_map]
    rfl
  have numbers : endings.map (·.number) ++ (older ++ fresh).map (·.number)
      ~ p.ringing.map (·.number) := by
    calc
      _ ~ endings.map (·.number) ++ (after.filter (·.isRinging) ++ held).map (·.number) :=
        (left.map _).append_left _
      _ = (endings.map (·.number) ++ (after.filter (·.isRinging)).map (·.number))
            ++ held.map (·.number) := by rw [List.map_append, List.append_assoc]
      _ ~ after.map (·.number) ++ held.map (·.number) := (perm_number _ after).append_right _
      _ = (voices ++ held).map (·.number) := by rw [same, List.map_append]
      _ ~ p.ringing.map (·.number) := split.map _
  refine .head (b := (told, ⟨p, place⟩)) (.told _) (.single (.sound ?_))
  exact ⟨endings, older, fresh, fun e => track_of_mem_endings, numbers, rfl, rfl⟩

/-- Letting the older tones go on. -/
theorem goes_soundOlder (s : Stage σ) (p : Player) :
    Goes config renderer (s, ⟨p, .rest⟩)
      ((p.soundOlder s).1, ⟨(p.soundOlder s).2, .rest⟩) :=
  goes_sound s p p.older p.fresh (sound s p.index p.older).2.2 p.fresh .rest (.refl _) (.refl _)

/-- Lets the newer tones go on. -/
def soundFresh (s : Stage σ) (p : Player) : Stage σ × Player :=
  ((sound s p.index p.fresh).1,
    { p with
      fresh := (sound s p.index p.fresh).2.2
      settled := p.settled ++ (sound s p.index p.fresh).2.1 })

/-- Lets the older tones go on, and then the newer ones. -/
def soundBoth (s : Stage σ) (p : Player) : Stage σ × Player :=
  (p.soundOlder s).2.soundFresh (p.soundOlder s).1

/-- A player that waited for its tones joins them when it has heard of all. -/
theorem soundAll_eq (s : Stage σ) (p : Player) :
    p.soundAll s =
      if p.phase = .joining then (p.soundBoth s).2.join (p.soundBoth s).1 else p.soundBoth s := rfl

/-- Letting all tones go on. -/
theorem goes_soundAll (s : Stage σ) (p : Player) :
    Goes config renderer (s, ⟨p, .rest⟩)
      ((p.soundAll s).1, ⟨(p.soundAll s).2, .rest⟩) := by
  have older := @goes_soundOlder _ config renderer s p
  have fresh : Goes config renderer ((p.soundOlder s).1, ⟨(p.soundOlder s).2, .rest⟩)
      ((p.soundBoth s).1, ⟨(p.soundBoth s).2, .rest⟩) :=
    goes_sound _ (p.soundOlder s).2 p.fresh (p.soundOlder s).2.older (p.soundOlder s).2.older
      (p.soundBoth s).2.fresh .rest List.perm_append_comm List.perm_append_comm
  refine (older.trans fresh).trans ?_
  rw [soundAll_eq]
  split
  case isTrue joining =>
    have joining : (p.soundBoth s).2.phase = .joining := joining
    refine .trans ?_ (goes_join _ _)
    rw [← joining]
  case isFalse => exact .refl

end Player

/-! ### All members -/

namespace Ensemble

variable {setup : Setup σ}

/-- What becomes of one member while the others are at rest is a sequence of moves. -/
theorem moves_of_goes {a b : Stage σ × Member}
    (h : Goes setup.config setup.renderer a b) (ms : List Member) (i : Nat) (hi : i < ms.length)
    (others : ∀ j m, j ≠ i → ms[j]? = some m → m.place = .rest) :
    ReflTransGen (Move setup inTurn) ⟨a.1, ms.set i a.2⟩ ⟨b.1, ms.set i b.2⟩ := by
  induction h with
  | refl => exact .refl
  | @tail c d _ change ih =>
      apply ih.tail
      have here (m : Member) : (ms.set i m)[i]? = some m := by
        rw [List.getElem?_set_self hi]
      have again (m m' : Member) : (ms.set i m).set i m' = ms.set i m' := List.set_set ..
      cases change with
      | @step s s' m m' step =>
          have alone : inTurn ⟨s, ms.set i m⟩ i := by
            intro j m hj
            rw [List.getElem?_set_ne hj.symm]
            exact others j m hj
          simpa only [again] using Move.step alone (here m) step
      | @sound s s' m p' sounds => 
          simpa only [again] using Move.sound (c := ⟨s, ms.set i m⟩) (here m) sounds
      | @told s m es => exact .meanwhile (s.meanwhile_tellAll es)

/-- A player at rest. -/
abbrev atRest (p : Player) : Member := ⟨p, .rest⟩

/-- Visiting the players one after the other is a sequence of moves. -/
theorem moves_visit (act : Stage σ → Player → Stage σ × Player)
    (h : ∀ s p, Goes setup.config setup.renderer (s, atRest p) ((act s p).1, atRest (act s p).2))
    (s : Stage σ) (before ps : List Player) :
    ReflTransGen (Move setup inTurn) ⟨s, (before ++ ps).map atRest⟩
      ⟨(Performance.visit act s ps).1,
        (before ++ (Performance.visit act s ps).2).map atRest⟩ := by
  induction ps generalizing s before with
  | nil => exact .refl
  | cons p ps ih =>
      have here (q : Player) : ((before ++ p :: ps).map atRest).set before.length (atRest q)
          = (before ++ q :: ps).map atRest := by
        simp
      have first := moves_of_goes (h s p) ((before ++ p :: ps).map atRest) before.length (by simp)
        fun j m _ hm => by
          obtain ⟨q, -, rfl⟩ := List.mem_map.1 (List.mem_of_getElem? hm)
          rfl
      rw [here, here] at first
      apply first.trans
      simpa [Performance.visit] using ih (act s p).1 (before ++ [(act s p).2])

end Ensemble

/-! ### Rounds -/

/-- Whatever happens meanwhile can go on. -/
theorem Stage.Meanwhile.trans {s t u : Stage σ} (h : s.Meanwhile t) (k : t.Meanwhile u) :
    s.Meanwhile u where
  now_le := Nat.le_trans h.now_le k.now_le
  cancelled hs := k.cancelled (h.cancelled hs)
  calls := k.calls.trans h.calls
  endings := k.endings.trans h.endings

namespace Performance

variable {p p' : Performance σ}

/-- An intervention leaves the players to themselves. -/
theorem undergo_spec (p : Performance σ) (i : Intervention) :
    (p.undergo i).players = p.players ∧ (p.undergo i).setup = p.setup ∧
      p.stage.Meanwhile (p.undergo i).stage := by
  cases i with
  | cancel => exact ⟨rfl, rfl, Nat.le_refl _, fun _ => rfl, rfl, rfl⟩
  | setVolume x => exact ⟨rfl, rfl, Nat.le_refl _, id, rfl, rfl⟩
  | drop => exact ⟨rfl, rfl, Nat.le_refl _, id, rfl, rfl⟩

/-- So do several interventions. -/
theorem foldl_undergo_spec (due : List (Nat × Intervention)) (p : Performance σ) :
    (due.foldl (fun p d => p.undergo d.2) p).players = p.players ∧
      (due.foldl (fun p d => p.undergo d.2) p).setup = p.setup ∧
      p.stage.Meanwhile (due.foldl (fun p d => p.undergo d.2) p).stage := by
  induction due generalizing p with
  | nil => exact ⟨rfl, rfl, Nat.le_refl _, id, rfl, rfl⟩
  | cons d due ih =>
      obtain ⟨players, setup, meanwhile⟩ := ih (p.undergo d.2)
      obtain ⟨players', setup', meanwhile'⟩ := undergo_spec p d.2
      exact ⟨players.trans players', setup.trans setup', meanwhile'.trans meanwhile⟩

/-- The interventions that are due leave the players to themselves. -/
theorem intervene_spec (p : Performance σ) :
    p.intervene.players = p.players ∧ p.intervene.setup = p.setup ∧
      p.stage.Meanwhile p.intervene.stage :=
  foldl_undergo_spec _ _

@[simp] theorem setup_conclude (p : Performance σ) : p.conclude.setup = p.setup := by
  rw [conclude]
  split <;> rfl

@[simp] theorem players_conclude (p : Performance σ) : p.conclude.players = p.players := by
  rw [conclude]
  split <;> rfl

theorem isOver_of_dropped {p : Performance σ} (dropped : p.dropped = true) : p.isOver = true := by
  rw [isOver, dropped, Bool.true_or]

/-- A performance is over once all its tracks are. -/
theorem isOver_of_isComplete {p : Performance σ} (complete : p.isComplete = true) :
    p.isOver = true := by
  rw [isOver, complete, Bool.or_true]

theorem isOver_conclude {p : Performance σ} (complete : p.isComplete = true) :
    p.conclude.isOver = true := by
  refine isOver_of_isComplete ?_
  rwa [isComplete, players_conclude]

@[simp] theorem setup_round (p : Performance σ) : p.round.setup = p.setup := by
  rw [round]
  split
  · exact (intervene_spec p).2.1
  · exact (setup_conclude _).trans (intervene_spec p).2.1

/-- The clock jumps to an instant. -/
def jumpTo (p : Performance σ) (t : Nat) : Performance σ :=
  { p with stage := { p.stage with now := t } }

/-- The next instant to be played does not lie in the past. -/
theorem now_le_of_next? {t : Nat} (h : p.next? = some t) : p.stage.now ≤ t := by
  rw [next?] at h
  split at h
  · exact Nat.le_of_eq (Option.some.inj h)
  · obtain ⟨-, later⟩ := Option.filter_eq_some_iff.1 h
    exact Nat.le_of_lt (of_decide_eq_true later)

end Performance

namespace Ensemble

open Performance

variable {setup : Setup σ} {p : Performance σ}

/-- What happens meanwhile to the stage of a performance is a move. -/
theorem moves_of_meanwhile {p' : Performance σ} (players : p'.players = p.players)
    (h : p.stage.Meanwhile p'.stage) :
    ReflTransGen (Move setup inTurn) (ofPerformance p) (ofPerformance p') := by
  rw [ofPerformance, ofPerformance, players]
  exact .single (.meanwhile (c := ⟨p.stage, p.players.map atRest⟩) h)

/-- Three visits: the older tones, the players, all tones. -/
theorem moves_proceed (h : p.setup = setup) :
    ReflTransGen (Move setup inTurn) (ofPerformance p) (ofPerformance p.proceed) := by
  subst h
  have older := @moves_visit _ p.setup (fun s q => q.soundOlder s)
    (fun s q => q.goes_soundOlder s) p.stage [] p.players
  have players := @moves_visit _ p.setup
    (fun s q => q.play p.setup.config p.setup.renderer s) (fun s q => q.goes_play s)
  have all := @moves_visit _ p.setup (fun s q => q.soundAll s) (fun s q => q.goes_soundAll s)
  exact older.trans ((players _ [] _).trans (all _ [] _))

/-- What is told at the end is told meanwhile. -/
theorem moves_conclude :
    ReflTransGen (Move setup inTurn) (ofPerformance p) (ofPerformance p.conclude) := by
  refine moves_of_meanwhile (players_conclude p) ?_
  rw [conclude]
  split
  · exact p.stage.meanwhile_tellAll [_]
  · exact p.stage.meanwhile_tellAll []

/-- Interventions happen meanwhile. -/
theorem moves_intervene :
    ReflTransGen (Move setup inTurn) (ofPerformance p) (ofPerformance p.intervene) := by
  obtain ⟨players, -, meanwhile⟩ := intervene_spec p
  exact moves_of_meanwhile players meanwhile

/-- What follows in a round after the interventions is a sequence of moves. -/
theorem moves_intervened (h : p.setup = setup) :
    ReflTransGen (Move setup inTurn) (ofPerformance p.intervene) (ofPerformance p.round) := by
  obtain ⟨-, same, -⟩ := intervene_spec p
  rw [Performance.round]
  split
  · exact .refl
  · exact (moves_proceed (same.trans h)).trans moves_conclude

/-- A round is a sequence of moves. -/
theorem moves_round (h : p.setup = setup) :
    ReflTransGen (Move setup inTurn) (ofPerformance p) (ofPerformance p.round) :=
  moves_intervene.trans (moves_intervened h)

/-- Any number of rounds is a sequence of moves. -/
theorem moves_run (n : Nat) (h : p.setup = setup) :
    ReflTransGen (Move setup inTurn) (ofPerformance p) (ofPerformance (p.run n)) := by
  induction n generalizing p with
  | zero => exact .refl
  | succ n ih =>
      rw [run]
      split
      case h_2 => exact .refl
      case h_1 p' advance =>
        rw [Performance.advance] at advance
        split at advance
        · cases advance
        · obtain ⟨t, next, rfl⟩ := Option.map_eq_some_iff.1 advance
          have wait : ReflTransGen (Move setup inTurn) (ofPerformance p)
              (ofPerformance (p.jumpTo t)) :=
            moves_of_meanwhile rfl ⟨now_le_of_next? next, id, rfl, rfl⟩
          have later := ih ((setup_round (p.jumpTo t)).trans h)
          exact wait.trans ((moves_round (p := p.jumpTo t) h).trans later)

/-- A performance stands, after any number of instants, where an ensemble in turn can
get to. -/
theorem reached_run (setup : Setup σ) (sheet : Sheet) (n : Nat) :
    Reached setup sheet inTurn (ofPerformance ((Performance.ofSheet setup sheet).start.run n)) := by
  let p := Performance.ofSheet setup sheet
  have started : ReflTransGen (Move setup inTurn) (ofPerformance p) (ofPerformance p.start) ∧
      p.start.setup = setup := by
    rw [start]
    split
    · exact ⟨moves_conclude, setup_conclude p⟩
    · exact ⟨moves_round rfl, setup_round p⟩
  exact started.1.trans (moves_run n started.2)

/-- A move in turn is one in some order. -/
theorem Move.free {c c' : Ensemble σ} (h : Move setup inTurn c c') : Move setup anyone c c' := by
  cases h with
  | step _ member step => exact .step trivial member step
  | sound member sounds => exact .sound member sounds
  | meanwhile meanwhile => exact .meanwhile meanwhile

/-- What is reached in turn is reached in some order. -/
theorem Reached.free {sheet : Sheet} {c : Ensemble σ} (h : Reached setup sheet inTurn c) :
    Reached setup sheet anyone c := ReflTransGen.mono (fun _ _ => Move.free) _ _ h

end Ensemble

end SongSheet.Playback
