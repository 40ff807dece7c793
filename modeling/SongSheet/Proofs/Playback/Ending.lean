/-
SongSheet/Proofs/Playback/Ending.lean

How a track ends, and what its report says about it.

A track that comes to the join of its tones without having been cut has scheduled all its
notes (`memberInvariant_whole`); the flag in a report comes up only once the token is
fired, or with a crash (`timedInvariant_unflagged`, `memberInvariant_lost`).  From a stop
on, whoever finishes is flagged (`finished_of_fired`), and whoever finished before stays
as it is (`getElem?_of_isDone`).
-/
import SongSheet.Proofs.Playback.Conservation
import SongSheet.Proofs.Playback.Timing

namespace SongSheet.Playback

open Clock Relation

variable {σ : Type}

/-- A player that ends is flagged if it was cut before, or if the token is fired. -/
theorem Player.cancelled_finish (s : Stage σ) (p : Player) :
    (p.finish s).2.report.cancelled = (p.report.cancelled || s.cancelled) := by
  rw [finish_eq]

/-! ### Tracks that are played as a whole -/

namespace Member

variable {config : Config} {renderer : Renderer σ} {t : Track} {s s' : Stage σ} {m m' : Member}

/-- A member that is done with scheduling is out of its loop; and if it was not cut, it has
scheduled all notes. -/
def IsWhole (t : Track) (m : Member) : Prop :=
  m.player.phase = .joining ∨ m.player.phase = .finished → m.place = .rest ∧
    (m.player.report.cancelled = false → m.player.report.notesScheduled = t.notes.length)

/-- A member that has no note left has scheduled all. -/
theorem InStep.scheduled_of_notes (h : m.InStep t s) (going : m.IsScheduling)
    (none : m.player.notes = []) : m.player.report.notesScheduled = t.notes.length := by
  have drop : t.notes.drop m.player.report.notesScheduled = [] := (h.notes going).symm.trans none
  exact Nat.le_antisymm h.scheduled (List.drop_eq_nil_iff.1 drop)

/-- A step does not leave notes out, or it says so. -/
theorem IsWhole.step (h : m.IsWhole t) (plan : m.InStep t s)
    (step : m.Step config renderer s s' m') : m'.IsBroken ∨ m'.IsWhole t := by
  -- a member in its loop is not done with scheduling
  have inside (place : m.place ≠ .rest) :
      ¬ (m.player.phase = .joining ∨ m.player.phase = .finished) := fun ended => place (h ended).1
  cases step with
  | tooLate | noLength | refused | beyond => exact .inl ⟨rfl, rfl⟩
  | exhausted none => exact .inr fun _ => ⟨rfl, fun _ => plan.scheduled_of_notes (.inl nofun) none⟩
  | stop => exact .inr fun _ => ⟨rfl, nofun⟩
  | pause => exact .inr fun ended => by rcases ended with ended | ended <;> cases ended
  | start phase | wake phase | cut phase =>
      exact .inr fun ended => by
        rw [phase] at ended
        rcases ended with ended | ended <;> cases ended
  | ahead | near | skip | goOn | turn | call | advance =>
      exact .inr fun ended => absurd ended (inside nofun)
  | @count p _ o =>
      refine .inr fun ended => ?_
      have whole := h ended
      cases o <;> exact whole
  | finish joining =>
      refine .inr fun _ => ⟨rfl, fun uncut => (h (.inl joining)).2 ?_⟩
      rw [Player.cancelled_finish] at uncut
      exact (Bool.or_eq_false_iff.1 uncut).1

/-- The ends of tones do not change what was scheduled. -/
theorem IsWhole.sound {p' : Player} (h : m.IsWhole t) (sounds : m.player.Sounds s s' p') :
    IsWhole t ⟨p', m.place⟩ := by
  obtain ⟨endings, older, fresh, -, -, rfl, rfl⟩ := sounds
  exact h

end Member

open Member Ensemble

/-- Every member is broken, or it is in step and leaves no notes out unless it is cut. -/
theorem memberInvariant_whole (setup : Setup σ) :
    MemberInvariant setup fun t s m => m.IsBroken ∨ m.InStep t s ∧ m.IsWhole t := by
  refine .orBroken ?_ ?_ ?_ ?_
  · intro i t s calls _
    exact ⟨inStep_ofTrack calls, fun ended => by rcases ended with ended | ended <;> cases ended⟩
  · intro t s s' m m' step h
    rcases h.1.step step with broken | plan
    · exact .inl broken
    · exact (h.2.step h.1 step).imp_right fun whole => ⟨plan, whole⟩
  · exact fun sounds h => ⟨h.1.sound sounds, h.2.sound sounds⟩
  · exact fun same h => ⟨h.1.frame same, h.2⟩

/-! ### Flags -/

/-- As long as the token is not fired, only members that broke down are flagged. -/
theorem timedInvariant_unflagged (setup : Setup σ) :
    TimedInvariant setup fun _ s m =>
      s.cancelled = true ∨ (m.player.report.cancelled = true → m.IsBroken) := by
  refine .untilFired (fun _ _ => nofun) ?_ ?_ fun _ _ h => h
  · intro _ s s' m m' step unfired h flag
    -- a member that takes a step is not broken, and so not flagged before
    have before : ¬ m.player.report.cancelled = true := fun flag => (h flag).not_step step
    cases step with
    | tooLate | noLength | refused | beyond => exact ⟨rfl, rfl⟩
    | stop fired =>
        rw [unfired] at fired
        cases fired
    | @count p _ o =>
        have counted : (p.report.count o).cancelled = p.report.cancelled := by cases o <;> rfl
        exact absurd (counted.symm.trans flag) before
    | finish =>
        rw [Player.cancelled_finish, unfired, Bool.or_false] at flag
        exact absurd flag before
    | start | exhausted | ahead | near | skip | pause | wake | cut | goOn | turn | call | advance =>
        exact absurd flag before
  · rintro _ s s' m p' ⟨endings, older, fresh, -, -, rfl, rfl⟩ h
    exact h

/-- A member that broke down is flagged, and has no tone left. -/
theorem memberInvariant_lost (setup : Setup σ) :
    MemberInvariant setup fun _ _ m => m.player.phase = .crashed →
      m.place = .rest ∧ m.player.report.cancelled = true ∧ m.player.ringing = [] where
  initial _ _ := nofun
  step := by
    intro _ s s' m m' step h crashed
    -- a member that was broken before takes no step
    have before : m.player.phase ≠ .crashed := fun crashed =>
      IsBroken.not_step ⟨(h crashed).1, crashed⟩ step
    cases step with
    | tooLate | noLength | refused | beyond => exact ⟨rfl, rfl, rfl⟩
    | exhausted | pause | stop | finish => cases crashed
    | start | ahead | near | skip | wake | cut | goOn | count | turn | call | advance =>
        exact absurd crashed before
  sound := by
    rintro _ s s' m p' ⟨endings, older, fresh, -, numbers, rfl, rfl⟩ h crashed
    obtain ⟨rests, flagged, none⟩ := h crashed
    rw [none] at numbers
    have left : endings = [] ∧ older ++ fresh = [] := by simpa using numbers.eq_nil
    exact ⟨rests, flagged, left.2⟩
  frame _ h := h

/-! ### Tracks that are done -/

namespace Member

/-- A member that finished and has no tone left. -/
structure IsDone (m : Member) : Prop where
  rests : m.place = .rest
  finished : m.player.phase = .finished
  ringing : m.player.ringing = []
  settled : m.player.settled = []

variable {config : Config} {renderer : Renderer σ} {s s' : Stage σ} {m m' : Member}

/-- A member that is done takes no step. -/
theorem IsDone.not_step (h : m.IsDone) : ¬ m.Step config renderer s s' m' := by
  obtain ⟨p, place⟩ := m
  obtain ⟨rfl, finished, -, settled⟩ := h
  intro step
  cases step with
  | start phase | wake phase | cut phase | finish phase =>
      rw [finished] at phase
      cases phase
  | count waits =>
      rw [settled] at waits
      cases waits

/-- None of its tones can end. -/
theorem IsDone.sound {p' : Player} (h : m.IsDone) (sounds : m.player.Sounds s s' p') :
    p' = m.player := by
  obtain ⟨p, place⟩ := m
  obtain ⟨endings, older, fresh, -, numbers, -, rfl⟩ := sounds
  obtain ⟨-, -, ringing, -⟩ := h
  obtain ⟨oldEmpty, freshEmpty⟩ : p.older = [] ∧ p.fresh = [] := List.append_eq_nil_iff.1 ringing
  rw [ringing] at numbers
  obtain ⟨rfl, rfl, rfl⟩ : endings = [] ∧ older = [] ∧ fresh = [] := by
    simpa using numbers.eq_nil
  rw [List.map_nil, List.append_nil, ← oldEmpty]
  nth_rewrite 2 [oldEmpty]
  rw [← freshEmpty]

/-- With the token fired, a member that ends now is flagged. -/
theorem Step.flagged (step : m.Step config renderer s s' m') (fired : s.cancelled = true)
    (before : m.player.phase ≠ .finished) (after : m'.player.phase = .finished) :
    m'.player.report.cancelled = true := by
  cases step with
  | finish => rw [Player.cancelled_finish, fired, Bool.or_true]
  | exhausted | pause | stop | tooLate | noLength | refused | beyond => cases after
  | start | ahead | near | skip | wake | cut | goOn | count | turn | call | advance =>
      exact absurd after before

end Member

namespace Ensemble

variable {setup : Setup σ} {sheet : Sheet} {may : Ensemble σ → Nat → Prop} {c c' : Ensemble σ}

/-- A member that finished is done. -/
theorem isDone_of_finished (h : Reached setup sheet may c) {i : Nat} {m : Member}
    (found : c.members[i]? = some m) (finished : m.player.phase = .finished) : m.IsDone := by
  obtain ⟨t, track⟩ := exists_track h found
  obtain ⟨-, holds⟩ := (memberInvariant_accounted setup).all_of_reached h i m found
  have accounts : m.Accounted c.stage := (holds t track).resolve_left fun broken => by
    rw [broken.2] at finished
    cases finished
  obtain ⟨rests, ringing, settled⟩ := accounts.finished finished
  exact ⟨rests, finished, ringing, settled⟩

/-- A member that is over has no tone left. -/
theorem ringing_of_isOver (h : Reached setup sheet may c) {i : Nat} {m : Member}
    (found : c.members[i]? = some m) (atEnd : m.player.isOver = true) : m.player.ringing = [] := by
  rcases Player.isOver_iff.1 atEnd with finished | crashed
  · exact (isDone_of_finished h found finished).ringing
  · obtain ⟨t, track⟩ := exists_track h found
    obtain ⟨-, holds⟩ := (memberInvariant_lost setup).all_of_reached h i m found
    exact (holds t track crashed).2.2

/-- A move is none of a member, or a step of it, or tones of it end. -/
theorem Move.member (move : Move setup may c c') {i : Nat} {m : Member}
    (found : c.members[i]? = some m) :
    c'.members[i]? = some m ∨
      (∃ m', m.Step setup.config setup.renderer c.stage c'.stage m' ∧
        c'.members[i]? = some m') ∨
      ∃ p', m.player.Sounds c.stage c'.stage p' ∧ c'.members[i]? = some ⟨p', m.place⟩ := by
  have inside : i < c.members.length := (List.getElem?_eq_some_iff.1 found).1
  cases move with
  | @step j q q' s' _ there step =>
      rcases eq_or_ne j i with rfl | hj
      · obtain rfl : q = m := Option.some.inj (there.symm.trans found)
        exact .inr (.inl ⟨q', step, List.getElem?_set_self inside⟩)
      · exact .inl ((List.getElem?_set_ne hj).trans found)
  | @sound j q p' s' there sounds =>
      rcases eq_or_ne j i with rfl | hj
      · obtain rfl : q = m := Option.some.inj (there.symm.trans found)
        exact .inr (.inr ⟨p', sounds, List.getElem?_set_self inside⟩)
      · exact .inl ((List.getElem?_set_ne hj).trans found)
  | meanwhile => exact .inl found

/-- A member that is done stays as it is. -/
theorem getElem?_of_isDone (moves : ReflTransGen (Move setup may) c c') {i : Nat} {m : Member}
    (found : c.members[i]? = some m) (done : m.IsDone) : c'.members[i]? = some m := by
  induction moves with
  | refl => exact found
  | tail _ move ih =>
      rcases move.member ih with still | ⟨m', step, -⟩ | ⟨p', sounds, there⟩
      · exact still
      · exact absurd step done.not_step
      · rw [there, done.sound sounds]

/-- Who finishes after the token was fired is flagged. -/
theorem finished_of_fired (h : Reached setup sheet may c) (fired : c.stage.cancelled = true)
    (moves : ReflTransGen (Move setup may) c c') {i : Nat} {m : Member}
    (found : c'.members[i]? = some m) (finished : m.player.phase = .finished) :
    m.player.report.cancelled = true ∨ c.members[i]? = some m := by
  induction moves generalizing m with
  | refl => exact .inr found
  | @tail d e moves move ih =>
      have still : d.stage.cancelled = true := by
        clear ih found move
        induction moves with
        | refl => exact fired
        | tail _ move ih => exact move.monotone.2 ih
      -- the only way to finish is a step, and it is taken with the token fired
      cases move with
      | @step j q q' s' _ there step =>
          rcases getElem?_set_cases there found with ⟨rfl, rfl⟩ | ⟨-, found⟩
          · refine .inl (step.flagged still ?_ finished)
            exact fun ended => (isDone_of_finished (h.trans moves) there ended).not_step step
          · exact ih found finished
      | @sound j q p' s' there sounds =>
          rcases getElem?_set_cases there found with ⟨rfl, rfl⟩ | ⟨-, found⟩
          · have same : q.player.phase = .finished := by
              obtain ⟨endings, older, fresh, -, -, -, rfl⟩ := sounds
              exact finished
            rw [(isDone_of_finished (h.trans moves) there same).sound sounds]
            exact ih there same
          · exact ih found finished
      | meanwhile => exact ih found finished

end Ensemble

/-! ### Performances that nobody cuts -/

/-- Nobody fires the token or gives the performance up; at most the volume is changed. -/
structure Setup.IsUndisturbed (setup : Setup σ) : Prop where
  renderer : setup.renderer.LeavesToken
  unfired : setup.cancelled = false
  volumes : ∀ d ∈ setup.interventions, ∃ x, d.2 = .setVolume x

namespace Performance

variable {p : Performance σ}

/-- So far nobody fired the token or gave the performance up, and nobody will. -/
structure IsUncut (p : Performance σ) : Prop where
  renderer : p.setup.renderer.LeavesToken
  unfired : p.stage.cancelled = false
  kept : p.dropped = false
  volumes : ∀ d ∈ p.interventions, ∃ x, d.2 = .setVolume x

/-- Changes of the volume cut nothing. -/
theorem foldl_undergo_uncut (due : List (Nat × Intervention))
    (volumes : ∀ d ∈ due, ∃ x, d.2 = .setVolume x) (p : Performance σ) :
    (due.foldl (fun p d => p.undergo d.2) p).stage.cancelled = p.stage.cancelled ∧
      (due.foldl (fun p d => p.undergo d.2) p).dropped = p.dropped := by
  induction due generalizing p with
  | nil => exact ⟨rfl, rfl⟩
  | cons d due ih =>
      obtain ⟨⟨x, volume⟩, later⟩ := List.forall_mem_cons.1 volumes
      obtain ⟨cancelled, dropped⟩ := ih later (p.undergo d.2)
      rw [volume] at cancelled dropped
      rw [List.foldl_cons, volume]
      exact ⟨cancelled, dropped⟩

/-- A round cuts nothing. -/
theorem IsUncut.round (h : p.IsUncut) : p.round.IsUncut := by
  have due : ∀ d ∈ p.interventions.filter (·.1 ≤ p.stage.now), ∃ x, d.2 = .setVolume x :=
    fun d hd => h.volumes d (List.mem_filter.1 hd).1
  obtain ⟨cancelled, dropped⟩ := foldl_undergo_uncut _ due
    { p with interventions := p.interventions.filter (p.stage.now < ·.1) }
  have setup : p.intervene.setup = p.setup := (intervene_spec p).2.1
  refine ⟨by rw [setup_round]; exact h.renderer, ?_, ?_, ?_⟩
  · have kept : ¬ p.intervene.dropped = true := by
      rw [show p.intervene.dropped = p.dropped from dropped, h.kept]
      nofun
    have leaves : p.intervene.setup.renderer.LeavesToken := setup ▸ h.renderer
    rw [Performance.round, if_neg kept, (during_conclude _).cancelled,
      (sameMoment_proceed _).cancelled leaves, List.any_nil, Bool.or_false]
    exact cancelled.trans h.unfired
  · exact (dropped_round p).trans (dropped.trans h.kept)
  · rw [interventions_round]
    exact fun d hd => h.volumes d (List.mem_filter.1 hd).1

/-- Nor does what comes next. -/
theorem IsUncut.goOn (h : p.IsUncut) : p.goOn.IsUncut := by
  rcases goOn_cases p with same | ⟨t, -, eq⟩
  · rw [same]
    exact h
  · rw [eq]
    have jumped : (p.jumpTo t).IsUncut := ⟨h.renderer, h.unfired, h.kept, h.volumes⟩
    exact jumped.round

/-- A performance that nobody disturbs is never cut. -/
theorem isUncut_run {setup : Setup σ} (h : setup.IsUndisturbed) (sheet : Sheet) (n : Nat) :
    ((ofSheet setup sheet).start.run n).IsUncut := by
  have whole : (ofSheet setup sheet).IsUncut := ⟨h.renderer, h.unfired, rfl, h.volumes⟩
  induction n with
  | zero =>
      show (ofSheet setup sheet).start.IsUncut
      rw [start]
      split
      · refine ⟨by rw [setup_conclude]; exact h.renderer, ?_, ?_, ?_⟩
        · rw [(during_conclude _).cancelled, List.any_nil, Bool.or_false]
          exact h.unfired
        · exact (dropped_conclude _).trans rfl
        · rw [interventions_conclude]
          exact h.volumes
      · exact whole.round
  | succ n ih =>
      rw [run_succ]
      exact ih.goOn

/-! ### A performance and its stop -/

variable {T : Nat} {stop : Intervention}

theorem start_stoppedAt (before : p.stage.now < T) :
    (p.stoppedAt T stop).start = p.start.stoppedAt T stop := by
  rw [start, start]
  by_cases complete : p.isComplete = true
  · rw [if_pos complete, if_pos (show (p.stoppedAt T stop).isComplete = true from complete),
      conclude_stoppedAt]
  · rw [if_neg complete, if_neg (show ¬ (p.stoppedAt T stop).isComplete = true from complete),
      round_stoppedAt before]

/-- The first instant is the origin. -/
theorem now_start (p : Performance σ) : p.start.stage.now = p.stage.now := by
  rw [start]
  split
  · exact (during_conclude p).now
  · exact now_round p

/-- The clock of a run does not go back. -/
theorem now_le_run (p : Performance σ) (n : Nat) : p.stage.now ≤ (p.run n).stage.now := by
  induction n with
  | zero => exact Nat.le_refl _
  | succ n ih =>
      obtain ⟨new, -, -, onward, -⟩ := (p.run n).exists_calls_goOn
      rw [run_succ]
      exact Nat.le_trans ih onward

/-- Until the stop a performance is the one without it; if the stop comes next, the other one
does not get to an instant before it any more. -/
theorem goOn_stoppedAt (before : p.stage.now < T) (stop : Intervention) :
    p.goOn.stage.now < T ∧ (p.stoppedAt T stop).goOn = p.goOn.stoppedAt T stop ∨
    (p.stoppedAt T stop).goOn = ((p.jumpTo T).stoppedAt T stop).round ∧
      (p.goOn = p ∨ T ≤ p.goOn.stage.now) := by
  by_cases ended : p.isOver = true
  · rw [goOn_of_isOver ended, goOn_of_isOver (p := p.stoppedAt T stop) ended]
    exact .inl ⟨before, rfl⟩
  rcases next?_stoppedAt before stop with ⟨t, soon, next, next'⟩ | ⟨next, next'⟩ | ⟨next', late⟩
  · rw [goOn_of_next?_eq_some ended next,
      goOn_of_next?_eq_some (p := p.stoppedAt T stop) ended next', now_round]
    exact .inl ⟨soon, round_stoppedAt (p := p.jumpTo t) soon⟩
  · rw [goOn_of_next?_eq_none next, goOn_of_next?_eq_none next']
    exact .inl ⟨before, rfl⟩
  · refine .inr ⟨goOn_of_next?_eq_some (p := p.stoppedAt T stop) ended next', ?_⟩
    rcases next : p.next? with - | t
    · exact .inl (goOn_of_next?_eq_none next)
    · rw [goOn_of_next?_eq_some ended next, now_round]
      exact .inr (late t next)

/-- A performance that is to be stopped is the one without the stop; or it was stopped after
an instant, which the other one does not leave for another one before the stop. -/
theorem run_stoppedAt (p : Performance σ) (before : p.stage.now < T) (stop : Intervention)
    (n : Nat) :
    (p.run n).stage.now < T ∧ (p.stoppedAt T stop).run n = (p.run n).stoppedAt T stop ∨
    ∃ k j, (p.run k).stage.now < T ∧
      (∀ i, (p.run (k + i)).stage.now < T → p.run (k + i) = p.run k) ∧
      (p.stoppedAt T stop).run k = (p.run k).stoppedAt T stop ∧
      (p.stoppedAt T stop).run n = (((p.run k).jumpTo T).stoppedAt T stop).round.run j ∧
      (p.stoppedAt T stop).run (k + 1) = (((p.run k).jumpTo T).stoppedAt T stop).round := by
  induction n with
  | zero => exact .inl ⟨before, rfl⟩
  | succ n ih =>
      rcases ih with ⟨soon, same⟩ | ⟨k, j, soon, last, same, stopped, here⟩
      · rw [run_succ, run_succ, same]
        refine (goOn_stoppedAt soon stop).imp_right fun ⟨stopped, still⟩ => ?_
        refine ⟨n, 0, soon, fun i early => ?_, same, stopped, by rw [run_succ, same, stopped]⟩
        -- the instant after this one is not before the stop, or there is none
        rcases still with still | late
        · clear early
          induction i with
          | zero => rfl
          | succ i ih => rw [← Nat.add_assoc, run_succ, ih, still]
        · rcases i with - | i
          · rfl
          · rw [show n + (i + 1) = n + 1 + i by omega, run_add, run_succ] at early
            exact absurd (Nat.lt_of_le_of_lt (now_le_run _ i) early) (Nat.not_lt_of_le late)
      · refine .inr ⟨k, j + 1, soon, last, same, ?_, here⟩
        rw [run_succ, run_succ, stopped]

/-- In the instant of its cancellation, the token of a performance is fired. -/
theorem cancelled_intervene_stoppedAt (here : p.stage.now = T) :
    (p.stoppedAt T .cancel).intervene.stage.cancelled = true := by
  rw [intervene_eq, due_stoppedAt here, List.foldl_cons]
  exact (foldl_undergo_spec _ _).2.2.cancelled rfl

end Performance

/-! ### The flag -/

namespace Ensemble

variable {p : Performance σ} {i : Nat}

theorem getElem?_ofPerformance {q : Player} (found : p.players[i]? = some q) :
    (ofPerformance p).members[i]? = some ⟨q, .rest⟩ := by
  rw [ofPerformance, List.getElem?_map, found]
  rfl

theorem getElem?_of_ofPerformance {m : Member}
    (found : (ofPerformance p).members[i]? = some m) :
    p.players[i]? = some m.player ∧ m.place = .rest := by
  rw [ofPerformance, List.getElem?_map] at found
  obtain ⟨q, found', rfl⟩ := Option.map_eq_some_iff.1 found
  exact ⟨found', rfl⟩

/-- The players of a performance that are finished stay as they are. -/
theorem getElem?_of_finished {setup : Setup σ} {sheet : Sheet} {may : Ensemble σ → Nat → Prop}
    {q : Performance σ} (reached : Reached setup sheet may (ofPerformance p))
    (moves : ReflTransGen (Move setup may) (ofPerformance p) (ofPerformance q))
    {r : Player} (found : p.players[i]? = some r) (finished : r.phase = .finished) :
    q.players[i]? = some r := by
  have there := getElem?_ofPerformance found
  exact (getElem?_of_ofPerformance
    (getElem?_of_isDone moves there (isDone_of_finished reached there finished))).1

end Ensemble

section

open Performance

variable {setup : Setup σ} {sheet : Sheet} {T i : Nat}

/-- When the token of a performance is fired, the players that are finished stay as they are,
and those that end later are flagged. -/
theorem flagged_of_cancel {p : Performance σ} (kept : p.setup = setup) (soon : p.stage.now < T)
    (reached : Reached (setup.stoppedAt T .cancel) sheet inTurn
      (ofPerformance (p.stoppedAt T .cancel)))
    {j : Nat} {q : Player}
    (found : (((p.jumpTo T).stoppedAt T .cancel).round.run j).players[i]? = some q)
    (finished : q.phase = .finished) :
    (q.report.cancelled = true ∨ p.players[i]? = some q) ∧
      ∀ r, p.players[i]? = some r → r.phase = .finished → r = q := by
  let cut := (p.jumpTo T).stoppedAt T .cancel
  have setup' : cut.setup = setup.stoppedAt T .cancel := by
    rw [← kept]
    rfl
  have jump : ReflTransGen (Move (setup.stoppedAt T .cancel) inTurn)
      (ofPerformance (p.stoppedAt T .cancel)) (ofPerformance cut) :=
    moves_of_meanwhile rfl ⟨Nat.le_of_lt soon, id, rfl, rfl⟩
  have fire : ReflTransGen (Move (setup.stoppedAt T .cancel) inTurn)
      (ofPerformance (p.stoppedAt T .cancel)) (ofPerformance cut.intervene) :=
    jump.trans moves_intervene
  have after : ReflTransGen (Move (setup.stoppedAt T .cancel) inTurn)
      (ofPerformance cut.intervene) (ofPerformance (cut.round.run j)) :=
    (moves_intervened setup').trans (moves_run j ((setup_round _).trans setup'))
  constructor
  · -- when the token is fired, the players are still those of the instant before
    have fired : cut.intervene.stage.cancelled = true := cancelled_intervene_stoppedAt rfl
    refine (finished_of_fired (reached.trans fire) fired after (getElem?_ofPerformance found)
      finished).imp_right fun there => ?_
    have here := (getElem?_of_ofPerformance there).1
    rwa [show cut.intervene.players = p.players from (intervene_spec cut).1] at here
  · intro r found' finished'
    have still := getElem?_of_finished reached (fire.trans after) found' finished'
    exact Option.some.inj (still.symm.trans found)

/-- In a performance whose token is fired before, all players that end are flagged. -/
theorem cancelled_of_fired {n : Nat} {q : Player}
    (found : ((ofSheet { setup with cancelled := true } sheet).start.run n).players[i]? = some q)
    (finished : q.phase = .finished) : q.report.cancelled = true := by
  have reached := reached_run { setup with cancelled := true } sheet n
  refine (finished_of_fired .refl rfl reached (getElem?_ofPerformance found)
    finished).resolve_right fun there => ?_
  have here := (getElem?_of_ofPerformance there).1
  rw [ofSheet, List.getElem?_mapIdx] at here
  obtain ⟨t, -, rfl⟩ := Option.map_eq_some_iff.1 here
  cases finished

namespace Setup.IsUndisturbed

variable (undisturbed : setup.IsUndisturbed)

include undisturbed

/-- Who finishes while nobody cuts the performance is not flagged. -/
theorem unflagged {n : Nat} {q : Player}
    (found : ((ofSheet setup sheet).start.run n).players[i]? = some q)
    (finished : q.phase = .finished) : q.report.cancelled = false := by
  have reached := reachedOnTime_run setup sheet n
  have there := getElem?_ofPerformance found
  obtain ⟨t, track⟩ := exists_track reached.reached there
  obtain ⟨-, holds⟩ := (timedInvariant_unflagged setup).all_of_reached reached i _ there
  rcases holds t track with fired | flag
  · rw [stage_ofPerformance, (isUncut_run undisturbed sheet n).unfired] at fired
    cases fired
  · refine Bool.eq_false_iff.2 fun flagged => ?_
    rw [(flag flagged).2] at finished
    cases finished

/-- In a performance that is cancelled at an instant, the players that end without a flag are
those that are finished before it in the performance that nobody cancels. -/
theorem cancelled_eq_false_iff (later : 0 < T) {n : Nat} {q : Player}
    (found : ((ofSheet (setup.stoppedAt T .cancel) sheet).start.run n).players[i]? = some q)
    (finished : q.phase = .finished) :
    q.report.cancelled = false ↔ ∃ m r, ((ofSheet setup sheet).start.run m).stage.now < T ∧
      ((ofSheet setup sheet).start.run m).players[i]? = some r ∧ r.phase = .finished := by
  let whole := (ofSheet setup sheet).start
  have both : (ofSheet (setup.stoppedAt T .cancel) sheet).start = whole.stoppedAt T .cancel :=
    start_stoppedAt (p := ofSheet setup sheet) later
  have before : whole.stage.now < T := by
    rwa [show whole.stage.now = 0 from now_start _]
  have kept (m : Nat) : (whole.run m).setup = setup := (isPlayed_run setup sheet m).1
  rw [both] at found
  rcases run_stoppedAt whole before .cancel n with
    ⟨soon, same⟩ | ⟨k, j, soon, last, same, stopped, -⟩
  · -- the cancellation is still to come
    rw [same] at found
    exact ⟨fun _ => ⟨n, q, soon, found, finished⟩, fun _ => undisturbed.unflagged found finished⟩
  · -- the two part at the cancellation, after the `k`-th instant
    have reached : Reached (setup.stoppedAt T .cancel) sheet inTurn
        (ofPerformance ((whole.run k).stoppedAt T .cancel)) := by
      rw [← same, ← both]
      exact reached_run _ sheet k
    rw [stopped] at found
    obtain ⟨flagged, stays⟩ := flagged_of_cancel (kept k) soon reached found finished
    constructor
    · intro unflagged
      refine ⟨k, q, soon, flagged.resolve_left ?_, finished⟩
      rw [unflagged]
      nofun
    · rintro ⟨m, r, early, found', finished'⟩
      -- a player that is finished before is so after the `k`-th instant
      have known : (whole.run k).players[i]? = some r := by
        rcases Nat.le_total m k with earlier | beyond
        · have moves := moves_run (k - m) (kept m)
          rw [← run_add, Nat.add_sub_cancel' earlier] at moves
          exact getElem?_of_finished (reached_run setup sheet m) moves found' finished'
        · rw [← Nat.add_sub_cancel' beyond] at early found'
          rwa [last _ early] at found'
      obtain rfl := stays r known finished'
      exact undisturbed.unflagged known finished'

end Setup.IsUndisturbed

end

/-- A member that finished has counted a tone for each of its calls. -/
theorem Member.Accounted.tones_eq {s : Stage σ} {m : Member} (h : m.Accounted s)
    (finished : m.player.phase = .finished) :
    m.player.report.tonesCompleted + m.player.report.tonesFailed =
      (s.callsOf m.player.index).length := by
  obtain ⟨-, ringing, settled⟩ := h.finished finished
  obtain ⟨counted, outcomes, hasCounted⟩ := h.counted
  have once := h.once.length_eq
  rw [ringing, List.map_nil, List.append_nil, List.length_map, List.length_range] at once
  rw [settled, List.append_nil] at outcomes
  rw [hasCounted.tones_eq, ← outcomes, List.length_map, once, h.called]

/-- The flag in a report is exact.  A track that is cancelled from outside is reported as
cancelled unless it is finished, in the same performance without the cancellation, before
that instant; with a token that is fired before the start, every track is.  However the
moves are ordered, a track reported without the flag has scheduled all its notes and
counted a tone for each of their pitches, and a track that broke down has the flag. -/
theorem cancelled_flag_exact {setup : Setup σ} (undisturbed : setup.IsUndisturbed)
    (sheet : Sheet) :
    (∀ T, 0 < T → ∀ (n i : Nat) (q : Player),
      ((Performance.ofSheet (setup.stoppedAt T .cancel) sheet).start.run n).players[i]? = some q →
      q.phase = .finished →
      (q.report.cancelled = false ↔ ∃ (m : Nat) (r : Player),
        ((Performance.ofSheet setup sheet).start.run m).stage.now < T ∧
        ((Performance.ofSheet setup sheet).start.run m).players[i]? = some r ∧
        r.phase = .finished)) ∧
    (∀ (n i : Nat) (q : Player),
      ((Performance.ofSheet { setup with cancelled := true } sheet).start.run n).players[i]? =
        some q →
      q.phase = .finished → q.report.cancelled = true) ∧
    ∀ setup' : Setup σ,
      (∀ c, Reached setup' sheet anyone c → ∀ (i : Nat) (t : Track), sheet.tracks[i]? = some t →
        ∃ m : Member, c.members[i]? = some m ∧
          (m.player.phase = .finished → m.player.report.cancelled = false →
            m.player.report.notesScheduled = t.notes.length ∧
            m.player.report.tonesCompleted + m.player.report.tonesFailed = t.pitchCount) ∧
          (m.player.phase = .crashed → m.player.report.cancelled = true)) ∧
      ∀ n, Reached setup' sheet anyone
        (ofPerformance ((Performance.ofSheet setup' sheet).start.run n)) := by
  refine ⟨fun T later n i q found finished => ?_, fun n i q found finished => ?_,
    fun setup' => ⟨fun c reached i t track => ?_, fun n => (reached_run setup' sheet n).free⟩⟩
  · exact undisturbed.cancelled_eq_false_iff later found finished
  · exact cancelled_of_fired found finished
  have invariant := ((memberInvariant_whole setup').and (memberInvariant_accounted setup')).and
    (memberInvariant_lost setup')
  obtain ⟨m, found, rfl, ⟨plan, accounts⟩, lost⟩ := invariant.member reached track
  refine ⟨m, found, fun finished unflagged => ?_, fun crashed => (lost crashed).2.1⟩
  have sound : ¬ m.IsBroken := fun broken => by rw [broken.2] at finished; cases finished
  obtain ⟨plan, whole⟩ := plan.resolve_left sound
  obtain ⟨rests, complete⟩ := whole (.inr finished)
  have all := complete unflagged
  refine ⟨all, ?_⟩
  have calls : (c.stage.callsOf m.player.index).length = (t.requests t.notes.length).length := by
    rw [← all, ← plan.requests_of_rest rests, Stage.requestsOf, List.length_map]
  rw [(accounts.resolve_left sound).tones_eq finished, calls,
    Track.length_requests (Nat.le_refl _), List.take_length]

/-- The duet, with the token left alone. -/
def unhurried : Setup Nat := { staged with interventions := [] }

theorem isUndisturbed_unhurried : unhurried.IsUndisturbed := ⟨fun _ _ _ => rfl, rfl, nofun⟩

/-- Cancelled after eight tenths of a second, the melody is over and the bass, which lasts a
second, is not. -/
theorem cancelled_flag_exact_duet :
    (((Performance.ofSheet (unhurried.stoppedAt (800 * Clock.millisecond) .cancel)
        duet).start.run 12).players.map fun q => (q.phase, q.report.cancelled)) =
      [(.finished, false), (.finished, true)] ∧
    (∃ (m : Nat) (r : Player),
      ((Performance.ofSheet unhurried duet).start.run m).stage.now < 800 * Clock.millisecond ∧
      ((Performance.ofSheet unhurried duet).start.run m).players[0]? = some r ∧
      r.phase = .finished) ∧
    ¬ ∃ (m : Nat) (r : Player),
      ((Performance.ofSheet unhurried duet).start.run m).stage.now < 800 * Clock.millisecond ∧
      ((Performance.ofSheet unhurried duet).start.run m).players[1]? = some r ∧
      r.phase = .finished := by
  obtain ⟨exact, -⟩ := cancelled_flag_exact isUndisturbed_unhurried duet
  have players : (((Performance.ofSheet (unhurried.stoppedAt (800 * Clock.millisecond) .cancel)
      duet).start.run 12).players.map fun q => (q.phase, q.report.cancelled)) =
      [(.finished, false), (.finished, true)] := by decide +kernel
  have seen (i : Nat) := congrArg (·[i]?) players
  simp only [List.getElem?_map] at seen
  obtain ⟨melody, found, state⟩ := Option.map_eq_some_iff.1 (seen 0)
  obtain ⟨bass, found', state'⟩ := Option.map_eq_some_iff.1 (seen 1)
  obtain ⟨finished, unflagged⟩ := Prod.mk.inj state
  obtain ⟨finished', flagged⟩ := Prod.mk.inj state'
  have later : 0 < 800 * Clock.millisecond := by decide
  refine ⟨players, (exact _ later _ _ _ found finished).1 unflagged, fun before => ?_⟩
  rw [(exact _ later _ _ _ found' finished').2 before] at flagged
  cases flagged

end SongSheet.Playback
