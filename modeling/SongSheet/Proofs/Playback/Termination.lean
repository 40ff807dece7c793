/-
SongSheet/Proofs/Playback/Termination.lean

A performance for the log comes to its end.

A performance comes to stand still after as many instants as it is given
(`Performance.goOn_roundLimit`); what is to be shown is that it is over then.  With the logging
renderer, a player that is not over waits for its turn, or for the start or the stop of a request
(`Player.IsLogged.waits`), and so there is a next instant, and it lies ahead
(`Setup.IsLogged.exists_next`).  What is known of a player in such a performance, unless it
broke down, is in `Player.IsLogged`.
-/
import SongSheet.Proofs.Playback.Logging
import SongSheet.Proofs.Playback.RoundLimit
import SongSheet.Proofs.Sheet.Playable

namespace SongSheet

open Clock Playback

/-! ### The requests of a track -/

namespace Track

variable {t : Track} {k l : Nat} {r : Request}

/-- The plan of the first notes comes first. -/
theorem requests_prefix_of_le (h : k ≤ l) (inside : l ≤ t.notes.length) :
    t.requests k <+: t.requests l := by
  induction h with
  | refl => exact List.prefix_refl _
  | @step l _ ih =>
      rw [requests_succ (List.getElem?_eq_getElem inside)]
      exact (ih (Nat.le_of_succ_le inside)).trans (List.prefix_append _ _)

/-- A track lasts as long as all its notes. -/
theorem start_length (t : Track) : t.start t.notes.length = Performance.lengthOf t := by
  rw [start, List.take_length]

/-- No request is for later than the end of the track. -/
theorem stop_le (inside : k ≤ t.notes.length) (hr : r ∈ t.requests k) :
    r.stop ≤ Performance.lengthOf t := by
  rw [← start_length]
  induction k with
  | zero => cases hr
  | succ k ih =>
      have here : t.notes[k]? = some t.notes[k] := List.getElem?_eq_getElem inside
      rw [requests_succ here] at hr
      rcases List.mem_append.1 hr with old | new
      · exact ih (Nat.le_of_succ_le inside) old
      · obtain ⟨frequency, -, rfl⟩ := List.mem_map.1 new
        show t.start k + t.notes[k].nanoseconds ≤ t.start t.notes.length
        rw [← start_succ here]
        exact t.start_mono inside

/-- A track with pitches has requests for each note. -/
theorem requests_ne (sounding : ∀ n ∈ t.notes, n.pitches ≠ []) (h : k < l)
    (inside : l ≤ t.notes.length) : t.requests k ≠ t.requests l := by
  have some : k < t.notes.length := Nat.lt_of_lt_of_le h inside
  have here : t.notes[k]? = .some t.notes[k] := List.getElem?_eq_getElem some
  intro same
  have shorter := (requests_prefix_of_le h inside).length_le
  rw [requests_succ here, ← same, List.length_append, Note.fan, List.length_map] at shorter
  have pitch := List.length_pos_of_ne_nil (sounding _ (List.getElem_mem some))
  omega

/-- The last note of a track stops when the track ends. -/
theorem exists_last_request (sounding : ∀ n ∈ t.notes, n.pitches ≠ []) (some : t.notes ≠ []) :
    ∃ r ∈ t.requests t.notes.length, r.stop = Performance.lengthOf t := by
  obtain ⟨k, length⟩ := Nat.exists_eq_succ_of_ne_zero (mt List.length_eq_zero_iff.1 some)
  have inside : k < t.notes.length := by rw [length]; exact Nat.lt_succ_self k
  have here : t.notes[k]? = .some t.notes[k] := List.getElem?_eq_getElem inside
  obtain ⟨frequency, pitch⟩ := List.exists_mem_of_ne_nil _ (sounding _ (List.getElem_mem inside))
  refine ⟨.ofNote t.notes[k] t.notes[k].nanoseconds (t.start k) frequency, ?_, ?_⟩
  · rw [length, requests_succ here]
    exact List.mem_append_right _ (List.mem_map_of_mem pitch)
  · show t.start k + t.notes[k].nanoseconds = _
    rw [← start_succ here, ← start_length, length]

end Track

namespace Playback

open Ensemble Performance

variable {σ : Type}

/-! ### Players that wait for their turn -/

/-- A member that waits for its turn has a note left. -/
theorem memberInvariant_awaits (setup : Setup σ) :
    MemberInvariant setup fun _ _ m =>
      (m.place = .pausing → m.player.notes ≠ []) ∧
        (m.place = .rest → ∀ w, m.player.phase = .throttled w → m.player.notes ≠ []) where
  initial _ _ := ⟨nofun, fun _ _ => nofun⟩
  step := by
    intro _ s s' m m' step h
    cases step with
    | ahead some => exact ⟨fun _ => some, nofun⟩
    | pause => exact ⟨nofun, fun _ _ _ => h.1 rfl⟩
    | count _ here =>
        rcases here with rfl | ⟨rfl, joining⟩
        · exact ⟨nofun, nofun⟩
        · exact ⟨nofun, fun _ w waiting => by rw [joining] at waiting; cases waiting⟩
    | exhausted | tooLate | stop | noLength | refused | beyond | finish =>
        exact ⟨nofun, fun _ _ => nofun⟩
    | start | near | skip | wake | cut | goOn | turn | call | advance => exact ⟨nofun, nofun⟩
  sound := by
    rintro _ s s' m p' ⟨endings, older, fresh, -, -, -, rfl⟩ h
    exact h
  frame _ h := h

/-- What is known of a player that is logged and did not break down. -/
structure Player.IsLogged (config : Config) (t : Track) (s : Stage Unit) (q : Player) : Prop where
  onPlan : Member.IsOnPlan config t s ⟨q, .rest⟩
  whole : Member.IsWhole t ⟨q, .rest⟩
  unflagged : s.cancelled = false → q.report.cancelled = false
  logs : q.Logs s
  accounts : Member.Accounted s ⟨q, .rest⟩
  awaits : ∀ w, q.phase = .throttled w → q.notes ≠ []

/-- A setup in which tracks are logged and ticks take time. -/
structure Setup.IsLogged (setup : Setup Unit) : Prop where
  renderer : setup.renderer = .logging
  long : 0 < setup.config.throttleTick

/-- A setup in which, moreover, the tracks of a sheet can be played. -/
structure Setup.Logs (setup : Setup Unit) (sheet : Sheet) : Prop where
  renderer : setup.renderer = .logging
  long : 0 < setup.config.throttleTick
  playable : ∀ t ∈ sheet.tracks, t.IsPlayable setup.config

theorem answers_logging : Renderer.logging.Answers := fun _ _ _ => rfl

namespace Setup.IsLogged

variable {setup : Setup Unit} {sheet : Sheet} {n : Nat} {q : Player}

theorem leavesToken (h : setup.IsLogged) : setup.renderer.LeavesToken :=
  h.renderer.symm ▸ leavesToken_logging

/-- The track of a player that did not break down. -/
theorem exists_track (h : setup.IsLogged)
    (hq : q ∈ ((ofSheet setup sheet).start.run n).players) (sound : q.phase ≠ .crashed) :
    ∃ i t, sheet.tracks[i]? = some t ∧
      ((ofSheet setup sheet).start.run n).players[i]? = some q ∧ q.index = i ∧
      q.IsLogged setup.config t ((ofSheet setup sheet).start.run n).stage := by
  obtain ⟨i, here⟩ := List.mem_iff_getElem?.1 hq
  have found := getElem?_ofPerformance here
  have reached := reachedOnTime_run setup sheet n
  obtain ⟨t, track⟩ := Ensemble.exists_track reached.reached found
  have whole : ¬ Member.IsBroken ⟨q, .rest⟩ := fun broken => sound broken.2
  obtain ⟨index, turn⟩ := (timedInvariant_onTurn setup).all_of_reached reached i _ found
  obtain ⟨-, plan⟩ := (memberInvariant_whole setup).all_of_reached reached.reached i _ found
  obtain ⟨-, flag⟩ := (timedInvariant_unflagged setup).all_of_reached reached i _ found
  obtain ⟨-, logs⟩ := (playerInvariant_logs h.renderer).of_run h.leavesToken sheet n i q here
  obtain ⟨-, awaits⟩ := (memberInvariant_awaits setup).all_of_reached reached.reached i _ found
  obtain ⟨-, accounts⟩ := (memberInvariant_accounted setup).all_of_reached reached.reached i _ found
  obtain ⟨inStep, atEnd⟩ := (plan t track).resolve_left whole
  refine ⟨i, t, track, here, index, ⟨turn t track, inStep, sound⟩, atEnd, fun unfired => ?_, logs,
    (accounts t track).resolve_left whole, (awaits t track).2 rfl⟩
  have flag := (flag t track).resolve_left (Bool.eq_false_iff.1 unfired)
  exact Bool.eq_false_iff.2 fun flagged => whole (flag flagged)

end Setup.IsLogged

namespace Setup.Logs

variable {setup : Setup Unit} {sheet : Sheet} {i : Nat} {t : Track}

theorem isLogged (h : setup.Logs sheet) : setup.IsLogged := ⟨h.renderer, h.long⟩

/-- The player of a track. -/
theorem exists_player (h : setup.Logs sheet) (n : Nat) (track : sheet.tracks[i]? = some t) :
    ∃ q : Player, ((ofSheet setup sheet).start.run n).players[i]? = some q ∧ q.index = i ∧
      q.IsLogged setup.config t ((ofSheet setup sheet).start.run n).stage := by
  have answers : setup.renderer.Answers := h.renderer.symm ▸ answers_logging
  obtain ⟨m, found, rfl, onPlan, -⟩ := exists_onPlan answers (reachedOnTime_run setup sheet n) track
    (h.playable t (List.mem_of_getElem? track))
  obtain ⟨here, -⟩ := getElem?_of_ofPerformance found
  obtain ⟨_, t', track', -, rfl, logged⟩ :=
    h.isLogged.exists_track (List.mem_of_getElem? here) onPlan.sound
  obtain rfl : t = t' := Option.some.inj (track.symm.trans track')
  exact ⟨m.player, here, rfl, logged⟩

/-- The track of a player. -/
theorem exists_track (h : setup.Logs sheet) {n : Nat} {q : Player}
    (hq : q ∈ ((ofSheet setup sheet).start.run n).players) :
    ∃ i t, sheet.tracks[i]? = some t ∧
      ((ofSheet setup sheet).start.run n).players[i]? = some q ∧ q.index = i ∧
      q.IsLogged setup.config t ((ofSheet setup sheet).start.run n).stage := by
  obtain ⟨i, found⟩ := List.mem_iff_getElem?.1 hq
  obtain ⟨t, track⟩ :=
    Ensemble.exists_track (reached_run setup sheet n) (getElem?_ofPerformance found)
  obtain ⟨q', found', index, logged⟩ := h.exists_player n track
  obtain rfl : q = q' := Option.some.inj (found.symm.trans found')
  exact ⟨i, t, track, found, index, logged⟩

end Setup.Logs

namespace Player.IsLogged

variable {config : Config} {t : Track} {s : Stage Unit} {q : Player}

theorem inside (h : q.IsLogged config t s) : q.report.notesScheduled ≤ t.notes.length :=
  h.onPlan.plan.scheduled

theorem requests (h : q.IsLogged config t s) :
    s.requestsOf q.index = t.requests q.report.notesScheduled :=
  h.onPlan.plan.requests_of_rest rfl

/-- A player that is over has finished. -/
theorem finished (h : q.IsLogged config t s) (ended : q.isOver = true) : q.phase = .finished :=
  (isOver_iff.1 ended).resolve_right h.onPlan.sound

/-- A player that is not over, and did all that it could, waits: for its turn, or for a tone of
a request. -/
theorem waits {setup : Setup Unit} (h : q.IsLogged config t s) (played : q.IsPlayed setup s)
    (going : ¬ q.isOver = true) :
    (∃ w, q.phase = .throttled w) ∨ ∃ v ∈ q.ringing, ∃ r ∈ s.requestsOf q.index, v.tone.Logs r := by
  cases phase : q.phase with
  | ready => exact absurd phase played.started
  | throttled w => exact .inl ⟨w, rfl⟩
  | joining =>
      obtain ⟨v, hv⟩ := List.exists_mem_of_ne_nil _ (played.joining phase).1
      exact .inr ⟨v, hv, h.logs.tones v hv⟩
  | finished => exact absurd (isOver_iff.2 (.inl phase)) going
  | crashed => exact absurd phase h.onPlan.sound

/-- With the token fired, a player that did all that it could is over. -/
theorem isOver_of_fired {setup : Setup Unit} (h : q.IsLogged config t s)
    (played : q.IsPlayed setup s) (leaves : setup.renderer.LeavesToken)
    (fired : s.cancelled = true) : q.isOver = true := by
  by_contra going
  have unfired : s.cancelled = false := by
    rcases h.waits played going with ⟨w, waiting⟩ | ⟨v, hv, r, -, logs⟩
    · exact played.uncut leaves w waiting
    · exact logs.unfired (played.tones v hv)
  rw [unfired] at fired
  cases fired

/-- A tone of a player waits for the start or the stop of a request of its track. -/
theorem exists_request (h : q.IsLogged config t s) {v : Voice} (hv : v ∈ q.ringing) {w : Nat}
    (wake : v.tone.wake? = some w) :
    ∃ r ∈ t.requests q.report.notesScheduled, w = tick r.start ∨ w = tick r.stop := by
  obtain ⟨r, hr, logs⟩ := h.logs.tones v hv
  obtain ⟨-, w', wake', eq⟩ := logs.waits
  obtain rfl : w = w' := Option.some.inj (wake.symm.trans wake')
  exact ⟨r, h.requests ▸ hr, eq⟩

end Player.IsLogged

/-! ### Performances that nobody gives up -/

/-- Nobody gives the performance up; the token may be fired at any time. -/
def Setup.IsKept (setup : Setup σ) : Prop := ∀ d ∈ setup.interventions, d.2 ≠ .drop

namespace Performance

variable {setup : Setup σ} {p : Performance σ}

/-- Other interventions do not give a performance up. -/
theorem foldl_undergo_kept (due : List (Nat × Intervention)) (kept : ∀ d ∈ due, d.2 ≠ .drop)
    (p : Performance σ) : (due.foldl (fun p d => p.undergo d.2) p).dropped = p.dropped := by
  induction due generalizing p with
  | nil => rfl
  | cons d due ih =>
      obtain ⟨first, later⟩ := List.forall_mem_cons.1 kept
      rw [List.foldl_cons, ih later]
      cases eq : d.2 with
      | drop => exact absurd eq first
      | cancel | setVolume => rfl

/-- It was not given up, and its interventions are those of the setup. -/
def StaysKept (setup : Setup σ) (p : Performance σ) : Prop :=
  p.dropped = false ∧ ∀ d ∈ p.interventions, d ∈ setup.interventions

theorem StaysKept.round (kept : setup.IsKept) (h : p.StaysKept setup) :
    p.round.StaysKept setup := by
  obtain ⟨going, interventions⟩ := h
  constructor
  · rw [dropped_round, intervene_eq, foldl_undergo_kept]
    · exact going
    · exact fun d hd => kept d (interventions d (List.mem_filter.1 hd).1)
  · rw [interventions_round]
    exact fun d hd => interventions d (List.mem_filter.1 hd).1

theorem staysKept_run (kept : setup.IsKept) (sheet : Sheet) (n : Nat) :
    ((ofSheet setup sheet).start.run n).StaysKept setup := by
  have first : (ofSheet setup sheet).StaysKept setup := ⟨rfl, fun _ hd => hd⟩
  induction n with
  | zero =>
      show (ofSheet setup sheet).start.StaysKept setup
      rw [start]
      split
      · rw [StaysKept, dropped_conclude, interventions_conclude]
        exact first
      · exact first.round kept
  | succ n ih =>
      rw [run_succ]
      rcases goOn_cases ((ofSheet setup sheet).start.run n) with same | ⟨t, -, eq⟩
      · rw [same]
        exact ih
      · rw [eq]
        have jumped : (((ofSheet setup sheet).start.run n).jumpTo t).StaysKept setup := ih
        exact jumped.round kept

/-- A tone of a player is due when it wakes. -/
theorem mem_dueTimes_of_tone {q : Player} (hq : q ∈ p.players) {v : Voice} (hv : v ∈ q.ringing)
    {w : Nat} (wake : v.tone.wake? = some w) : w ∈ p.dueTimes :=
  List.mem_append_right _ (List.mem_flatMap.2 ⟨q, hq, Player.mem_wakes_of_tone hv wake⟩)

/-- In a performance that is not over, some player is not. -/
theorem exists_going (going : ¬ p.isOver = true) : ∃ q ∈ p.players, ¬ q.isOver = true := by
  by_contra none
  refine going ?_
  rw [isOver, Bool.or_eq_true]
  exact .inr (List.all_eq_true.2 fun q hq => by_contra fun waiting => none ⟨q, hq, waiting⟩)

end Performance

namespace Setup.IsLogged

variable {setup : Setup Unit} {sheet : Sheet} {n : Nat}

/-- As long as a performance is not over, its token is not fired, and it goes on at the first
instant at which something is due. -/
theorem exists_next (h : setup.IsLogged)
    (going : ¬ ((ofSheet setup sheet).start.run n).isOver = true) :
    ((ofSheet setup sheet).start.run n).stage.cancelled = false ∧
      ∃ t, ((ofSheet setup sheet).start.run n).stage.now < t ∧
        (ofSheet setup sheet).start.run (n + 1) =
          (((ofSheet setup sheet).start.run n).jumpTo t).round ∧
        ∀ w ∈ ((ofSheet setup sheet).start.run n).dueTimes, t ≤ w := by
  obtain ⟨q, hq, waiting⟩ := exists_going going
  have sound : q.phase ≠ .crashed := fun broken => waiting (Player.isOver_iff.2 (.inr broken))
  obtain ⟨i, track, -, -, -, logged⟩ := h.exists_track hq sound
  obtain ⟨same, played⟩ := isPlayed_run setup sheet n
  rw [run_succ]
  generalize (ofSheet setup sheet).start.run n = p at *
  have long : 0 < p.setup.config.throttleTick := by
    rw [same]
    exact h.long
  have played := played.resolve_left going
  have here : q.IsPlayed p.setup p.stage := played.players q hq
  have unfired : p.stage.cancelled = false := by
    refine Bool.eq_false_iff.2 fun fired => waiting ?_
    exact logged.isOver_of_fired here (by rw [same]; exact h.leavesToken) fired
  obtain ⟨w, hw⟩ : ∃ w, w ∈ p.dueTimes := by
    rcases logged.waits here waiting with ⟨w, throttled⟩ | ⟨v, hv, r, -, logs⟩
    · exact ⟨w, mem_dueTimes_of_throttled hq throttled⟩
    · obtain ⟨-, w, wake, -⟩ := logs.waits
      exact ⟨w, mem_dueTimes_of_tone hq hv wake⟩
  obtain ⟨t, first⟩ := Option.isSome_iff_exists.1 (List.isSome_min?_of_mem hw)
  have next : p.next? = some t := (played.next?_eq long (.inl unfired)).trans first
  obtain ⟨ht, least⟩ := List.min?_eq_some_iff.1 first
  exact ⟨unfired, t, played.ahead long t ht, goOn_of_next?_eq_some going next, least⟩

/-- The performance comes to its end, whenever the token is fired: it comes to stand still, and
would go on as long as it is not over. -/
theorem isOver_run (h : setup.IsLogged) (sheet : Sheet) :
    ((ofSheet setup sheet).start.run (roundLimit setup sheet)).isOver = true := by
  by_contra going
  obtain ⟨-, t, later, next, -⟩ := h.exists_next going
  have now : ((ofSheet setup sheet).start.run (roundLimit setup sheet + 1)).stage.now = t := by
    rw [next, now_round, jumpTo]
  rw [run_succ, goOn_roundLimit] at now
  exact Nat.lt_irrefl t (now ▸ later)

end Setup.IsLogged

theorem Setup.Logs.isOver_run {setup : Setup Unit} {sheet : Sheet} (h : setup.Logs sheet) :
    ((ofSheet setup sheet).start.run (roundLimit setup sheet)).isOver = true :=
  h.isLogged.isOver_run sheet

end Playback

end SongSheet
