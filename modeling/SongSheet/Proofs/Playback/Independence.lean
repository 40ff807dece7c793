/-
SongSheet/Proofs/Playback/Independence.lean

A track among others is played as it is alone.

What a track does with others it does alone (`exists_accompanies_run`), and the performance
comes to all that the track does alone as long as time passes in it (`exists_accompanies_of`).
Time passes if throttle ticks take time, and also if no track has to wait for one
(`Setup.TimePasses`).  In any other case the performance stands still in its first instant
(`Performance.run_eq_start`), and holds up the tracks that have to wait for nobody.

A performance ends with a report if it comes to be complete (`Setup.reports_iff`), for one that
is given up never does (`Performance.not_isComplete_of_dropped`).  So it is reported if time
passes in it and each of its tracks is reported alone.
-/
import SongSheet.Proofs.Playback.RoundLimit

namespace SongSheet.Playback

open Clock Performance

variable {σ : Type}

/-- Ticks take time, or no track waits for one when the first instant is played. -/
def Setup.TimePasses (setup : Setup σ) (sheet : Sheet) : Prop :=
  0 < setup.config.throttleTick ∨
    ∀ q ∈ (ofSheet setup sheet).start.players, ∀ w, q.phase ≠ .throttled w

/-- The performance of a sheet ends with a report. -/
def Setup.Reports (setup : Setup σ) (sheet : Sheet) : Prop :=
  ∃ r, perform setup sheet = some r ∧ r.report.isSome = true

namespace Performance

/-- A track of a performance is where the only track of another one is, and asked for the same at
the same instants. -/
def SharesPart (i : Nat) (p q : Performance σ) : Prop :=
  ∃ a, p.players[i]? = some a ∧ q.players = [a.renumber 0] ∧
    q.stage.timesOf 0 = p.stage.timesOf i

variable {setup : Setup σ} {sheet : Sheet} {p q : Performance σ} {a : Player} {i n : Nat}
  {t : Track}

theorem Accompanies.sharesPart (h : Accompanies i a p q) : SharesPart i p q :=
  ⟨a, h.part.getElem?, h.solo, h.times⟩

/-! ### Performances that are given up -/

/-- In the instant in which a performance is given up, nobody does anything. -/
theorem players_round_of_dropped (dropped : p.round.dropped = true) :
    p.round.players = p.players := by
  rw [dropped_round] at dropped
  rw [round, if_pos dropped]
  exact (intervene_spec p).1

/-- At the start nobody waits then. -/
theorem kept_of_throttled {q : Player} (hq : q ∈ (ofSheet setup sheet).start.players) {w : Nat}
    (waiting : q.phase = .throttled w) : (ofSheet setup sheet).start.dropped = false := by
  refine Bool.eq_false_iff.2 fun dropped => ?_
  rw [start] at hq dropped
  split at hq
  · rw [if_pos ‹_›, dropped_conclude] at dropped
    cases dropped
  · rw [if_neg ‹_›] at dropped
    rw [players_round_of_dropped dropped] at hq
    obtain ⟨i, bound, rfl⟩ := List.mem_mapIdx.1 hq
    cases waiting

/-- A performance that is given up never comes to be complete. -/
theorem not_isComplete_of_dropped (setup : Setup σ) (sheet : Sheet) (n : Nat)
    (dropped : ((ofSheet setup sheet).start.run n).dropped = true) :
    ¬ ((ofSheet setup sheet).start.run n).isComplete = true := by
  have stays {p : Performance σ} (dropped : p.round.dropped = true)
      (going : ¬ p.isComplete = true) : ¬ p.round.isComplete = true := by
    rwa [isComplete, players_round_of_dropped dropped]
  induction n with
  | zero =>
      replace dropped : (ofSheet setup sheet).start.dropped = true := dropped
      show ¬ (ofSheet setup sheet).start.isComplete = true
      rw [start] at dropped ⊢
      split at dropped
      · rw [dropped_conclude] at dropped
        cases dropped
      case isFalse going =>
        rw [if_neg going]
        exact stays dropped going
  | succ n ih =>
      rw [run_succ] at dropped ⊢
      generalize (ofSheet setup sheet).start.run n = p at *
      by_cases ended : p.isOver = true
      · rw [goOn_of_isOver ended] at dropped ⊢
        exact ih dropped
      rcases goOn_cases p with same | ⟨t, -, eq⟩
      · rw [same] at dropped ⊢
        exact ih dropped
      · rw [eq] at dropped ⊢
        exact stays dropped fun complete => ended (isOver_of_isComplete complete)

/-! ### Time -/

/-- If time passes, it does in each wait. -/
theorem now_lt_of_throttled (passes : setup.TimePasses sheet) (n : Nat)
    (going : ¬ ((ofSheet setup sheet).start.run n).isOver = true) :
    ∀ q ∈ ((ofSheet setup sheet).start.run n).players, ∀ w, q.phase = .throttled w →
      ((ofSheet setup sheet).start.run n).stage.now < w := by
  intro q hq w waiting
  rcases passes with long | unthrottled
  · obtain ⟨same, played⟩ := isPlayed_run setup sheet n
    exact ((played.resolve_left going).players q hq).ahead (by rwa [same]) w waiting
  · -- all that there is to schedule was scheduled at once
    have first : ¬ (ofSheet setup sheet).start.isOver = true := fun ended =>
      going (by rwa [Performance.run_of_isOver ended])
    have played := (isPlayed_run setup sheet 0).2.resolve_left first
    have scheduled : (ofSheet setup sheet).start.IsScheduled := fun q hq =>
      Player.isIdle_of_ne (played.players q hq).started (unthrottled q hq)
    exact absurd waiting ((scheduled.of_outlines (scheduled.run n).2).phase_ne hq w)

/-- If it does not pass, the performance stands still in its first instant. -/
theorem run_eq_start (leaves : setup.renderer.LeavesToken) (stuck : ¬ setup.TimePasses sheet)
    (n : Nat) : (ofSheet setup sheet).start.run n = (ofSheet setup sheet).start ∧
      ¬ ((ofSheet setup sheet).start.run n).isOver = true := by
  obtain ⟨none, some⟩ := not_or.1 stuck
  push Not at some
  obtain ⟨q, hq, w, waiting⟩ := some
  have kept := kept_of_throttled hq waiting
  have going := not_isOver_of_throttled kept hq waiting
  obtain ⟨same, played⟩ := isPlayed_run setup sheet 0
  have unfired : (ofSheet setup sheet).start.stage.cancelled = false :=
    ((played.resolve_left going).players q hq).uncut (by rwa [same]) w waiting
  have still := (goOn_of_no_tick (n := 0) (Nat.eq_zero_of_not_pos none) unfired kept hq waiting).1
  rw [show (ofSheet setup sheet).start.run n = _ from run_of_goOn_eq still n]
  exact ⟨rfl, going⟩

/-! ### One track -/

/-- The performance comes to all that the track does alone, if time passes in it. -/
theorem exists_accompanies_of (steady : setup.renderer.IsSteady) (passes : setup.TimePasses sheet)
    (track : sheet.tracks[i]? = some t) (m : Nat) :
    ∃ n a, Accompanies i a ((ofSheet setup sheet).start.run n)
      ((ofSheet setup ⟨[t]⟩).start.run m) := by
  induction m with
  | zero => exact ⟨0, exists_accompanies_start steady track⟩
  | succ m ih =>
      obtain ⟨n, a, both⟩ := ih
      exact both.exists_run steady (now_lt_of_throttled passes)

/-- A track that is over stays where it is. -/
theorem Accompanies.run_of_isOver (steady : setup.renderer.IsSteady)
    (h : Accompanies i a ((ofSheet setup sheet).start.run n) q) (atEnd : a.isOver = true)
    (k : Nat) : Accompanies i a ((ofSheet setup sheet).start.run (n + k)) q := by
  induction k with
  | zero => exact h
  | succ k ih =>
      have settled := isSettled_run steady sheet (n + k)
      rw [← Nat.add_assoc, run_succ]
      generalize (ofSheet setup sheet).start.run (n + k) = p at *
      by_cases ended : p.isOver = true
      · rwa [Performance.goOn_of_isOver ended]
      rcases next : p.next? with - | u
      · rwa [goOn_of_next?_eq_none next]
      · exact ih.goOn_of_isOver settled atEnd ended next

/-! ### Ticks that take no time -/

/-- If ticks take no time, all calls of a track are made in the first instant. -/
theorem timesOf_run_of_no_tick (none : setup.config.throttleTick = 0)
    (leaves : setup.renderer.LeavesToken) (track : sheet.tracks[i]? = some t) (n : Nat) :
    ((ofSheet setup sheet).start.run n).stage.timesOf i =
      (ofSheet setup sheet).start.stage.timesOf i := by
  induction n with
  | zero => rfl
  | succ n ih =>
      obtain ⟨same, played⟩ := isPlayed_run setup sheet n
      have onTime := reachedOnTime_run setup sheet (n + 1)
      rw [← ih, run_succ]
      rw [run_succ] at onTime
      generalize (ofSheet setup sheet).start.run n = p at *
      by_cases still : p.goOn = p
      · rw [still]
      have later := now_lt_goOn played (.inr (by rwa [same])) still
      obtain ⟨new, calls, instants, -⟩ := p.exists_calls_goOn
      obtain ⟨m, -, rfl, turns⟩ := (timedInvariant_onTurn setup).member onTime track
      have all : p.goOn.stage.callsOf m.player.index =
          p.stage.callsOf m.player.index ++ new.reverse.filter (·.track == m.player.index) := by
        rw [Stage.callsOf, calls, List.reverse_append, List.filter_append]
        rfl
      -- a new call would be made at an instant of the grid, and this is the origin
      have no_new : new.reverse.filter (·.track == m.player.index) = [] := by
        refine List.eq_nil_iff_forall_not_mem.2 fun call hc => ?_
        obtain ⟨⟨j, instant, -⟩, -⟩ :=
          turns.calls call (all ▸ List.mem_append_right _ hc)
        have late := instants call (List.mem_reverse.1 (List.mem_filter.1 hc).1)
        rw [instant, Config.grid_of_no_tick none] at late
        exact Nat.not_lt_zero _ (late ▸ later)
      rw [Stage.timesOf, Stage.timesOf, all, no_new, List.append_nil]

end Performance

/-! ### Reports -/

section

variable {setup : Setup σ} {sheet : Sheet}

theorem Setup.reports_iff :
    setup.Reports sheet ↔ ∃ n, ((ofSheet setup sheet).start.run n).isComplete = true := by
  constructor
  · rintro ⟨r, result, reported⟩
    obtain ⟨report, reported⟩ := Option.isSome_iff_exists.1 reported
    exact ⟨_, (isComplete_of_reported result reported).1⟩
  · rintro ⟨n, complete⟩
    have kept : ((ofSheet setup sheet).start.run n).dropped = false :=
      Bool.eq_false_iff.2 fun dropped => not_isComplete_of_dropped setup sheet n dropped complete
    exact ⟨_, perform_eq_some_iff.2 ⟨n, result?_of_isComplete complete kept⟩, rfl⟩

/-- A performance is reported if time passes in it, and each of its tracks is reported alone. -/
theorem Setup.reports_iff_tracks (steady : setup.renderer.IsSteady) :
    setup.Reports sheet ↔
      setup.TimePasses sheet ∧ ∀ t ∈ sheet.tracks, setup.Reports ⟨[t]⟩ := by
  rw [reports_iff]
  constructor
  · rintro ⟨n, complete⟩
    refine ⟨?_, fun t ht => ?_⟩
    · by_contra stuck
      exact (run_eq_start steady.leavesToken stuck n).2 (isOver_of_isComplete complete)
    · obtain ⟨i, track⟩ := List.mem_iff_getElem?.1 ht
      obtain ⟨m, a, both⟩ := exists_accompanies_run steady track n
      have atEnd : a.isOver = true := List.all_eq_true.1 complete a both.part.mem
      exact reports_iff.2 ⟨m, both.isComplete_of_isOver atEnd⟩
  · rintro ⟨passes, alone⟩
    -- each track is over when the performance has come to stand still
    have limit := run_of_goOn_eq (goOn_roundLimit setup sheet)
    refine ⟨roundLimit setup sheet, List.all_eq_true.2 fun q hq => ?_⟩
    obtain ⟨i, found⟩ := List.mem_iff_getElem?.1 hq
    obtain ⟨t, track⟩ := Ensemble.exists_track (Ensemble.reached_run setup sheet _)
      (Ensemble.getElem?_ofPerformance found)
    obtain ⟨m, complete⟩ := reports_iff.1 (alone t (List.mem_of_getElem? track))
    obtain ⟨n, a, both⟩ := exists_accompanies_of steady passes track m
    have atEnd : a.isOver = true := by
      rwa [isComplete, both.solo, List.all_cons, List.all_nil, Bool.and_true] at complete
    have both := both.run_of_isOver steady atEnd (roundLimit setup sheet)
    rw [Nat.add_comm, run_add, limit n] at both
    obtain rfl : q = a := Option.some.inj (found.symm.trans both.part.getElem?)
    exact atEnd

end

/-- Tracks are independent as long as time passes.  Let the answer of the renderer to a call depend
on the request, the clock and the token only, and let anything be done from outside.

* A track that is played with others makes the calls that it makes when it is played alone, at
  the same instants.  After any number of instants it is where it is alone after some; and if
  time passes, also the other way round.
* If the performance is reported, so is the track alone, with the same entry and calls.
* The performance is reported if time passes and each of its tracks is reported alone.
* If time does not pass, since ticks take none and a track waits for one, the performance stands
  still in its first instant and never ends, whatever its other tracks do alone. -/
theorem tracks_independent {setup : Setup σ} (steady : setup.renderer.IsSteady) (sheet : Sheet) :
    (∀ (i : Nat) (t : Track), sheet.tracks[i]? = some t →
      (∀ n, ∃ m, SharesPart i ((ofSheet setup sheet).start.run n)
        ((ofSheet setup ⟨[t]⟩).start.run m)) ∧
      (∀ m, ∃ n,
        ((ofSheet setup ⟨[t]⟩).start.run m).stage.timesOf 0 =
          ((ofSheet setup sheet).start.run n).stage.timesOf i ∧
        (setup.TimePasses sheet → SharesPart i ((ofSheet setup sheet).start.run n)
          ((ofSheet setup ⟨[t]⟩).start.run m))) ∧
      ∀ r report, perform setup sheet = some r → r.report = some report →
        ∃ r' entry, perform setup ⟨[t]⟩ = some r' ∧ r'.report = some ⟨[entry]⟩ ∧
          report.tracks[i]? = some entry ∧
          (r'.calls.filter (·.track == 0)).map (fun call => (call.instant, call.request)) =
            (r.calls.filter (·.track == i)).map fun call => (call.instant, call.request)) ∧
    (setup.Reports sheet ↔
      setup.TimePasses sheet ∧ ∀ t ∈ sheet.tracks, setup.Reports ⟨[t]⟩) ∧
    (¬ setup.TimePasses sheet → ∀ n,
      (ofSheet setup sheet).start.run n = (ofSheet setup sheet).start ∧
      ¬ ((ofSheet setup sheet).start.run n).isOver = true) := by
  refine ⟨fun i t track => ⟨fun n => ?_, fun m => ?_, fun r report result reported => ?_⟩,
    Setup.reports_iff_tracks steady, fun stuck => run_eq_start steady.leavesToken stuck⟩
  · obtain ⟨m, a, both⟩ := exists_accompanies_run steady track n
    exact ⟨m, both.sharesPart⟩
  · by_cases passes : setup.TimePasses sheet
    · obtain ⟨n, a, both⟩ := exists_accompanies_of steady passes track m
      exact ⟨n, both.times, fun _ => both.sharesPart⟩
    · -- all calls were made in the first instant
      have none := Nat.eq_zero_of_not_pos (not_or.1 passes).1
      obtain ⟨a, both⟩ := exists_accompanies_start steady track
      have alone : (Sheet.mk [t]).tracks[0]? = some t := rfl
      refine ⟨0, ?_, fun h => absurd h passes⟩
      rw [timesOf_run_of_no_tick none steady.leavesToken alone m]
      exact both.times
  · obtain ⟨m, a, both⟩ := exists_accompanies_run steady track (roundLimit setup sheet)
    obtain ⟨r', entry, result', reported', same, calls⟩ := both.result? result reported
    exact ⟨r', entry, perform_eq_some_iff.2 ⟨m, result'⟩, reported', same, calls⟩

/-- The bass of the duet, which is cut three tenths of a second into its one note, is reported
alone as it is with the melody. -/
theorem tracks_independent_duet :
    (perform staged ⟨[bass]⟩).bind (·.report) = some ⟨[⟨"bass", 1, 1, 0, true⟩]⟩ := by
  have steady : staged.renderer.IsSteady := Rehearsal.isSteady rfl
  have track : duet.tracks[1]? = some bass := rfl
  obtain ⟨tracks, -⟩ := tracks_independent steady duet
  obtain ⟨-, -, results⟩ := tracks 1 bass track
  have reported : (perform staged duet).bind (·.report) =
      some ⟨[⟨"melody", 2, 2, 1, true⟩, ⟨"bass", 1, 1, 0, true⟩]⟩ := by decide +kernel
  obtain ⟨r, result, report⟩ := Option.bind_eq_some_iff.1 reported
  obtain ⟨r', entry, result', report', same, -⟩ := results r _ result report
  obtain rfl : ⟨"bass", 1, 1, 0, true⟩ = entry := Option.some.inj same
  rw [result', Option.bind_some, report']

/-- Three notes of three seconds for one track, and one note for another. -/
def unevenText : List Char := "C4:dw C4:dw C4:dw\n#TRACK bass\nC4:q".toList

/-- A tick of 0.4 nanoseconds is accepted, as one that takes no time.  The first track waits for
it at the origin, and so the tone of the second one never ends, which alone is reported. -/
theorem exists_track_held_up :
    ∃ (config : Config) (sheet : Sheet) (short : Track),
      Config.ofYaml "throttle-tick-secs: 4e-10".toList = .config config ∧
      Sheet.ofText unevenText = .ok sheet ∧ sheet.tracks[1]? = some short ∧
      (perform (.logging config) ⟨[short]⟩).bind (·.report) =
        some ⟨[⟨"bass", 1, 1, 0, false⟩]⟩ ∧
      perform (.logging config) sheet = none ∧
      ∀ n, ((ofSheet (.logging config) sheet).start.run n).players.map (·.phase) =
          [.throttled 0, .joining] ∧
        ¬ ((ofSheet (.logging config) sheet).start.run n).isOver = true := by
  let config : Config := ⟨5 * second, 0⟩
  have accepted : Config.ofYaml "throttle-tick-secs: 4e-10".toList = .config config :=
    Config.Reading.eq_config (by decide +kernel)
  obtain ⟨sheet, read, seen⟩ := exists_ofText unevenText
    (fun sheet => (sheet.tracks[1]?.any fun short =>
        (perform (.logging config) ⟨[short]⟩).bind (·.report) =
          some ⟨[⟨"bass", 1, 1, 0, false⟩]⟩) &&
      (ofSheet (.logging config) sheet).start.players.map (·.phase) =
        [.throttled 0, .joining]) (by decide +kernel)
  obtain ⟨alone, phases⟩ := Bool.and_eq_true_iff.1 seen
  obtain ⟨short, track, alone⟩ := (Option.any_eq_true _ _).1 alone
  have phases := of_decide_eq_true phases
  have stuck : ¬ (Setup.logging config).TimePasses sheet := by
    rintro (long | unthrottled)
    · exact Nat.lt_irrefl 0 long
    · have one : Phase.throttled 0 ∈
          (ofSheet (.logging config) sheet).start.players.map (·.phase) := by
        rw [phases]
        exact List.mem_cons_self
      obtain ⟨q, hq, waiting⟩ := List.mem_map.1 one
      exact unthrottled q hq 0 waiting
  have still := run_eq_start leavesToken_logging stuck
  refine ⟨config, sheet, short, accepted, read, track, of_decide_eq_true alone, ?_, fun n => ?_⟩
  · rw [perform, result?, if_neg (still _).2]
  · obtain ⟨same, going⟩ := still n
    refine ⟨?_, going⟩
    rw [same]
    exact phases

end SongSheet.Playback
