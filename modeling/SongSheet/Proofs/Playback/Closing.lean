/-
SongSheet/Proofs/Playback/Closing.lean

When a performance for the log is over.

A track that has notes is over once it has made its last call and its notes have elapsed, and
the whole is over when the last of its tracks is (`closing`).  It is not over before: the last
request of a track has a tone until its stop, and that is the end of the track
(`Setup.Logs.closings_le`).  And it is not over later.  In the last instant something was
due for a player that was not over, and all that was due for it was a tone, which stops when
its track ends or before, or its turn; in that turn it called for all notes that were left,
for otherwise it would still wait for the next one (`Setup.Logs.le_closings`).

When the token is fired, all that waits is cut, and so the performance is over in that
instant (`Setup.Logs.exists_cancelled`).  Tones that are cut have completed like all others,
and are counted as such (`Setup.Logs.completes`).
-/
import SongSheet.Proofs.Playback.Assembly
import SongSheet.Proofs.Playback.Termination

namespace SongSheet

open Clock Playback

/-! ### Instants -/

/-- Neither the end of a track nor a wait on the way is too late to be represented. -/
structure Track.IsInTime (config : Config) (t : Track) : Prop where
  ends : Performance.lengthOf t < horizon
  waits : ∀ k < t.notes.length, ∀ j, config.lookAhead < t.start k - config.grid j →
    config.grid j + config.throttleTick < horizon

/-- A track is in time if its end is a tick away from the horizon. -/
theorem Track.isInTime_of_lt {config : Config} {t : Track}
    (ends : Performance.lengthOf t + config.throttleTick < horizon) : t.IsInTime config := by
  refine ⟨Nat.lt_of_add_right_lt ends, fun k some j ahead => ?_⟩
  have start := t.start_mono (Nat.le_of_lt some)
  rw [start_length] at start
  omega

/-- The tracks of a text can be played, but for the time they take. -/
theorem isPlayable_of_isInTime {text : List Char} {sheet : Sheet} {config : Config}
    (read : Sheet.ofText text = .ok sheet) (inTime : ∀ t ∈ sheet.tracks, t.IsInTime config) :
    ∀ t ∈ sheet.tracks, t.IsPlayable config := by
  intro t ht
  refine ⟨fun n hn => ?_, ?_, (inTime t ht).waits⟩
  · obtain ⟨ns, length, -⟩ := (isPlayable_of_ofText read t ht n hn).length
    exact Option.isSome_iff_exists.2 ⟨ns, length⟩
  · rw [Track.start_length]
    exact (inTime t ht).ends

namespace Playback

open Ensemble Performance

variable {σ : Type}

/-! ### The end of a sheet -/

/-- The instant of the last call of a track, of calls in their order. -/
def lastCall (calls : List Call) (i : Nat) : Nat :=
  ((calls.filter (·.track == i)).getLast?.map (·.instant)).getD 0

/-- The instants at which the tracks that have notes are over. -/
def closings (sheet : Sheet) (calls : List Call) : List Nat :=
  (sheet.tracks.zipIdx.filter fun (t, _) => !t.notes.isEmpty).map fun (t, i) =>
    max (lastCall calls i) (tick (lengthOf t))

/-- The instant at which the last of them is over. -/
def closing (sheet : Sheet) (calls : List Call) : Nat := (closings sheet calls).max?.getD 0

theorem mem_closings {sheet : Sheet} {calls : List Call} {w : Nat} :
    w ∈ closings sheet calls ↔ ∃ (i : Nat) (t : Track), sheet.tracks[i]? = some t ∧
      t.notes ≠ [] ∧ w = max (lastCall calls i) (tick (lengthOf t)) := by
  simp only [closings, List.mem_map, List.mem_filter, Prod.exists, List.mk_mem_zipIdx_iff_getElem?,
    Bool.not_eq_true', List.isEmpty_eq_false_iff]
  constructor
  · rintro ⟨t, i, ⟨track, some⟩, rfl⟩
    exact ⟨i, t, track, some, rfl⟩
  · rintro ⟨i, t, track, some, rfl⟩
    exact ⟨t, i, ⟨track, some⟩, rfl⟩

/-- It is the instant by which all tracks with notes are over, if one of them is not over before,
or if it is the origin. -/
theorem closing_eq {sheet : Sheet} {calls : List Call} {now : Nat}
    (all : ∀ w ∈ closings sheet calls, w ≤ now)
    (last : now = 0 ∨ ∃ w ∈ closings sheet calls, now ≤ w) : closing sheet calls = now := by
  rw [closing]
  rcases eq : (closings sheet calls).max? with - | w
  · rcases last with rfl | ⟨w, hw, -⟩
    · rfl
    · rw [List.max?_eq_none_iff.1 eq] at hw
      cases hw
  · obtain ⟨hw, greatest⟩ := List.max?_eq_some_iff.1 eq
    refine Nat.le_antisymm (all w hw) ?_
    rcases last with rfl | ⟨v, hv, le⟩
    · exact Nat.zero_le _
    · exact Nat.le_trans le (greatest v hv)

/-- The last call of a track was made by now. -/
theorem Player.Logs.lastCall_le {s : Stage Unit} {q : Player} (h : q.Logs s) :
    lastCall s.calls.reverse q.index ≤ s.now := by
  rw [lastCall, ← Stage.callsOf]
  cases last : (s.callsOf q.index).getLast? with
  | none => exact Nat.zero_le _
  | some call =>
      have here := List.mem_of_getLast? last
      exact h.past (call.instant, call.request) (List.mem_map_of_mem here)

/-- A track that asks for something in the next instant makes its last call in it. -/
theorem Performance.lastCall_goOn {p : Performance σ} {i : Nat}
    (new : p.goOn.stage.requestsOf i ≠ p.stage.requestsOf i) :
    lastCall p.goOn.stage.calls.reverse i = p.goOn.stage.now := by
  obtain ⟨calls, all, instants, -⟩ := p.exists_calls_goOn
  have split : p.goOn.stage.callsOf i =
      p.stage.callsOf i ++ calls.reverse.filter (·.track == i) := by
    rw [Stage.callsOf, all, List.reverse_append, List.filter_append]
    rfl
  rw [lastCall, ← Stage.callsOf, split]
  cases last : (calls.reverse.filter (·.track == i)).getLast? with
  | none =>
      rw [List.getLast?_eq_none_iff.1 last, List.append_nil] at split
      exact absurd (congrArg (List.map Call.request) split) new
  | some call =>
      have here := (List.mem_filter.1 (List.mem_of_getLast? last)).1
      rw [List.getLast?_append, last]
      exact (instants call (List.mem_reverse.1 here)).symm

/-- At the end of the instant of a cancellation, the token is fired. -/
theorem Performance.cancelled_round_stoppedAt {p : Performance σ} {T : Nat}
    (here : p.stage.now = T) (kept : (p.stoppedAt T .cancel).round.dropped = false) :
    (p.stoppedAt T .cancel).round.stage.cancelled = true := by
  rw [dropped_round] at kept
  rw [Performance.round, kept, if_neg Bool.false_ne_true]
  exact (proceed_of_cancelled (cancelled_intervene_stoppedAt here)).2

/-! ### Tracks that are over -/

namespace Player.IsLogged

variable {config : Config} {t : Track} {s : Stage Unit} {q : Player}

/-- All notes of a track that is over are scheduled, unless the token is fired. -/
theorem scheduled (h : q.IsLogged config t s) (ended : q.isOver = true)
    (unfired : s.cancelled = false) : q.report.notesScheduled = t.notes.length :=
  (h.whole (.inr (h.finished ended))).2 (h.unflagged unfired)

/-- The notes of a track that is over have elapsed, unless the token is fired. -/
theorem elapsed (h : q.IsLogged config t s) (ended : q.isOver = true)
    (unfired : s.cancelled = false) (sounding : ∀ n ∈ t.notes, n.pitches ≠ []) :
    tick (lengthOf t) ≤ s.now := by
  by_cases none : t.notes = []
  · rw [lengthOf, none]
    exact Nat.zero_le _
  · obtain ⟨r, hr, stop⟩ := Track.exists_last_request sounding none
    rw [← h.scheduled ended unfired, ← h.requests] at hr
    rcases h.logs.lasting unfired h.onPlan.sound r hr with past | ⟨v, hv, -⟩
    · rwa [stop] at past
    · rw [(h.accounts.finished (h.finished ended)).2.1] at hv
      cases hv

/-- All tones that a track that is over called for are counted as completed. -/
theorem tonesCompleted (h : q.IsLogged config t s) (ended : q.isOver = true) :
    q.report.tonesCompleted = (s.callsOf q.index).length := by
  have tones := h.accounts.tones_eq (h.finished ended)
  rwa [h.logs.report, Nat.add_zero] at tones

/-- The tones of a track stop when it ends, or before. -/
theorem wake_le (h : q.IsLogged config t s) {v : Voice} (hv : v ∈ q.ringing) {w : Nat}
    (wake : v.tone.wake? = some w) : t.notes ≠ [] ∧ w ≤ tick (lengthOf t) := by
  obtain ⟨r, hr, eq⟩ := h.exists_request hv wake
  constructor
  · intro none
    have no_more := h.inside
    rw [none] at no_more
    rw [Nat.le_zero.1 no_more] at hr
    cases hr
  · have stop : tick r.stop ≤ tick (lengthOf t) := tick_mono (Track.stop_le h.inside hr)
    rcases eq with rfl | rfl
    · exact Nat.le_trans (tick_mono (Nat.le_add_right _ _)) stop
    · exact stop

end Player.IsLogged

/-! ### What comes of a performance -/

/-- A cancellation does not give the performance up. -/
theorem Setup.IsKept.stoppedAt {setup : Setup σ} (kept : setup.IsKept) (T : Nat) :
    (setup.stoppedAt T .cancel).IsKept := List.forall_mem_cons.2 ⟨nofun, kept⟩

/-- The performance comes to its end and is reported.  No tone failed, and all tones that a track
called for are counted as completed. -/
structure Completes (setup : Setup σ) (sheet : Sheet) (r : Result) (report : Report) : Prop where
  performed : perform setup sheet = some r
  reported : r.report = some report
  failed : report.tonesFailed = 0
  completed : ∀ (i : Nat) (t : Track), sheet.tracks[i]? = some t →
    ∃ entry, report.tracks[i]? = some entry ∧
      entry.tonesCompleted = (r.calls.filter (·.track == i)).length

/-- No tone failed if none of the entries counts one. -/
theorem Report.tonesFailed_eq_zero {r : Report} (none : ∀ entry ∈ r.tracks, entry.tonesFailed = 0) :
    r.tonesFailed = 0 := by
  rw [r.totals.2.1]
  refine List.sum_eq_zero_iff_forall_eq_nat.2 fun failed hf => ?_
  obtain ⟨entry, he, rfl⟩ := List.mem_map.1 hf
  exact none entry he

/-- What comes of a performance is what it is when it is over. -/
theorem perform_eq_of_isOver {setup : Setup σ} {sheet : Sheet} {n : Nat} (kept : setup.IsKept)
    (ended : ((ofSheet setup sheet).start.run n).isOver = true) :
    perform setup sheet = some
      { report := some ((ofSheet setup sheet).start.run n).report
        elapsed := ((ofSheet setup sheet).start.run n).stage.now
        calls := ((ofSheet setup sheet).start.run n).stage.calls.reverse
        events := ((ofSheet setup sheet).start.run n).stage.events.reverse } := by
  have notDropped := (staysKept_run kept sheet n).1
  rw [isOver, notDropped, Bool.false_or] at ended
  exact perform_eq_some_iff.2 ⟨n, result?_of_isComplete ended notDropped⟩

namespace Setup.Logs

variable {setup : Setup Unit} {sheet : Sheet} {n : Nat}

/-- The player of a track of a performance that is over. -/
theorem exists_finished (h : setup.Logs sheet) (kept : setup.IsKept)
    (ended : ((ofSheet setup sheet).start.run n).isOver = true) {i : Nat} {t : Track}
    (track : sheet.tracks[i]? = some t) :
    ∃ q : Player, ((ofSheet setup sheet).start.run n).players[i]? = some q ∧ q.index = i ∧
      q.isOver = true ∧ q.IsLogged setup.config t ((ofSheet setup sheet).start.run n).stage := by
  obtain ⟨q, found, index, logged⟩ := h.exists_player n track
  have atEnd := isOver_of_mem ended (staysKept_run kept sheet n).1 q (List.mem_of_getElem? found)
  exact ⟨q, found, index, atEnd, logged⟩

/-- The entry of a track in the report. -/
theorem exists_entry (h : setup.Logs sheet) (kept : setup.IsKept)
    (ended : ((ofSheet setup sheet).start.run n).isOver = true) {i : Nat} {t : Track}
    (track : sheet.tracks[i]? = some t) :
    ∃ entry, ((ofSheet setup sheet).start.run n).report.tracks[i]? = some entry ∧
      entry.tonesCompleted = (((ofSheet setup sheet).start.run n).stage.callsOf i).length ∧
      (((ofSheet setup sheet).start.run n).stage.cancelled = false →
        entry.notesScheduled = t.notes.length) := by
  obtain ⟨q, found, rfl, atEnd, logged⟩ := h.exists_finished kept ended track
  refine ⟨q.report, ?_, logged.tonesCompleted atEnd, logged.scheduled atEnd⟩
  rw [report, List.getElem?_map, found]
  rfl

/-- A performance that is over by some instant is reported as it is then. -/
theorem completes (h : setup.Logs sheet) (kept : setup.IsKept)
    (ended : ((ofSheet setup sheet).start.run n).isOver = true) :
    ∃ r, Completes setup sheet r ((ofSheet setup sheet).start.run n).report ∧
      r.elapsed = ((ofSheet setup sheet).start.run n).stage.now ∧
      r.calls = ((ofSheet setup sheet).start.run n).stage.calls.reverse := by
  refine ⟨_, ⟨perform_eq_of_isOver kept ended, rfl, ?_, fun i t track => ?_⟩, rfl, rfl⟩
  · refine Report.tonesFailed_eq_zero fun entry he => ?_
    obtain ⟨q, hq, rfl⟩ := List.mem_map.1 he
    obtain ⟨i, t, -, -, -, logged⟩ := h.exists_track hq
    exact logged.logs.report
  · obtain ⟨entry, here, completed, -⟩ := h.exists_entry kept ended track
    exact ⟨entry, here, completed⟩

/-! ### The end of a performance that nobody cuts -/

variable (sounding : ∀ t ∈ sheet.tracks, ∀ n ∈ t.notes, n.pitches ≠ [])

include sounding

/-- No track is over later than all. -/
theorem closings_le (h : setup.Logs sheet) (undisturbed : setup.IsUndisturbed)
    (kept : setup.IsKept) (ended : ((ofSheet setup sheet).start.run n).isOver = true) :
    ∀ w ∈ closings sheet ((ofSheet setup sheet).start.run n).stage.calls.reverse,
      w ≤ ((ofSheet setup sheet).start.run n).stage.now := by
  intro w hw
  obtain ⟨i, t, track, -, rfl⟩ := mem_closings.1 hw
  obtain ⟨q, -, rfl, atEnd, logged⟩ := h.exists_finished kept ended track
  have unfired := (isUncut_run undisturbed sheet n).unfired
  exact Nat.max_le.2 ⟨logged.logs.lastCall_le,
    logged.elapsed atEnd unfired (sounding t (List.mem_of_getElem? track))⟩

/-- A track that had notes left and is over in the next instant called for them in it. -/
theorem lastCall_eq_now (h : setup.Logs sheet) (undisturbed : setup.IsUndisturbed)
    (kept : setup.IsKept) (ended : ((ofSheet setup sheet).start.run (n + 1)).isOver = true)
    {i : Nat} {t : Track} (track : sheet.tracks[i]? = some t) {q : Player} (index : q.index = i)
    (logged : q.IsLogged setup.config t ((ofSheet setup sheet).start.run n).stage)
    (left : q.report.notesScheduled < t.notes.length) :
    lastCall ((ofSheet setup sheet).start.run (n + 1)).stage.calls.reverse i =
      ((ofSheet setup sheet).start.run (n + 1)).stage.now := by
  obtain ⟨q', -, index', atEnd, logged'⟩ := h.exists_finished kept ended track
  have all := logged'.scheduled atEnd (isUncut_run undisturbed sheet (n + 1)).unfired
  have requests := logged.requests
  have requests' := logged'.requests
  rw [index] at requests
  rw [index', all] at requests'
  have new : t.requests q.report.notesScheduled ≠ t.requests t.notes.length :=
    Track.requests_ne (sounding t (List.mem_of_getElem? track)) left (Nat.le_refl _)
  rw [← requests, ← requests', run_succ] at new
  rw [run_succ]
  exact lastCall_goOn new.symm

/-- The last instant is one at which a track is over. -/
theorem le_closings (h : setup.Logs sheet) (undisturbed : setup.IsUndisturbed)
    (kept : setup.IsKept) (ended : ((ofSheet setup sheet).start.run n).isOver = true) :
    ((ofSheet setup sheet).start.run n).stage.now = 0 ∨
      ∃ w ∈ closings sheet ((ofSheet setup sheet).start.run n).stage.calls.reverse,
        ((ofSheet setup sheet).start.run n).stage.now ≤ w := by
  induction n with
  | zero => exact .inl (now_start _)
  | succ n ih =>
      by_cases before : ((ofSheet setup sheet).start.run n).isOver = true
      · rw [run_eq_of_isOver before (Nat.le_succ n)]
        exact ih before
      · right
        -- a player that was still going on, and what it waited for
        obtain ⟨q, hq, going⟩ := exists_going before
        obtain ⟨i, t, track, -, index, logged⟩ := h.exists_track hq
        have played := (isPlayed_run setup sheet n).2.resolve_left before
        rcases logged.waits (played.players q hq) going with ⟨w, throttled⟩ | ⟨v, hv, r, -, logs⟩
        · have left := logged.onPlan.plan.lt_length (.inr (.inr ⟨w, throttled⟩))
            (logged.awaits w throttled)
          have some : t.notes ≠ [] := List.ne_nil_of_length_pos (Nat.zero_lt_of_lt left)
          refine ⟨_, mem_closings.2 ⟨i, t, track, some, rfl⟩, ?_⟩
          rw [← h.lastCall_eq_now sounding undisturbed kept ended track index logged left]
          exact Nat.le_max_left _ _
        · obtain ⟨-, u, -, next, first⟩ := h.isLogged.exists_next before
          obtain ⟨-, w, wake, -⟩ := logs.waits
          obtain ⟨some, soon⟩ := logged.wake_le hv wake
          refine ⟨_, mem_closings.2 ⟨i, t, track, some, rfl⟩, ?_⟩
          calc ((ofSheet setup sheet).start.run (n + 1)).stage.now = u := by
                rw [next, now_round, jumpTo]
            _ ≤ w := first w (mem_dueTimes_of_tone hq hv wake)
            _ ≤ tick (lengthOf t) := soon
            _ ≤ _ := Nat.le_max_right _ _

omit sounding

/-! ### The end of a performance that is cancelled -/

theorem stoppedAt (h : setup.Logs sheet) (T : Nat) : (setup.stoppedAt T .cancel).Logs sheet :=
  ⟨h.renderer, h.long, h.playable⟩

/-- A performance that is cancelled before its end is over in that instant. -/
theorem exists_cancelled (h : setup.Logs sheet) (kept : setup.IsKept) {T : Nat} (later : 0 < T)
    (soon : T < ((ofSheet setup sheet).start.run n).stage.now) :
    ∃ k, ((ofSheet (setup.stoppedAt T .cancel) sheet).start.run k).isOver = true ∧
      ((ofSheet (setup.stoppedAt T .cancel) sheet).start.run k).stage.now = T := by
  have both : (ofSheet (setup.stoppedAt T .cancel) sheet).start =
      (ofSheet setup sheet).start.stoppedAt T .cancel :=
    start_stoppedAt (p := ofSheet setup sheet) later
  have before : (ofSheet setup sheet).start.stage.now < T := by
    rwa [show (ofSheet setup sheet).start.stage.now = 0 from now_start _]
  rcases run_stoppedAt _ before .cancel n with ⟨early, -⟩ | ⟨k, -, -, -, -, -, here⟩
  · exact absurd (Nat.lt_trans early soon) (Nat.lt_irrefl _)
  · have cut := here
    rw [← both] at cut
    refine ⟨k + 1, ?_, by rw [cut, now_round]; rfl⟩
    have fired : ((ofSheet (setup.stoppedAt T .cancel) sheet).start.run
        (k + 1)).stage.cancelled = true := by
      have notDropped := (staysKept_run (kept.stoppedAt T) sheet (k + 1)).1
      rw [cut] at notDropped ⊢
      exact cancelled_round_stoppedAt rfl notDropped
    -- nobody is left who waits
    by_contra going
    obtain ⟨unfired, -⟩ := (h.stoppedAt T).isLogged.exists_next going
    exact Bool.false_ne_true (unfired.symm.trans fired)

end Setup.Logs

/-- When the playback of a text ends, if it is played for the log, ticks take time and no instant
is too late to be represented.

* Whenever the token is fired, before the start or later, and whatever the volume is set to, the
  performance comes to its end; no tone fails, and all tones that a track called for are
  counted as completed.
* If nobody fires the token, it ends when the last of the tracks that have notes has made its
  last call and its notes have elapsed; no track has notes left, and none lasts longer.
* If the token is fired before that, and not before the start, it ends in that instant. -/
theorem playback_ends {text : List Char} {sheet : Sheet} (read : Sheet.ofText text = .ok sheet)
    {setup : Setup Unit} (logged : setup.renderer = .logging)
    (long : 0 < setup.config.throttleTick)
    (inTime : ∀ t ∈ sheet.tracks, t.IsInTime setup.config) (kept : setup.IsKept) :
    (∃ r report, Completes setup sheet r report) ∧
    (setup.IsUndisturbed → ∃ r report, Completes setup sheet r report ∧
      r.elapsed = closing sheet r.calls ∧
      (∀ t ∈ sheet.tracks, lengthOf t ≤ r.elapsed) ∧
      (∀ (i : Nat) (t : Track), sheet.tracks[i]? = some t →
        ∃ entry, report.tracks[i]? = some entry ∧ entry.notesScheduled = t.notes.length) ∧
      ∀ T, 0 < T → T < r.elapsed → ∃ r' report',
        Completes (setup.stoppedAt T .cancel) sheet r' report' ∧ r'.elapsed = T) := by
  have playable := isPlayable_of_ofText read
  have logs : setup.Logs sheet := ⟨logged, long, isPlayable_of_isInTime read inTime⟩
  have sounding : ∀ t ∈ sheet.tracks, ∀ n ∈ t.notes, n.pitches ≠ [] :=
    fun t ht n hn => (playable t ht n hn).sounding
  have ended := logs.isOver_run
  obtain ⟨r, completes, elapsed, calls⟩ := logs.completes kept ended
  refine ⟨⟨r, _, completes⟩, fun undisturbed => ⟨r, _, completes, ?_, ?_, fun i t track => ?_, ?_⟩⟩
  · rw [elapsed, calls]
    exact (closing_eq (logs.closings_le sounding undisturbed kept ended)
      (logs.le_closings sounding undisturbed kept ended)).symm
  · intro t ht
    obtain ⟨i, track⟩ := List.mem_iff_getElem?.1 ht
    obtain ⟨q, -, -, atEnd, logged⟩ := logs.exists_finished kept ended track
    rw [elapsed]
    exact Nat.le_trans (le_tick _)
      (logged.elapsed atEnd (isUncut_run undisturbed sheet _).unfired (sounding t ht))
  · obtain ⟨entry, here, -, scheduled⟩ := logs.exists_entry kept ended track
    exact ⟨entry, here, scheduled (isUncut_run undisturbed sheet _).unfired⟩
  · intro T later soon
    rw [elapsed] at soon
    obtain ⟨k, atEnd, now⟩ := logs.exists_cancelled kept later soon
    obtain ⟨r', completes', elapsed', -⟩ := (logs.stoppedAt T).completes (kept.stoppedAt T) atEnd
    exact ⟨r', _, completes', elapsed'.trans now⟩

/-- Four notes of half a second, with a look-ahead of a second and ticks of ten: the last note is
asked for after ten seconds, and so the playback takes ten seconds and not two.  Cancelled
after one second, it takes one. -/
theorem playback_ends_late :
    ∃ (sheet : Sheet) (setup : Setup Unit) (r r' : Result) (report report' : Report),
      Sheet.ofText "C4:q D4:q E4:q F4:q".toList = .ok sheet ∧
      setup = .logging ⟨second, 10 * second⟩ ∧
      sheet.tracks.map lengthOf = [2 * second] ∧
      Completes setup sheet r report ∧ r.elapsed = 10 * second ∧
      Completes (setup.stoppedAt second .cancel) sheet r' report' ∧ r'.elapsed = second := by
  let config : Config := ⟨second, 10 * second⟩
  have seen : ((Sheet.ofText "C4:q D4:q E4:q F4:q".toList).toOption.map fun sheet =>
      (sheet.tracks.map lengthOf, (perform (.logging config) sheet).map (·.elapsed))) =
        some ([2 * second], some (10 * second)) := by
    decide +kernel
  rcases read : Sheet.ofText "C4:q D4:q E4:q F4:q".toList with e | sheet
  · rw [read] at seen
    cases seen
  · rw [read] at seen
    obtain ⟨lengths, ends⟩ := Prod.mk.inj (Option.some.inj seen)
    have inTime : ∀ t ∈ sheet.tracks, t.IsInTime config := by
      intro t ht
      have length : lengthOf t ∈ sheet.tracks.map lengthOf := List.mem_map_of_mem ht
      rw [lengths, List.mem_singleton] at length
      exact Track.isInTime_of_lt (by rw [length]; decide)
    have undisturbed := isUndisturbed_logging config
    have logged : (Setup.logging config).renderer = .logging := rfl
    obtain ⟨-, natural⟩ := playback_ends read logged (by decide) inTime nofun
    obtain ⟨r, report, completes, -, -, -, cancelled⟩ := natural undisturbed
    have elapsed : r.elapsed = 10 * second := by
      rw [completes.performed] at ends
      exact Option.some.inj ends
    obtain ⟨r', report', completes', elapsed'⟩ :=
      cancelled second (by decide) (by rw [elapsed]; decide)
    exact ⟨sheet, _, r, r', report, report', rfl, rfl, lengths, completes, elapsed, completes',
      elapsed'⟩

end Playback

end SongSheet
