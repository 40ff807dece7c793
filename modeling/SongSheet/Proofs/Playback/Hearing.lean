/-
SongSheet/Proofs/Playback/Hearing.lean

Each tone of a playback for the log is told of once.

The books of the calls for tones that would be heard are kept from instant to instant (`Books`).
A tone that is still to be told of waits for no instant but the one at which it is heard, so
the clock does not jump past it (`Awaiting.later`), and it is told of at that instant with
the gain that the bus has then, unless its track broke down before.  Such a tone is lost, and so
are those that are not heard before the token is fired.  When the performance is over, no tone is
left, so that every call is either told of or lost (`tones_told_once`).

A track breaks down when it comes to a note whose length is no length of time, or that ends too
late to be represented.  The tones that it called for are then gone with it
(`tone_untold_of_crash`).
-/
import SongSheet.Proofs.Playback.Closing
import SongSheet.Proofs.Playback.Outside
import SongSheet.Proofs.Playback.Telling

namespace SongSheet.Playback

open Clock Performance Ensemble

variable {σ : Type}

/-! ### Waiting for later -/

/-- A tone that is still to be told of wakes when it is heard. -/
theorem Tone.Logs.wake?_of_awaited? {r r' : Request} {t : Tone} (h : t.Logs r)
    (awaited : t.awaited? = some r') : t.wake? = some (tick r'.start) := by
  rcases h with rfl | rfl
  · rw [Tone.awaited?_logging] at awaited
    split at awaited
    · cases awaited
    · cases awaited
      rfl
  · cases awaited

/-- A player waits on when the clock jumps no further than to the next wake of its tones. -/
theorem Player.Awaits.later {now t : Nat} {q : Player} {older fresh : List Call}
    (h : q.Awaits now older fresh) (onward : now ≤ t)
    (soon : ∀ v ∈ q.ringing, ∀ w, v.tone.wake? = some w → t ≤ w) : q.Awaits t older fresh where
  ofOlder := h.ofOlder
  ofFresh := h.ofFresh
  calls c hc := by
    obtain ⟨track, called, -⟩ := h.calls c hc
    have requested : c.request ∈ q.ringing.filterMap (·.tone.awaited?) := by
      rw [Player.ringing, List.filterMap_append, ← h.ofOlder, ← h.ofFresh, ← List.map_append]
      exact List.mem_map_of_mem hc
    obtain ⟨v, hv, awaited⟩ := List.mem_filterMap.1 requested
    obtain ⟨r, logs⟩ := h.tones v hv
    exact ⟨track, Nat.le_trans called onward,
      Nat.le_trans (soon v hv _ (logs.wake?_of_awaited? awaited)) (Nat.le_max_right _ _)⟩
  tones := h.tones
  silent := h.silent

theorem Awaiting.later {now t : Nat} {ps : List Player} {left : List Call}
    (h : Awaiting now ps left) (onward : now ≤ t)
    (soon : ∀ q ∈ ps, ∀ v ∈ q.ringing, ∀ w, v.tone.wake? = some w → t ≤ w) :
    Awaiting t ps left := by
  induction h with
  | nil => exact .nil
  | cons here _ ih =>
      obtain ⟨first, others⟩ := List.forall_mem_cons.1 soon
      exact .cons (here.later onward first) (ih others)

/-- Players without tones do not wait for any. -/
theorem Awaiting.eq_nil {now : Nat} {ps : List Player} {left : List Call}
    (h : Awaiting now ps left) (silent : ∀ q ∈ ps, q.ringing = []) : left = [] := by
  induction h with
  | nil => rfl
  | @cons q _ older fresh _ here _ ih =>
      obtain ⟨first, others⟩ := List.forall_mem_cons.1 silent
      obtain ⟨old, new⟩ := List.append_eq_nil_iff.1 first
      have older : older = [] := List.map_eq_nil_iff.1 (by rw [here.ofOlder, old]; rfl)
      have fresh : fresh = [] := List.map_eq_nil_iff.1 (by rw [here.ofFresh, new]; rfl)
      rw [older, fresh, ih others]
      rfl

theorem awaiting_nil (now : Nat) {ps : List Player} (silent : ∀ q ∈ ps, q.ringing = []) :
    Awaiting now ps [] := by
  induction ps with
  | nil => exact .nil
  | cons q ps ih =>
      obtain ⟨first, others⟩ := List.forall_mem_cons.1 silent
      obtain ⟨old, new⟩ := List.append_eq_nil_iff.1 first
      have here : q.Awaits now [] [] :=
        ⟨by rw [old]; rfl, by rw [new]; rfl, nofun, by rw [first]; nofun, fun _ => first⟩
      exact .cons here (ih others)

/-! ### Tracks that break down -/

/-- A track of a sheet has broken down by an instant. -/
def Setup.BreaksBy (setup : Setup σ) (sheet : Sheet) (i x : Nat) : Prop :=
  ∃ n, HasCrashed ((ofSheet setup sheet).start.run n).players i ∧
    ((ofSheet setup sheet).start.run n).stage.now ≤ x

namespace Setup.IsLogged

variable {setup : Setup Unit} {sheet : Sheet} {n : Nat}

/-- A player that broke down does so for good. -/
theorem hasCrashed_run (h : setup.IsLogged) {m : Nat} (later : m ≤ n) {i : Nat}
    (broken : HasCrashed ((ofSheet setup sheet).start.run m).players i) :
    HasCrashed ((ofSheet setup sheet).start.run n).players i := by
  induction later with
  | refl => exact broken
  | @step n _ ih =>
      have same := (isPlayed_run setup sheet n).1
      rw [run_succ]
      generalize (ofSheet setup sheet).start.run n = p at *
      rcases goOn_cases p with still | ⟨t, -, eq⟩
      · rwa [still]
      · obtain ⟨players, setup', -⟩ := intervene_spec (p.jumpTo t)
        rw [eq, Performance.round]
        split
        · rw [players]
          exact ih
        · have logs : (p.jumpTo t).intervene.setup.renderer = .logging := by
            rw [setup']
            exact same ▸ h.renderer
          rw [players_conclude]
          refine (fares_proceed logs).crashed i ?_
          rw [players]
          exact ih

/-- No player is sound and broken down. -/
theorem not_hasCrashed (h : setup.IsLogged) {i : Nat}
    (sound : IsSound ((ofSheet setup sheet).start.run n).players i) :
    ¬ HasCrashed ((ofSheet setup sheet).start.run n).players i := by
  have numbered := (playerInvariant_logs h.renderer).of_run h.leavesToken sheet n
  rintro ⟨q, hq, index, broken⟩
  obtain ⟨q', hq', index', phase⟩ := sound
  obtain ⟨j, there⟩ := List.mem_iff_getElem?.1 hq
  obtain ⟨k, there'⟩ := List.mem_iff_getElem?.1 hq'
  have at_j : i = j := index.symm.trans (numbered j q there).1
  have at_k : i = k := index'.symm.trans (numbered k q' there').1
  rw [← at_j] at there
  rw [← at_k, there] at there'
  exact phase (Option.some.inj there' ▸ broken)

/-- A track that is sound up to an instant did not break down before the next one. -/
theorem not_breaksBy (h : setup.IsLogged) {i x : Nat}
    (sound : IsSound ((ofSheet setup sheet).start.run n).players i)
    (before : x < ((ofSheet setup sheet).start.run (n + 1)).stage.now) :
    ¬ setup.BreaksBy sheet i x := by
  rintro ⟨m, broken, by_x⟩
  have early : m ≤ n := by
    by_contra late
    -- from the next instant on, the clock is past `x`
    have onward := now_le_run ((ofSheet setup sheet).start.run (n + 1)) (m - (n + 1))
    rw [← run_add, Nat.add_sub_cancel' (Nat.lt_of_not_le late)] at onward
    exact Nat.not_le_of_lt (Nat.lt_of_le_of_lt by_x before) onward
  exact h.not_hasCrashed sound (h.hasCrashed_run early broken)

end Setup.IsLogged

/-! ### Books -/

/-- The event that tells of the tone of a call: at the instant at which it is heard, with the
gain that the bus has then. -/
def Setup.toneOf (setup : Setup σ) (c : Call) : Nat × Event :=
  (c.heardAt, .said (.sounds c.request) (setup.busAt c.heardAt).gain)

/-- The books of a performance: the calls for tones that would be heard are told, lost or left,
and the events tell of tones that are told.  None is told after the token is fired or its track has
broken down, and none is lost before. -/
structure Books (setup : Setup Unit) (sheet : Sheet) (p : Performance Unit)
    (told lost left : List Call) : Prop where
  calls : (told ++ lost ++ left).Perm (p.stage.calls.filter (·.isAudible))
  tones : p.stage.tones.Perm (told.map setup.toneOf)
  waits : Awaiting p.stage.now p.players left
  endings : ∀ e ∈ p.stage.endings, e.outcome = .completed
  told : ∀ c ∈ told, setup.IsOpenAt c.heardAt ∧
    ∀ x < c.heardAt, ¬ setup.BreaksBy sheet c.track x
  lost : ∀ c ∈ lost, ¬ setup.IsOpenAt c.heardAt ∨ setup.BreaksBy sheet c.track c.heardAt

namespace Books

variable {setup : Setup Unit} {sheet : Sheet} {p : Performance Unit} {told lost left : List Call}

/-- Before the first instant, nothing is entered. -/
theorem ofSheet (setup : Setup Unit) (sheet : Sheet) :
    Books setup sheet (ofSheet setup sheet) [] [] [] where
  calls := .refl _
  tones := .refl _
  waits := awaiting_nil 0 fun q hq => by
    obtain ⟨i, -, rfl⟩ := List.mem_mapIdx.1 hq
    rfl
  endings := nofun
  told := nofun
  lost := nofun

/-- The clock jumps to the first instant at which something is due. -/
theorem jumpTo (h : Books setup sheet p told lost left) {t : Nat} (onward : p.stage.now ≤ t)
    (first : ∀ w ∈ p.dueTimes, t ≤ w) : Books setup sheet (p.jumpTo t) told lost left where
  calls := h.calls
  tones := h.tones
  waits := h.waits.later onward fun _ hq _ hv w wake => first w (mem_dueTimes_of_tone hq hv wake)
  endings := h.endings
  told := h.told
  lost := h.lost

/-- Interventions are not entered. -/
theorem intervene (h : Books setup sheet p told lost left) :
    Books setup sheet p.intervene told lost left := by
  have stage := stage_foldl_undergo (p.interventions.filter (·.1 ≤ p.stage.now))
    { p with interventions := p.interventions.filter (p.stage.now < ·.1) }
  rw [← intervene_eq] at stage
  refine ⟨?_, ?_, ?_, ?_, h.told, h.lost⟩
  · rw [stage]
    exact h.calls
  · rw [stage]
    exact h.tones
  · rw [stage, (intervene_spec p).1]
    exact h.waits
  · rw [stage]
    exact h.endings

theorem conclude (h : Books setup sheet p told lost left) :
    Books setup sheet p.conclude told lost left := by
  rw [Performance.conclude]
  split
  · exact ⟨h.calls, by rw [Stage.tones_tell_of_not rfl]; exact h.tones, h.waits, h.endings, h.told,
      h.lost⟩
  · exact h

/-- The visits of a round: what is told is told of now, and what is lost would be heard now or
later. -/
theorem proceed (h : Books setup sheet p told lost left) (current : p.IsCurrent setup)
    (logged : setup.IsLogged)
    (sound : ∀ i, IsSound p.players i → ∀ x < p.stage.now, ¬ setup.BreaksBy sheet i x)
    (broken : ∀ i, HasCrashed p.proceed.players i → setup.BreaksBy sheet i p.stage.now) :
    (∃ told lost left, Books setup sheet p.proceed told lost left) ∧ p.proceed.IsCurrent setup := by
  have logs : p.setup.renderer = .logging := current.plays ▸ logged.renderer
  obtain ⟨told', lost', left', waits, turn, whole, why⟩ := (fares_proceed logs).turn left h.waits
  refine ⟨⟨told ++ told', lost ++ lost', left', ?_, ?_, waits, fun e he => ?_, ?_, ?_⟩,
    current.of_sameMoment turn.moment rfl rfl turn.bus⟩
  · -- what was left before is among the calls that were made before
    refine List.perm_iff_count.2 fun c => ?_
    have before := h.calls.count_eq c
    have new := turn.calls.count_eq c
    simp only [List.count_append] at before new ⊢
    omega
  · -- the bus of the stage is the one that the setup says for the instant of the event
    have heard : told'.map p.stage.heard = told'.map setup.toneOf :=
      List.map_congr_left fun c hc => by
        rw [Stage.heard, Setup.toneOf, (turn.told c hc).2, current.bus]
    rw [List.map_append, ← heard]
    exact turn.tones.trans ((h.tones.append_left _).trans List.perm_append_comm)
  · exact (turn.endings e he).elim (h.endings e) id
  · refine List.forall_mem_append.2 ⟨h.told, fun c hc => ?_⟩
    obtain ⟨unfired, now⟩ := turn.told c hc
    rw [now]
    exact ⟨current.token.1 unfired, sound _ (whole c hc)⟩
  · refine List.forall_mem_append.2 ⟨h.lost, fun c hc => ?_⟩
    have later := turn.lost c hc
    refine (why c hc).imp (fun fired unfired => ?_) fun crashed => ?_
    · -- the tone would be heard now or later, and the token is fired already
      have before := current.token.2 (unfired.mono later)
      rw [fired] at before
      cases before
    · obtain ⟨n, has, by_now⟩ := broken _ crashed
      exact ⟨n, has, Nat.le_trans by_now later⟩

/-- The books of a round, which is the `n`-th instant. -/
theorem round (h : Books setup sheet p told lost left) (current : p.intervene.IsCurrent setup)
    (logged : setup.IsLogged) (kept : p.intervene.dropped = false) {n : Nat}
    (here : (Performance.ofSheet setup sheet).start.run n = p.round)
    (sound : ∀ i, IsSound p.players i → ∀ x < p.stage.now, ¬ setup.BreaksBy sheet i x) :
    (∃ told lost left, Books setup sheet p.round told lost left) ∧ p.round.IsCurrent setup := by
  obtain ⟨players, -, -⟩ := intervene_spec p
  have now : p.intervene.stage.now = p.stage.now := now_foldl_undergo _ _
  have round : p.round = p.intervene.proceed.conclude := by
    rw [Performance.round, if_neg (Bool.eq_false_iff.1 kept)]
  obtain ⟨⟨told, lost, left, books⟩, current⟩ := h.intervene.proceed current logged
    (by rw [players, now]; exact sound) fun i crashed => by
      refine ⟨n, ?_, ?_⟩
      · rw [here, round, players_conclude]
        exact crashed
      · rw [here, now_round, now]
  rw [round]
  exact ⟨⟨told, lost, left, books.conclude⟩, current.conclude⟩

/-- If no track breaks down, the calls are told whose tones are heard before the token is
fired. -/
theorem told_perm (h : Books setup sheet p told lost [])
    (whole : ∀ i x, ¬ setup.BreaksBy sheet i x) :
    told.Perm (p.stage.calls.filter fun c => c.isAudible && setup.IsOpenAt c.heardAt) := by
  have calls := h.calls.filter (setup.IsOpenAt ·.heardAt)
  have heard : told.filter (setup.IsOpenAt ·.heardAt) = told :=
    List.filter_eq_self.2 fun c hc => decide_eq_true (h.told c hc).1
  have unheard : lost.filter (setup.IsOpenAt ·.heardAt) = [] :=
    List.filter_eq_nil_iff.2 fun c hc => by
      have shut := (h.lost c hc).resolve_right (whole _ _)
      simpa using shut
  rw [List.append_nil, List.filter_append, heard, unheard, List.append_nil,
    List.filter_filter] at calls
  simpa only [Bool.and_comm] using calls

end Books

namespace Setup.IsLogged

variable {setup : Setup Unit}

/-- The books are kept at all times. -/
theorem exists_books (h : setup.IsLogged) (kept : setup.IsKept) (sheet : Sheet) (n : Nat) :
    (∃ told lost left, Books setup sheet ((ofSheet setup sheet).start.run n) told lost left) ∧
      (((ofSheet setup sheet).start.run n).isOver = true ∨
        ((ofSheet setup sheet).start.run n).IsCurrent setup) := by
  have going (n : Nat) : ((ofSheet setup sheet).start.run n).dropped = false :=
    (staysKept_run kept sheet n).1
  induction n with
  | zero =>
      -- a sheet without tracks is over before its interventions
      have goes := going 0
      by_cases complete : (ofSheet setup sheet).isComplete = true
      · have here : (ofSheet setup sheet).start.run 0 = (ofSheet setup sheet).conclude :=
          if_pos complete
        rw [here]
        exact ⟨⟨[], [], [], (Books.ofSheet setup sheet).conclude⟩, .inl (isOver_conclude complete)⟩
      · have here : (ofSheet setup sheet).start.run 0 = (ofSheet setup sheet).round :=
          if_neg complete
        rw [here, dropped_round] at goes
        obtain ⟨books, current⟩ := (Books.ofSheet setup sheet).round
          (isCurrent_intervene_ofSheet setup sheet) h goes here fun _ _ _ early => nomatch early
        rw [here]
        exact ⟨books, .inr current⟩
  | succ n ih =>
      obtain ⟨⟨told, lost, left, books⟩, current⟩ := ih
      by_cases ended : ((ofSheet setup sheet).start.run n).isOver = true
      · rw [run_eq_of_isOver ended (Nat.le_succ n)]
        exact ⟨⟨told, lost, left, books⟩, current⟩
      · -- all that is due is due at `t` or later, and so no tone is passed by
        obtain ⟨-, t, later, here, first⟩ := h.exists_next ended
        have goes := going (n + 1)
        have now : ((ofSheet setup sheet).start.run (n + 1)).stage.now = t := by
          rw [here, now_round]
          rfl
        rw [here, dropped_round] at goes
        have comes := (current.resolve_left ended).intervene_jumpTo later fun d hd =>
          first d.1 (List.mem_append_left _ (List.mem_map_of_mem hd))
        obtain ⟨books, current⟩ := (books.jumpTo (Nat.le_of_lt later) first).round comes h goes here
          fun i sound x early => h.not_breaksBy sound (by rw [now]; exact early)
        rw [here]
        exact ⟨books, .inr current⟩

/-- When the performance is over, no call is left. -/
theorem exists_closed (h : setup.IsLogged) (kept : setup.IsKept) {sheet : Sheet} {n : Nat}
    (ended : ((ofSheet setup sheet).start.run n).isOver = true) :
    ∃ told lost, Books setup sheet ((ofSheet setup sheet).start.run n) told lost [] := by
  obtain ⟨⟨told, lost, left, books⟩, -⟩ := h.exists_books kept sheet n
  have none : left = [] := books.waits.eq_nil fun q hq => by
    obtain ⟨i, there⟩ := List.mem_iff_getElem?.1 hq
    have atEnd := isOver_of_mem ended (staysKept_run kept sheet n).1 q hq
    exact ringing_of_isOver (reached_run setup sheet n) (getElem?_ofPerformance there) atEnd
  exact ⟨told, lost, none ▸ books⟩

/-- The entries of the tracks in the report: no tone failed, and all that a track called for are
counted, unless it broke down. -/
theorem entries (h : setup.IsLogged) (kept : setup.IsKept) {sheet : Sheet} {n : Nat}
    (ended : ((ofSheet setup sheet).start.run n).isOver = true) (i : Nat) (entry : TrackReport)
    (here : ((ofSheet setup sheet).start.run n).report.tracks[i]? = some entry) :
    entry.tonesFailed = 0 ∧
      (entry.tonesCompleted = (((ofSheet setup sheet).start.run n).stage.callsOf i).length ∨
        setup.BreaksBy sheet i ((ofSheet setup sheet).start.run n).stage.now) := by
  rw [report, List.getElem?_map] at here
  obtain ⟨q, there, rfl⟩ := Option.map_eq_some_iff.1 here
  have hq := List.mem_of_getElem? there
  obtain ⟨rfl, logs⟩ := (playerInvariant_logs h.renderer).of_run h.leavesToken sheet n i q there
  refine ⟨logs.report, ?_⟩
  by_cases broken : q.phase = .crashed
  · exact .inr ⟨n, ⟨q, hq, rfl, broken⟩, Nat.le_refl _⟩
  · obtain ⟨-, t, -, -, -, logged⟩ := h.exists_track hq broken
    exact .inl (logged.tonesCompleted (isOver_of_mem ended (staysKept_run kept sheet n).1 q hq))

end Setup.IsLogged

/-- Tracks that can be played do not break down. -/
theorem Setup.Logs.not_breaksBy {setup : Setup Unit} {sheet : Sheet} (h : setup.Logs sheet)
    (i x : Nat) : ¬ setup.BreaksBy sheet i x := by
  rintro ⟨n, ⟨q, hq, -, broken⟩, -⟩
  obtain ⟨_, _, -, -, -, logged⟩ := h.exists_track hq
  exact logged.onPlan.sound broken

/-- In a playback for the log, each tone that would be heard is told of once.

Whenever the token is fired, before the start or later, and whatever the volume is set to, the
performance comes to its end.  Its calls for tones that would be heard fall into those that are
told and those that are lost, and the events that tell of tones are one for each call that is told:
at the instant at which the tone is heard, with the volume of the note times the gain that
the bus has at that instant.  A call is told if its tone is heard before the token is fired, and is
lost otherwise; but the tones of a track that breaks down are lost from then on, where those that
are heard in that very instant may be told or lost.  If all tracks can be played, none does.

All tones that end have completed.  No tone is reported as failed, and of a track that does not
break down, all calls are counted as completed. -/
theorem tones_told_once {setup : Setup Unit} (logged : setup.renderer = .logging)
    (long : 0 < setup.config.throttleTick) (kept : setup.IsKept) (sheet : Sheet) :
    (∀ n, ∀ e ∈ ((ofSheet setup sheet).start.run n).stage.endings, e.outcome = .completed) ∧
    ∃ (r : Result) (report : Report) (told lost : List Call),
      perform setup sheet = some r ∧ r.report = some report ∧
      (told ++ lost).Perm (r.calls.filter (·.isAudible)) ∧
      (r.events.filter (·.2.message = "tone")).Perm (told.map setup.toneOf) ∧
      (∀ c, (setup.toneOf c).2.details.lookup "gain" =
        some (.single (c.request.volume.mul (setup.busAt c.heardAt).gain))) ∧
      (∀ c ∈ told, setup.IsOpenAt c.heardAt ∧
        ∀ x < c.heardAt, ¬ setup.BreaksBy sheet c.track x) ∧
      (∀ c ∈ lost, ¬ setup.IsOpenAt c.heardAt ∨ setup.BreaksBy sheet c.track c.heardAt) ∧
      ((∀ t ∈ sheet.tracks, t.IsPlayable setup.config) →
        (r.events.filter (·.2.message = "tone")).Perm
          ((r.calls.filter fun c => c.isAudible && setup.IsOpenAt c.heardAt).map setup.toneOf)) ∧
      report.tonesFailed = 0 ∧
      ∀ (i : Nat) (entry : TrackReport), report.tracks[i]? = some entry →
        entry.tonesCompleted = (r.calls.filter (·.track == i)).length ∨
          setup.BreaksBy sheet i r.elapsed := by
  have h : setup.IsLogged := ⟨logged, long⟩
  refine ⟨fun n => ?_, ?_⟩
  · obtain ⟨⟨_, _, _, books⟩, -⟩ := h.exists_books kept sheet n
    exact books.endings
  have ended := h.isOver_run sheet
  obtain ⟨told, lost, books⟩ := h.exists_closed kept ended
  have performed := perform_eq_of_isOver kept ended
  have entries := h.entries kept ended
  generalize (ofSheet setup sheet).start.run (roundLimit setup sheet) = p at *
  have calls : (told ++ lost).Perm (p.stage.calls.reverse.filter (·.isAudible)) := by
    have all := books.calls
    rw [List.append_nil] at all
    rw [List.filter_reverse]
    exact all.trans (List.reverse_perm _).symm
  have events : (p.stage.events.reverse.filter (·.2.message = "tone")).Perm
      (told.map setup.toneOf) := by
    have tones : p.stage.events.filter (·.2.message = "tone") = p.stage.tones :=
      List.filter_congr fun e _ => by
        rw [← Bool.decide_coe e.2.isTone, decide_eq_decide]
        exact e.2.isTone_iff.symm
    rw [List.filter_reverse, tones]
    exact (List.reverse_perm _).trans books.tones
  refine ⟨_, p.report, told, lost, performed, rfl, calls, events, fun _ => rfl, books.told,
    books.lost, fun playable => ?_, ?_, fun i entry here => (entries i entry here).2⟩
  · have logs : setup.Logs sheet := ⟨logged, long, playable⟩
    have heard : told.Perm
        (p.stage.calls.reverse.filter fun c => c.isAudible && setup.IsOpenAt c.heardAt) := by
      rw [List.filter_reverse]
      exact (books.told_perm logs.not_breaksBy).trans (List.reverse_perm _).symm
    exact events.trans (heard.map _)
  · refine Report.tonesFailed_eq_zero fun entry he => ?_
    obtain ⟨i, here⟩ := List.mem_iff_getElem?.1 he
    exact (entries i entry here).1

/-- Three notes of a quarter of a second. -/
def tune : Sheet := ⟨[⟨"tune", [440, 550, 660].map fun frequency =>
  ⟨[.ofNat frequency], .ofQuotient false 1 4, .sine, .ofNat 0, .ofNat 1⟩⟩]⟩

/-- The volume is set to a half after a tenth of a second, and the token is fired after four. -/
def faded : Setup Unit :=
  { Setup.logging .initial with
    interventions := [(400 * millisecond, .cancel),
      (100 * millisecond, .setVolume (.ofQuotient false 1 2))] }

/-- All three notes are called for in the first instant.  The first one is told of at once, the
second one later and with half the gain, and the third one, before which the token is fired, is
not. -/
theorem tones_told_once_tune :
    ∃ (r : Result) (report : Report), perform faded tune = some r ∧ r.report = some report ∧
      report.tonesFailed = 0 ∧
      r.calls.map (fun c => (c.instant, c.heardAt)) =
        [(0, 0), (0, 250 * millisecond), (0, 500 * millisecond)] ∧
      ((r.events.filter (·.2.message = "tone")).map fun e => (e.1, e.2.details.lookup "gain")).Perm
        [(0, some (.single (.ofQuotient false 1 10))),
          (250 * millisecond, some (.single (.ofQuotient false 1 20)))] := by
  have logged : faded.renderer = .logging := rfl
  have kept : faded.IsKept :=
    List.forall_mem_cons.2 ⟨nofun, List.forall_mem_singleton.2 nofun⟩
  have playable : ∀ t ∈ tune.tracks, t.IsPlayable faded.config := fun t ht => by
    rw [List.mem_singleton.1 ht]
    exact Track.isPlayable_of_lt (by decide +kernel) (by decide +kernel)
  obtain ⟨-, r, report, told, lost, performed, reported, -, -, -, -, -, heard, failed, -⟩ :=
    tones_told_once logged (by decide) kept tune
  have seen : (perform faded tune).map (fun r => (r.calls.map fun c => (c.instant, c.heardAt),
      ((r.calls.filter fun c => c.isAudible && faded.IsOpenAt c.heardAt).map faded.toneOf).map
        fun e => (e.1, e.2.details.lookup "gain"))) =
      some ([(0, 0), (0, 250 * millisecond), (0, 500 * millisecond)],
        [(0, some (.single (.ofQuotient false 1 10))),
          (250 * millisecond, some (.single (.ofQuotient false 1 20)))]) := by
    decide +kernel
  rw [performed] at seen
  obtain ⟨calls, tones⟩ := Prod.mk.inj (Option.some.inj seen)
  exact ⟨r, report, performed, reported, failed, calls, tones ▸ (heard playable).map _⟩

/-- A note of half a second, and one that does not end. -/
def boundless : Sheet := ⟨[⟨"boundless", [.ofQuotient false 1 2, .infinite false].map fun length =>
  ⟨[.ofNat 440], length, .sine, .ofNat 0, .ofNat 1⟩⟩]⟩

/-- Nobody fires the token, and the first note is called for; but its tone is not told of, since
the track breaks down in the same instant. -/
theorem tone_untold_of_crash :
    ∃ r, perform (.logging .initial) boundless = some r ∧
      r.calls.map (fun c => (c.isAudible, c.heardAt)) = [(true, 0)] ∧
      ¬ (r.events.filter (·.2.message = "tone")).Perm
        ((r.calls.filter fun c => c.isAudible &&
          (Setup.logging .initial).IsOpenAt c.heardAt).map (Setup.logging .initial).toneOf) := by
  have seen : (perform (.logging .initial) boundless).map (fun r =>
      (r.calls.map fun c => (c.isAudible, c.heardAt),
        (r.events.filter (·.2.message = "tone")).length,
        (r.calls.filter fun c => c.isAudible &&
          (Setup.logging .initial).IsOpenAt c.heardAt).length)) =
      some ([(true, 0)], 0, 1) := by
    decide +kernel
  obtain ⟨r, performed, eq⟩ := Option.map_eq_some_iff.1 seen
  obtain ⟨calls, lengths⟩ := Prod.mk.inj eq
  obtain ⟨none, one⟩ := Prod.mk.inj lengths
  refine ⟨r, performed, calls, fun same => ?_⟩
  have length := same.length_eq
  rw [List.length_map, none, one] at length
  cases length

end SongSheet.Playback
