/-
SongSheet/Proofs/Playback/Throttle.lean

Waiting for the clock.

A track that is too far ahead of the clock waits in throttle ticks.  A wait is set up for the
instant at which a tick from now is over, and it lasts until the clock has come there, or the
token is fired (`Ensemble.Waits.until`).  So a wait takes time if a tick does
(`Ensemble.wait_takes_time`), and as all waits end on the grid, a note has its turn after as
many ticks as fill the time by which it is too far ahead (`Config.isTurn_ticksBefore`).

Whether a tick takes time is not what is checked of its number of seconds: half a nanosecond is
a positive number, and is rounded to none.  Then each wait is over where it began, the clock
stays at the origin, and a track that waits once waits for ever
(`Performance.goOn_of_no_tick`).
-/
import SongSheet.Proofs.Config.Acceptance
import SongSheet.Proofs.Playback.Turns

namespace SongSheet

open Clock Playback

/-! ### Counting ticks -/

namespace Config

variable {config : Config} {start instant : Nat}

theorem grid_eq (config : Config) (j : Nat) : config.grid j = j * tick config.throttleTick := by
  induction j with
  | zero => exact (Nat.zero_mul _).symm
  | succ j ih => rw [grid_succ, ih, Nat.succ_mul]

/-- How many throttle ticks fill the time by which a note that starts at `start` is too far
ahead of the origin. -/
def ticksBefore (config : Config) (start : Nat) : Nat :=
  (start - config.lookAhead + (tick config.throttleTick - 1)) / tick config.throttleTick

/-- After that many ticks the note has its turn. -/
theorem isTurn_ticksBefore (long : 0 < config.throttleTick) (start : Nat) :
    config.IsTurn start (config.grid (config.ticksBefore start)) := by
  have pos : 0 < tick config.throttleTick := Nat.lt_of_lt_of_le long (le_tick _)
  generalize far : start - config.lookAhead = ahead
  have count : config.ticksBefore start =
      (ahead + (tick config.throttleTick - 1)) / tick config.throttleTick := by
    rw [ticksBefore, far]
  refine ⟨⟨_, rfl, ?_⟩, ?_⟩
  · intro l before
    rw [count, Nat.lt_iff_add_one_le, Nat.le_div_iff_mul_le pos, Nat.succ_mul] at before
    rw [grid_eq]
    omega
  · have filled := Nat.lt_div_mul_add pos (a := ahead + (tick config.throttleTick - 1))
    rw [← count] at filled
    rw [grid_eq]
    omega

/-- All looks at the note are at the ends of these ticks. -/
theorem IsLook.exists_le_ticksBefore (h : config.IsLook start instant)
    (long : 0 < config.throttleTick) :
    ∃ j ≤ config.ticksBefore start, instant = j * tick config.throttleTick := by
  obtain ⟨j, rfl, before⟩ := h
  refine ⟨j, ?_, config.grid_eq j⟩
  by_contra after
  have far := before _ (Nat.lt_of_not_le after)
  exact absurd (isTurn_ticksBefore long start).2 (Nat.not_le_of_lt far)

/-- Ticks take time if they are not given, or are more than half a nanosecond. -/
theorem throttleTick_pos_iff {text : List Char} (accepted : ofYaml text = .config config) :
    0 < config.throttleTick ↔
      ∀ lookAhead x, valuesOf text = .ok (lookAhead, some x) → 1 / 2 < x.value * second := by
  have reading := ofYaml_eq text
  rw [accepted] at reading
  rcases values : valuesOf text with r | ⟨lookAhead, throttleTick⟩
  · rw [values] at reading
    cases reading
  · rw [values] at reading
    have verdict := verdict_iff.2 reading.symm
    cases verdict with
    | accepted a t =>
        cases throttleTick with
        | none =>
            obtain rfl : _ = initial.throttleTick := t
            have second : 0 < initial.throttleTick := by decide
            exact ⟨nofun, fun _ => second⟩
        | some x =>
            rw [t.2.2.pos_iff]
            constructor
            · intro long _ _ same
              cases same
              exact long
            · intro long
              exact long _ _ rfl

end Config

namespace Playback

open Relation

variable {σ : Type}

/-! ### Waits -/

namespace Member

variable {config : Config} {renderer : Renderer σ} {s s' : Stage σ} {m m' : Member} {w : Nat}

/-- Is at rest until an instant. -/
def WaitsFor (w : Nat) (m : Member) : Prop := m.place = .rest ∧ m.player.phase = .throttled w

/-- A wait is set up for the end of a tick. -/
theorem Step.waitsFor (step : m.Step config renderer s s' m') (h : m'.WaitsFor w) :
    m.WaitsFor w ∨ w = tick (s.now + config.throttleTick) := by
  obtain ⟨rests, waits⟩ := h
  cases step with
  | pause =>
      cases waits
      exact .inr rfl
  | count => exact .inl ⟨rests, waits⟩
  | exhausted | tooLate | stop | noLength | refused | beyond | finish => cases waits
  | start | ahead | near | skip | wake | cut | goOn | turn | call | advance => cases rests

/-- It is left at its end, or when the token is fired. -/
theorem WaitsFor.step (h : m.WaitsFor w) (step : m.Step config renderer s s' m') :
    w ≤ s.now ∨ s.cancelled = true := by
  obtain ⟨rests, waits⟩ := h
  cases step with
  | start ready =>
      rw [waits] at ready
      cases ready
  | wake waits' due =>
      rw [waits] at waits'
      cases waits'
      exact .inl due
  | cut _ fired => exact .inr fired
  | count _ here =>
      rcases here with rfl | ⟨-, joining⟩
      · cases rests
      · rw [waits] at joining
        cases joining
  | finish joining =>
      rw [waits] at joining
      cases joining
  | exhausted | ahead | near | tooLate | skip | pause | stop | goOn | noLength | turn | call
  | refused | advance | beyond => cases rests

end Member

namespace Ensemble

variable {setup : Setup σ} {sheet : Sheet} {may : Ensemble σ → Nat → Prop} {c c' : Ensemble σ}
  {i w : Nat}

/-- The member with a number waits for an instant. -/
def Waits (c : Ensemble σ) (i w : Nat) : Prop := ∃ m, c.members[i]? = some m ∧ m.WaitsFor w

/-- A move that begins a wait sets it up for the end of a tick. -/
theorem Waits.of_move (h : c'.Waits i w) (move : Move setup may c c') (new : ¬ c.Waits i w) :
    w = tick (c.stage.now + setup.config.throttleTick) := by
  obtain ⟨q, there, waits⟩ := h
  cases move with
  | step _ found step =>
      rcases getElem?_set_cases found there with ⟨rfl, rfl⟩ | ⟨-, other⟩
      · exact (step.waitsFor waits).resolve_left fun old => new ⟨_, found, old⟩
      · exact absurd ⟨q, other, waits⟩ new
  | sound found sounds =>
      rcases getElem?_set_cases found there with ⟨rfl, rfl⟩ | ⟨-, other⟩
      · obtain ⟨_, _, _, -, -, -, rfl⟩ := sounds
        exact absurd ⟨_, found, waits⟩ new
      · exact absurd ⟨q, other, waits⟩ new
  | meanwhile => exact absurd ⟨q, there, waits⟩ new

/-- After a change of a member, a member is the changed one or as before. -/
theorem getElem?_set_or {ms : List Member} {i k : Nat} {m q : Member} (found : ms[k]? = some m)
    (here : ms[i]? = some q) (m' : Member) :
    (m = q ∧ (ms.set k m')[i]? = some m') ∨ (ms.set k m')[i]? = some q := by
  by_cases own : k = i
  · subst own
    rw [found] at here
    exact .inl ⟨Option.some.inj here,
      List.getElem?_set_self (List.getElem?_eq_some_iff.1 found).1⟩
  · rw [List.getElem?_set_ne own]
    exact .inr here

/-- A move leaves a wait as it is before its end. -/
theorem Waits.move (h : c.Waits i w) (move : Move setup may c c') (early : c.stage.now < w)
    (unfired : c.stage.cancelled = false) : c'.Waits i w := by
  obtain ⟨q, here, waits⟩ := h
  cases move with
  | @step _ _ m' _ _ found step =>
      rcases getElem?_set_or found here m' with ⟨rfl, -⟩ | other
      · rcases waits.step step with due | fired
        · exact absurd due (Nat.not_le_of_lt early)
        · rw [unfired] at fired
          cases fired
      · exact ⟨q, other, waits⟩
  | @sound _ m p' _ found sounds =>
      rcases getElem?_set_or found here ⟨p', m.place⟩ with ⟨rfl, own⟩ | other
      · obtain ⟨_, _, _, -, -, -, rfl⟩ := sounds
        exact ⟨_, own, waits⟩
      · exact ⟨q, other, waits⟩
  | meanwhile => exact ⟨q, here, waits⟩

/-- And so does any number of moves. -/
theorem Waits.until (h : c.Waits i w) (moves : ReflTransGen (Move setup may) c c')
    (early : c'.stage.now < w) (unfired : c'.stage.cancelled = false) : c'.Waits i w := by
  induction moves with
  | refl => exact h
  | tail _ move ih =>
      have monotone := move.monotone
      have before := Nat.lt_of_le_of_lt monotone.1 early
      have quiet := Bool.eq_false_iff.2 fun fired =>
        Bool.eq_false_iff.1 unfired (monotone.2 fired)
      exact (ih before quiet).move move before quiet

/-- A wait that is not cut takes the clock from before the end of a tick to there. -/
theorem wait_takes_time (long : 0 < setup.config.throttleTick) {c₀ c₁ c₂ : Ensemble σ}
    (begins : Move setup may c₀ c₁) (new : ¬ c₀.Waits i w) (h : c₁.Waits i w)
    (moves : ReflTransGen (Move setup may) c₁ c₂) (ended : ¬ c₂.Waits i w)
    (unfired : c₂.stage.cancelled = false) : c₀.stage.now < w ∧ w ≤ c₂.stage.now := by
  refine ⟨?_, ?_⟩
  · rw [h.of_move begins new]
    exact Nat.lt_of_lt_of_le (Nat.lt_add_of_pos_right long) (le_tick _)
  · by_contra early
    exact ended (h.until moves (Nat.lt_of_not_le early) unfired)

/-- Members are on turn. -/
theorem ReachedOnTime.onTurn (reached : ReachedOnTime setup sheet may c) {m : Member}
    (found : c.members[i]? = some m) : m.OnTurn setup.config c.stage := by
  obtain ⟨t, track⟩ := exists_track reached.reached found
  exact ((timedInvariant_onTurn setup).all_of_reached reached i m found).2 t track

/-- A wait is for a look at its note, and the clock does not pass it. -/
theorem ReachedOnTime.waits (reached : ReachedOnTime setup sheet may c) {m : Member}
    (found : c.members[i]? = some m) (waits : m.WaitsFor w) :
    c.stage.now ≤ w ∧ setup.config.IsLook m.player.cursor w := by
  obtain ⟨p, place⟩ := m
  obtain ⟨rfl, phase⟩ := waits
  exact (reached.onTurn found).stands.2 w phase

/-- If ticks take no time, waits are for the origin, and the clock stands there. -/
theorem ReachedOnTime.waits_of_no_tick (reached : ReachedOnTime setup sheet may c)
    (none : setup.config.throttleTick = 0) (h : c.Waits i w) : c.stage.now = 0 ∧ w = 0 := by
  obtain ⟨m, found, waits⟩ := h
  obtain ⟨here, j, rfl, -⟩ := reached.waits found waits
  rw [Config.grid_of_no_tick none] at here ⊢
  exact ⟨Nat.eq_zero_of_le_zero here, rfl⟩

/-- A member that comes to look at the token, with nothing cut, has the turn of its note. -/
theorem ReachedOnTime.turn (reached : ReachedOnTime setup sheet may c) {m : Member}
    (found : c.members[i]? = some m) (checks : m.place = .checking)
    (unfired : c.stage.cancelled = false) :
    setup.config.IsTurn m.player.cursor c.stage.now := by
  obtain ⟨p, place⟩ := m
  obtain rfl : place = .checking := checks
  exact (reached.onTurn found).stands.resolve_left (Bool.eq_false_iff.1 unfired)

end Ensemble

open Ensemble

/-! ### Whole performances -/

namespace Performance

variable {setup : Setup σ} {sheet : Sheet} {p : Performance σ}

/-- The member of a player of a performance waits if the player does. -/
theorem waits_ofPerformance {i w : Nat} {q : Player} (found : p.players[i]? = some q)
    (phase : q.phase = .throttled w) :
    (ofPerformance p).members[i]? = some ⟨q, .rest⟩ ∧ Member.WaitsFor w ⟨q, .rest⟩ := by
  refine ⟨?_, rfl, phase⟩
  show (p.players.map _)[i]? = _
  rw [List.getElem?_map, found]
  rfl

/-- A performance that is never cut comes past all waits for notes that start up to an instant. -/
theorem lt_cursor_of_late (long : 0 < setup.config.throttleTick)
    (uncut : ∀ n, ((ofSheet setup sheet).start.run n).stage.cancelled = false ∧
      ((ofSheet setup sheet).start.run n).dropped = false) (start : Nat) :
    ∀ n, setup.config.ticksBefore start * tick setup.config.throttleTick < n →
      ∀ q ∈ ((ofSheet setup sheet).start.run n).players, ∀ w, q.phase = .throttled w →
        start < q.cursor := by
  intro n late q hq w waiting
  by_contra behind
  obtain ⟨same, played⟩ := isPlayed_run setup sheet n
  rcases le_now_or_goOn_eq (fun n => (uncut n).1) n with past | still
  · -- the wait would have to end after the turn of its note
    obtain ⟨i, bound, rfl⟩ := List.getElem_of_mem hq
    obtain ⟨found, waits⟩ := waits_ofPerformance (List.getElem?_eq_getElem bound) waiting
    obtain ⟨here, look⟩ := (reachedOnTime_run setup sheet n).waits found waits
    have turn := Config.isTurn_ticksBefore long start
    have early := look.le_turn (Nat.le_of_not_lt behind) turn
    rw [Config.grid_eq] at early
    exact absurd (Nat.le_trans past here) (Nat.not_le_of_lt (Nat.lt_of_le_of_lt early late))
  · have phase := phase_of_goOn_eq (by rwa [same]) played (uncut n).1 (uncut n).2 still q hq
    rw [waiting] at phase
    rcases phase with joining | finished | crashed
    · cases joining
    · cases finished
    · cases crashed

/-- A performance that stands still, stands still for ever. -/
theorem run_of_goOn_eq (still : p.goOn = p) (k : Nat) : p.run k = p := by
  induction k with
  | zero => rfl
  | succ k ih => rw [run_succ, ih, still]

/-- If ticks take no time, a performance stands still with the first wait. -/
theorem goOn_of_no_tick (none : setup.config.throttleTick = 0) {n : Nat}
    (unfired : ((ofSheet setup sheet).start.run n).stage.cancelled = false)
    (kept : ((ofSheet setup sheet).start.run n).dropped = false) {q : Player} {w : Nat}
    (hq : q ∈ ((ofSheet setup sheet).start.run n).players) (waiting : q.phase = .throttled w) :
    ((ofSheet setup sheet).start.run n).goOn = (ofSheet setup sheet).start.run n ∧
      ¬ ((ofSheet setup sheet).start.run n).isOver = true := by
  have going := not_isOver_of_throttled kept hq waiting
  have played := (isPlayed_run setup sheet n).2.resolve_left going
  obtain ⟨i, bound, rfl⟩ := List.getElem_of_mem hq
  obtain ⟨found, waits⟩ := waits_ofPerformance (List.getElem?_eq_getElem bound) waiting
  obtain ⟨now, rfl⟩ := (reachedOnTime_run setup sheet n).waits_of_no_tick none ⟨_, found, waits⟩
  refine ⟨goOn_of_next?_eq_none ?_, going⟩
  rw [played.next?_of_quiet (.inl unfired)]
  -- the wait is due at the origin, where the clock is
  have due := mem_dueTimes_of_throttled hq waiting
  obtain ⟨t, first⟩ := Option.isSome_iff_exists.1 (List.isSome_min?_of_mem due)
  have least := (List.min?_eq_some_iff.1 first).2 0 due
  obtain rfl := Nat.eq_zero_of_le_zero least
  rw [first, Option.filter_some, if_neg (by simp)]

end Performance

/-- What waiting for the clock comes to, with a configuration that is accepted.  A throttle tick
takes time unless it is given as half a nanosecond or less.

If it takes time, each wait that is not cut moves the clock forward, in whatever order tracks
act: it is set up for the end of a tick, at a whole millisecond, and lasts until the clock is
there.  Tracks that keep time, as in a performance, wait for no more ticks than fill the time by
which the note is too far ahead, and go on to the note at the end of the last of these, when
the clock has come within the look-ahead; and a performance that is never cut comes to that.

If it takes no time, all waits are at the origin and for the origin, and a performance in which
a track waits stands still for ever. -/
theorem throttle_progress {text : List Char} {setup : Setup σ}
    (accepted : Config.ofYaml text = .config setup.config) (sheet : Sheet) :
    (0 < setup.config.throttleTick ↔ ∀ lookAhead x,
      Config.valuesOf text = .ok (lookAhead, some x) → 1 / 2 < x.value * second) ∧
    (0 < setup.config.throttleTick →
      (∀ (c₀ c₁ c₂ : Ensemble σ) (i w : Nat), Move setup anyone c₀ c₁ → ¬ c₀.Waits i w →
        c₁.Waits i w → ReflTransGen (Move setup anyone) c₁ c₂ → ¬ c₂.Waits i w →
        c₂.stage.cancelled = false →
          w = tick (c₀.stage.now + setup.config.throttleTick) ∧ c₀.stage.now < w ∧
            w ≤ c₂.stage.now) ∧
      (∀ c, ReachedOnTime setup sheet anyone c → ∀ (i : Nat) (m : Member),
        c.members[i]? = some m →
          (∀ w, m.WaitsFor w → c.stage.now ≤ w ∧
            ∃ j ≤ setup.config.ticksBefore m.player.cursor,
              w = j * tick setup.config.throttleTick) ∧
          (m.place = .checking → c.stage.cancelled = false →
            c.stage.now = setup.config.ticksBefore m.player.cursor *
              tick setup.config.throttleTick ∧
            m.player.cursor ≤ c.stage.now + setup.config.lookAhead)) ∧
      (∀ n, ReachedOnTime setup sheet anyone
        (ofPerformance ((Performance.ofSheet setup sheet).start.run n))) ∧
      ((∀ n, ((Performance.ofSheet setup sheet).start.run n).stage.cancelled = false ∧
          ((Performance.ofSheet setup sheet).start.run n).dropped = false) →
        ∀ start n, setup.config.ticksBefore start * tick setup.config.throttleTick < n →
          ∀ q ∈ ((Performance.ofSheet setup sheet).start.run n).players,
            ∀ w, q.phase = .throttled w → start < q.cursor)) ∧
    (setup.config.throttleTick = 0 →
      (∀ c, ReachedOnTime setup sheet anyone c → ∀ i w, c.Waits i w →
        c.stage.now = 0 ∧ w = 0) ∧
      ∀ n, ((Performance.ofSheet setup sheet).start.run n).stage.cancelled = false →
        ((Performance.ofSheet setup sheet).start.run n).dropped = false →
        (∃ q ∈ ((Performance.ofSheet setup sheet).start.run n).players,
          ∃ w, q.phase = .throttled w) →
        ∀ k, (Performance.ofSheet setup sheet).start.run (n + k) =
            (Performance.ofSheet setup sheet).start.run n ∧
          ¬ ((Performance.ofSheet setup sheet).start.run (n + k)).isOver = true) := by
  refine ⟨Config.throttleTick_pos_iff accepted,
    fun long => ⟨?_, ?_, fun n => (Performance.reachedOnTime_run setup sheet n).free, ?_⟩,
    fun none => ⟨?_, ?_⟩⟩
  · intro c₀ c₁ c₂ i w begins new waits moves ended unfired
    exact ⟨waits.of_move begins new,
      wait_takes_time long begins new waits moves ended unfired⟩
  · intro c reached i m found
    refine ⟨fun w waits => ?_, fun checks unfired => ?_⟩
    · obtain ⟨here, look⟩ := reached.waits found waits
      exact ⟨here, look.exists_le_ticksBefore long⟩
    · have turn := reached.turn found checks unfired
      refine ⟨?_, Nat.sub_le_iff_le_add'.1 turn.2⟩
      rw [← Config.grid_eq]
      exact turn.unique (Config.isTurn_ticksBefore long _)
  · intro uncut start n late
    exact Performance.lt_cursor_of_late long uncut start n late
  · intro c reached i w waits
    exact reached.waits_of_no_tick none waits
  · rintro n unfired kept ⟨q, hq, w, waiting⟩ k
    obtain ⟨still, going⟩ := Performance.goOn_of_no_tick none unfired kept hq waiting
    rw [Performance.run_add, Performance.run_of_goOn_eq still]
    exact ⟨rfl, going⟩

/-- Three notes of three seconds, the last of which is a second too far ahead at first. -/
def slowText : List Char := "C4:dw C4:dw C4:dw".toList

/-- A text that is read, as a sheet of which something can be checked. -/
theorem exists_ofText (text : List Char) (P : Sheet → Bool)
    (h : (Sheet.ofText text).toOption.any P = true) :
    ∃ sheet, Sheet.ofText text = .ok sheet ∧ P sheet = true := by
  cases read : Sheet.ofText text with
  | error e =>
      rw [read] at h
      cases h
  | ok sheet =>
      rw [read] at h
      exact ⟨sheet, rfl, h⟩

/-- With the initial configuration, the track waits for a second, and then for no note that starts
in the first six. -/
theorem throttle_progress_slow :
    ∃ sheet, Sheet.ofText slowText = .ok sheet ∧
      (Performance.ofSheet (.logging .initial) sheet).start.players.map (·.phase) =
        [.throttled second] ∧
      ∀ n, second < n →
        ∀ q ∈ ((Performance.ofSheet (.logging .initial) sheet).start.run n).players,
          ∀ w, q.phase = .throttled w → 6 * second < q.cursor := by
  obtain ⟨sheet, read, waits⟩ := exists_ofText slowText
    (fun sheet => (Performance.ofSheet (.logging .initial) sheet).start.players.map
      (·.phase) = [.throttled second]) (by decide +kernel)
  have uncut := Performance.isUncut_run (isUndisturbed_logging .initial) sheet
  have accepted : Config.ofYaml [] = .config (Setup.logging .initial).config := rfl
  obtain ⟨-, progress, -⟩ := throttle_progress accepted sheet
  have long : 0 < (Setup.logging .initial).config.throttleTick := by decide
  obtain ⟨-, -, -, ends⟩ := progress long
  refine ⟨sheet, read, of_decide_eq_true waits, fun n late => ?_⟩
  exact ends (fun n => ⟨(uncut n).unfired, (uncut n).kept⟩) (6 * second) n late

/-- A tick of 0.4 nanoseconds is accepted, as one that takes no time: nothing is cut, and the
track waits at the origin for ever. -/
theorem exists_wait_for_ever :
    ∃ (config : Config) (sheet : Sheet),
      Config.ofYaml "throttle-tick-secs: 4e-10".toList = .config config ∧
      Sheet.ofText slowText = .ok sheet ∧
      ∀ n, ((Performance.ofSheet (.logging config) sheet).start.run n).stage.cancelled = false ∧
        ((Performance.ofSheet (.logging config) sheet).start.run n).dropped = false ∧
        ((Performance.ofSheet (.logging config) sheet).start.run n).stage.now = 0 ∧
        ((Performance.ofSheet (.logging config) sheet).start.run n).players.map (·.phase) =
          [.throttled 0] ∧
        ¬ ((Performance.ofSheet (.logging config) sheet).start.run n).isOver = true := by
  let config : Config := ⟨5 * second, 0⟩
  have accepted : Config.ofYaml "throttle-tick-secs: 4e-10".toList = .config config :=
    Config.Reading.eq_config (by decide +kernel)
  obtain ⟨sheet, read, waits⟩ := exists_ofText slowText
    (fun sheet => (Performance.ofSheet (.logging config) sheet).start.players.map
      (·.phase) = [.throttled 0]) (by decide +kernel)
  have phases := of_decide_eq_true waits
  have uncut := Performance.isUncut_run (isUndisturbed_logging config) sheet
  have one : Phase.throttled 0 ∈
      (Performance.ofSheet (.logging config) sheet).start.players.map (·.phase) := by
    rw [phases]
    exact List.mem_singleton_self _
  obtain ⟨q, hq, waiting⟩ := List.mem_map.1 one
  obtain ⟨still, going⟩ :=
    Performance.goOn_of_no_tick (n := 0) rfl (uncut 0).unfired (uncut 0).kept hq waiting
  have stays := Performance.run_of_goOn_eq still
  refine ⟨config, sheet, accepted, read, fun n => ⟨(uncut n).unfired, (uncut n).kept, ?_⟩⟩
  rw [show (Performance.ofSheet (.logging config) sheet).start.run n = _ from stays n]
  exact ⟨Performance.now_start _, phases, going⟩

end Playback

end SongSheet
