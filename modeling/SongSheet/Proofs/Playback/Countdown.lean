/-
SongSheet/Proofs/Playback/Countdown.lean

How often a player may still wait.

A player waits for throttle ticks, and its tones wait for deadlines.  Both can be counted: ticks
are over at whole milliseconds, and a player waits for one only before its last note ends; and
how many deadlines a tone waits for is known before the tone is called for.  So there is a
number of waits that a player has left, at most (`Player.left`).  It keeps to that number
whatever it does in an instant (`Player.KeepsTo`), and has one less when a wait is over
(`Player.left_lt`).
-/
import Mathlib.Algebra.GroupWithZero.Nat
import Mathlib.Algebra.Order.BigOperators.Group.List
import Mathlib.Algebra.Order.Group.Nat
import Mathlib.Order.Lattice.Nat
import SongSheet.Proofs.Playback.Waiting

namespace SongSheet.Playback

open Clock

variable {σ : Type}

/-! ### Tones -/

namespace Tone

variable {now later m n w : Nat} {cancelled : Bool} {t : Tone}

theorem WaitsAtMost.succ (h : WaitsAtMost n t) : WaitsAtMost (n + 1) t := by
  induction h with
  | ended => exact .ended
  | wait _ _ ihOnTime ihCut => exact .wait ihOnTime ihCut
  | hold _ ih => exact .hold ih
  | say _ ih => exact .say ih
  | never => exact .never

/-- A tone that was polled waits for no more deadlines. -/
theorem WaitsAtMost.poll (h : WaitsAtMost n t) (now : Nat) (cancelled : Bool) :
    WaitsAtMost n (t.poll now cancelled).2 := by
  induction h with
  | ended =>
      rw [poll_ended]
      exact .ended
  | wait onTime cut ihOnTime ihCut =>
      rw [Tone.poll]
      split
      · exact (ihCut now).succ
      · split
        · exact ihOnTime.succ
        · exact .wait onTime cut
  | hold next ih =>
      rw [Tone.poll]
      split
      · exact ih.succ
      · exact .hold next
  | say _ ih => exact ih
  | never => exact .never

/-- One deadline less, when it has come to one. -/
theorem WaitsAtMost.poll_of_due (h : WaitsAtMost n t) (wake : t.wake? = some w) (due : w ≤ now)
    (cancelled : Bool) : WaitsAtMost (n - 1) (t.poll now cancelled).2 ∧ 0 < n := by
  cases h with
  | ended | say | never => cases wake
  | wait onTime cut =>
      cases wake
      refine ⟨?_, Nat.succ_pos _⟩
      rw [Tone.poll, if_pos due]
      split
      · exact (cut now).poll now cancelled
      · exact onTime.poll now cancelled
  | hold next =>
      cases wake
      refine ⟨?_, Nat.succ_pos _⟩
      rw [Tone.poll, if_pos due]
      exact next.poll now cancelled

/-- How many deadlines a tone waits for, at most. -/
noncomputable def deadlines (t : Tone) : Nat := sInf {n | t.WaitsAtMost n}

theorem WaitsAtMost.deadlines_le (h : t.WaitsAtMost n) : t.deadlines ≤ n := Nat.sInf_le h

theorem WaitsAtMost.deadlines (h : t.WaitsAtMost n) : t.WaitsAtMost t.deadlines :=
  Nat.sInf_mem (s := {n | t.WaitsAtMost n}) ⟨n, h⟩

open Classical in
/-- How many of them are ahead. -/
noncomputable def ahead (now : Nat) (t : Tone) : Nat :=
  if ∃ w, t.wake? = some w ∧ w ≤ now then t.deadlines - 1 else t.deadlines

theorem ahead_le (now : Nat) (t : Tone) : t.ahead now ≤ t.deadlines := by
  rw [ahead]
  split
  · exact Nat.sub_le _ _
  · exact Nat.le_refl _

/-- A tone that is polled comes past no deadline that is ahead. -/
theorem WaitsAtMost.ahead_poll_le (h : t.WaitsAtMost n) (now : Nat) (cancelled : Bool) :
    (t.poll now cancelled).2.ahead now ≤ t.ahead now := by
  refine Nat.le_trans (ahead_le now _) ?_
  rw [ahead]
  split
  case isTrue due =>
    obtain ⟨w, wake, due⟩ := due
    exact (h.deadlines.poll_of_due wake due cancelled).1.deadlines_le
  case isFalse => exact (h.deadlines.poll now cancelled).deadlines_le

/-- Fewer are ahead later. -/
theorem ahead_mono (le : now ≤ later) (t : Tone) : t.ahead later ≤ t.ahead now := by
  rw [ahead, ahead]
  split
  · split <;> omega
  case isFalse none =>
    rw [if_neg]
    rintro ⟨w, wake, due⟩
    exact none ⟨w, wake, Nat.le_trans due le⟩

/-- There is one less when a deadline has come. -/
theorem WaitsAtMost.ahead_lt (h : t.WaitsAtMost n) (wake : t.wake? = some w) (before : now < w)
    (due : w ≤ later) : t.ahead later < t.ahead now := by
  have some := (h.deadlines.poll_of_due wake due true).2
  have undue : ¬ ∃ w', t.wake? = .some w' ∧ w' ≤ now := by
    rintro ⟨w', wake', due'⟩
    obtain rfl : w = w' := Option.some.inj (wake.symm.trans wake')
    exact Nat.not_le_of_lt before due'
  rw [ahead, ahead, if_pos ⟨w, wake, due⟩, if_neg undue]
  exact Nat.sub_lt some Nat.one_pos

end Tone

/-! ### Players -/

namespace Player

variable {config : Config} {renderer : Renderer σ} {s : Stage σ} {p : Player}
  {now later w m n : Nat}

/-- The deadlines of tones that are ahead. -/
noncomputable def deadlinesAhead (now : Nat) (voices : List Voice) : Nat :=
  (voices.map (·.tone.ahead now)).sum

theorem deadlinesAhead_append (now : Nat) (vs us : List Voice) :
    deadlinesAhead now (vs ++ us) = deadlinesAhead now vs + deadlinesAhead now us := by
  rw [deadlinesAhead, List.map_append, List.sum_append]
  rfl

/-- Tones that sound come past no deadline that is ahead. -/
theorem deadlinesAhead_sound (s : Stage σ) (track : Nat) {voices : List Voice}
    (bounded : ∀ v ∈ voices, v.tone.WaitsAtMost m) :
    (∀ v ∈ (sound s track voices).2.2, v.tone.WaitsAtMost m) ∧
      deadlinesAhead s.now (sound s track voices).2.2 ≤ deadlinesAhead s.now voices := by
  induction voices with
  | nil => exact ⟨nofun, Nat.le_refl _⟩
  | cons v voices ih =>
      obtain ⟨first, others⟩ := List.forall_mem_cons.1 bounded
      obtain ⟨bounded', fewer⟩ := ih others
      have first' := first.ahead_poll_le s.now s.cancelled
      have split : (sound s track (v :: voices)).2.2 =
          if (v.poll s.now s.cancelled).2.isRinging then
            (v.poll s.now s.cancelled).2 :: (sound s track voices).2.2
          else (sound s track voices).2.2 := List.filter_cons
      rw [split]
      split
      · refine ⟨List.forall_mem_cons.2 ⟨first.poll _ _, bounded'⟩, ?_⟩
        exact Nat.add_le_add first' fewer
      · exact ⟨bounded', Nat.le_trans fewer (Nat.le_add_left _ _)⟩

/-- The notes that are left. -/
def rest (p : Player) : Track := ⟨p.name, p.notes⟩

/-- The instant at which the last of them ends. -/
def stopsAt (p : Player) : Nat := p.cursor + Performance.lengthOf p.rest

/-- How many whole milliseconds are left from an instant on to another one. -/
def ticksLeft (stop now : Nat) : Nat := stop / millisecond + 1 - now / millisecond

/-- How often a player may still wait for a tick, if ticks take time. -/
def waitsLeft (config : Config) (now : Nat) (p : Player) : Nat :=
  if config.throttleTick = 0 then 0
  else match p.phase with
    | .ready => ticksLeft p.stopsAt now
    | .throttled w => if w ≤ now then ticksLeft p.stopsAt now else ticksLeft p.stopsAt w + 1
    | _ => 0

/-- How often a player or its tones may still wait. -/
noncomputable def left (config : Config) (renderer : Renderer σ) (now : Nat) (p : Player) : Nat :=
  p.waitsLeft config now + deadlinesAhead now p.ringing + renderer.waits * p.rest.pitchCount

/-- It is at most so often, and tones are as the renderer says. -/
structure KeepsTo (config : Config) (renderer : Renderer σ) (now n : Nat) (p : Player) : Prop where
  tones : ∀ v ∈ p.ringing, v.tone.WaitsAtMost renderer.waits
  left : p.left config renderer now ≤ n

/-- A player has its turn. -/
def IsOnTurn (now : Nat) (p : Player) : Prop :=
  p.phase = .ready ∨ ∃ w ≤ now, p.phase = .throttled w

theorem IsOnTurn.of_phase (h : p.IsOnTurn now) {q : Player} (same : q.phase = p.phase) :
    q.IsOnTurn now := by
  rw [IsOnTurn, same]
  exact h

/-- Ticks that a player in its turn may still wait for. -/
theorem IsOnTurn.waitsLeft_eq (h : p.IsOnTurn now) (config : Config) :
    p.waitsLeft config now =
      if config.throttleTick = 0 then 0 else ticksLeft p.stopsAt now := by
  rw [waitsLeft]
  rcases h with ready | ⟨w, past, waiting⟩
  · rw [ready]
  · rw [waiting]
    simp only [if_pos past]

/-- A player is done with its notes. -/
def IsDone (p : Player) : Prop :=
  p.phase = .joining ∨ p.phase = .finished ∨ p.phase = .crashed

/-- It waits for no more ticks then. -/
theorem waitsLeft_of_done (config : Config) (now : Nat) (done : p.IsDone) :
    p.waitsLeft config now = 0 := by
  rw [waitsLeft]
  rcases done with phase | phase | phase <;> simp [phase]

/-! ### In an instant -/

/-- Nothing more comes of a player that broke down. -/
theorem keepsTo_crash (s : Stage σ) (p : Player) :
    (p.crash s).2.KeepsTo config renderer now n where
  tones := nofun
  left := by
    rw [Player.left, waitsLeft_of_done config now (.inr (.inr rfl))]
    exact Nat.zero_le n

/-- A player that is done with its notes keeps its tones. -/
theorem KeepsTo.of_done (h : p.KeepsTo config renderer now n) {q : Player} (done : q.IsDone)
    (ringing : q.ringing = p.ringing) (pitches : q.rest.pitchCount ≤ p.rest.pitchCount) :
    q.KeepsTo config renderer now n := by
  refine ⟨by rw [ringing]; exact h.tones, Nat.le_trans ?_ h.left⟩
  rw [Player.left, Player.left, waitsLeft_of_done config now done, ringing, Nat.zero_add]
  exact Nat.add_le_add (Nat.le_add_left _ _) (Nat.mul_le_mul_left _ pitches)

theorem isDone_join (s : Stage σ) (p : Player) : (p.join s).2.IsDone := by
  rcases phase_join s p with finished | ⟨joining, -⟩
  · exact .inr (.inl finished)
  · exact .inl joining

theorem rest_join (s : Stage σ) (p : Player) : (p.join s).2.rest = p.rest := by
  rw [join_eq]
  split
  · rw [finish_eq]
    rfl
  · rfl

theorem KeepsTo.join (h : p.KeepsTo config renderer now n) (s : Stage σ) :
    (p.join s).2.KeepsTo config renderer now n :=
  h.of_done (isDone_join s p) (ringing_join s p) (Nat.le_of_eq (by rw [rest_join]))

theorem KeepsTo.stop (h : p.KeepsTo config renderer now n) (s : Stage σ) :
    (p.stop s).2.KeepsTo config renderer now n := by
  refine h.of_done (isDone_join _ _) (ringing_join _ _) ?_
  rw [Player.stop, rest_join]
  exact Nat.zero_le _

/-- A wait for a tick uses up a millisecond of those that are left. -/
theorem ticksLeft_lt {stop : Nat} (before : now < stop) (later : now < w)
    (whole : millisecond ∣ w) : ticksLeft stop w < ticksLeft stop now := by
  obtain ⟨k, rfl⟩ := whole
  have pos : 0 < millisecond := by decide
  have next : now / millisecond < k := Nat.div_lt_of_lt_mul later
  have within : now / millisecond ≤ stop / millisecond :=
    Nat.div_le_div_right (Nat.le_of_lt before)
  rw [ticksLeft, ticksLeft, Nat.mul_div_cancel_left k pos]
  omega

/-- To go to wait, for a player in its turn that is ahead of the clock. -/
theorem KeepsTo.pause (h : p.KeepsTo config renderer now n) (turn : p.IsOnTurn now)
    (ahead : now < p.cursor) :
    KeepsTo config renderer now n
      { p with phase := .throttled (tick (now + config.throttleTick)) } := by
  refine ⟨h.tones, Nat.le_trans ?_ h.left⟩
  have waits : waitsLeft config now
      { p with phase := .throttled (tick (now + config.throttleTick)) } ≤
        p.waitsLeft config now := by
    rw [turn.waitsLeft_eq config, waitsLeft]
    split
    case isTrue => exact Nat.le_refl 0
    case isFalse some =>
      have later : now < tick (now + config.throttleTick) :=
        Nat.lt_of_lt_of_le (Nat.lt_add_of_pos_right (Nat.pos_of_ne_zero some)) (le_tick _)
      simp only [if_neg (Nat.not_le_of_lt later)]
      exact ticksLeft_lt (Nat.lt_of_lt_of_le ahead (Nat.le_add_right _ _)) later
        (Nat.dvd_of_mod_eq_zero (millisecond_dvd_tick _))
  exact Nat.add_le_add_right (Nat.add_le_add_right waits _) _

theorem KeepsTo.throttle (h : p.KeepsTo config renderer s.now n) (turn : p.IsOnTurn s.now)
    (ahead : s.now < p.cursor) :
    (throttle config s p).2.KeepsTo config renderer s.now n := by
  rw [Player.throttle]
  split
  · exact keepsTo_crash _ p
  · split
    · exact h.stop _
    · exact h.pause turn ahead

/-- A new tone has no more deadlines than the renderer says. -/
theorem deadlinesAhead_receive {t : Tone} (new : t.WaitsAtMost renderer.waits)
    (tones : ∀ v ∈ p.ringing, v.tone.WaitsAtMost renderer.waits) (now : Nat) :
    (∀ v ∈ (p.receive (some t)).ringing, v.tone.WaitsAtMost renderer.waits) ∧
      deadlinesAhead now (p.receive (some t)).ringing ≤
        deadlinesAhead now p.ringing + renderer.waits := by
  have ringing : (p.receive (some t)).ringing = p.older ++ [⟨p.called, t⟩] ++ p.fresh := by
    simp [Player.ringing, receive]
  have one : deadlinesAhead now [⟨p.called, t⟩] ≤ renderer.waits := by
    rw [deadlinesAhead, List.map_singleton, List.sum_singleton]
    exact Nat.le_trans (Tone.ahead_le now t) new.deadlines_le
  obtain ⟨older, fresh⟩ := List.forall_mem_append.1 tones
  rw [ringing]
  refine ⟨List.forall_mem_append.2 ⟨List.forall_mem_append.2 ⟨older, ?_⟩, fresh⟩, ?_⟩
  · exact List.forall_mem_singleton.2 new
  · rw [Player.ringing, deadlinesAhead_append, deadlinesAhead_append, deadlinesAhead_append]
    omega

/-- A call for each pitch makes at most a tone for each pitch. -/
theorem fanOut_spec {note : Note} {duration : Nat} {pitches : List Single} {s' : Stage σ}
    {p' : Player} {whole : Bool}
    (h : fanOut renderer note duration pitches s p = (s', p', whole))
    (tones : ∀ v ∈ p.ringing, v.tone.WaitsAtMost renderer.waits) (now : Nat) :
    (∀ v ∈ p'.ringing, v.tone.WaitsAtMost renderer.waits) ∧
      deadlinesAhead now p'.ringing ≤
        deadlinesAhead now p.ringing + renderer.waits * pitches.length ∧
      p'.cursor = p.cursor ∧ p'.phase = p.phase ∧ s'.now = s.now := by
  induction pitches generalizing s p with
  | nil =>
      cases h
      exact ⟨tones, Nat.le_refl _, rfl, rfl, rfl⟩
  | cons frequency pitches ih =>
      rcases called : s.call renderer p.index (.ofNote note duration p.cursor frequency)
        with ⟨s₁, - | t⟩
      all_goals
        simp only [fanOut, called] at h
        obtain ⟨-, -, -, -, -, same, -⟩ := Stage.call_spec called
      · cases h
        exact ⟨tones, Nat.le_add_right _ _, rfl, rfl, same⟩
      · obtain ⟨tones', more⟩ := deadlinesAhead_receive
          (renderer.waitsAtMost _ _ _ t (Prod.mk.inj called).2) tones now
        obtain ⟨bounded, count, cursor, phase, moment⟩ := ih (p := p.receive (some t)) h tones'
        refine ⟨bounded, ?_, cursor, phase, moment.trans same⟩
        rw [List.length_cons, Nat.mul_succ]
        omega

/-- To have the tones of a note called for and turn to the next one. -/
theorem KeepsTo.advance {note : Note} {notes : List Note} {duration : Nat} {p' : Player}
    (h : p.KeepsTo config renderer now n) (turn : p.IsOnTurn now)
    (here : p.notes = note :: notes) (length : nanoseconds note.duration = some duration)
    (tones : ∀ v ∈ p'.ringing, v.tone.WaitsAtMost renderer.waits)
    (count : deadlinesAhead now p'.ringing ≤
      deadlinesAhead now p.ringing + renderer.waits * note.pitches.length)
    (cursor : p'.cursor = p.cursor) (phase : p'.phase = p.phase) :
    (p'.advance notes (p'.cursor + duration)).KeepsTo config renderer now n := by
  have turn' : (p'.advance notes (p'.cursor + duration)).IsOnTurn now := turn.of_phase phase
  have stop : (p'.advance notes (p'.cursor + duration)).stopsAt = p.stopsAt := by
    have length : Performance.lengthOf p.rest =
        duration + Performance.lengthOf (p'.advance notes (p'.cursor + duration)).rest := by
      rw [rest, here]
      simp only [Performance.lengthOf, List.foldr_cons, length]
      rfl
    rw [stopsAt, stopsAt, length, ← cursor]
    exact Nat.add_assoc _ _ _
  have pitches : p.rest.pitchCount = note.pitches.length +
      (p'.advance notes (p'.cursor + duration)).rest.pitchCount := by
    rw [rest, here]
    rfl
  refine ⟨tones, Nat.le_trans ?_ h.left⟩
  rw [Player.left, Player.left, turn.waitsLeft_eq, turn'.waitsLeft_eq, stop, pitches, Nat.mul_add]
  have ringing : (p'.advance notes (p'.cursor + duration)).ringing = p'.ringing := rfl
  rw [ringing]
  omega

/-- To schedule notes, for a player in its turn. -/
theorem KeepsTo.schedule (notes : List Note) (here : p.notes = notes)
    (h : p.KeepsTo config renderer s.now n) (turn : p.IsOnTurn s.now) :
    (schedule config renderer notes s p).2.KeepsTo config renderer s.now n := by
  -- what is kept depends on the note, its length and its pitches, and `Scheduling` does not
  induction notes generalizing s p with
  | nil =>
      rw [Player.schedule]
      exact h.join s
  | cons note notes ih =>
      rw [Player.schedule]
      -- one branch for each way in which `schedule` can leave the note
      split
      case isTrue ahead => exact h.throttle turn (by omega)
      case isFalse =>
        split
        case isTrue => exact h.stop s
        case isFalse =>
          have counted : (p.collect s).2.KeepsTo config renderer s.now n := ⟨h.tones, h.left⟩
          have moment : (p.collect s).1.now = s.now := Stage.now_tellAll _ _
          dsimp only
          split
          case h_1 => exact keepsTo_crash _ _
          case h_2 duration length =>
            rcases called : fanOut renderer note duration note.pitches (p.collect s).1
              (p.collect s).2 with ⟨s₁, p₁, whole⟩
            obtain ⟨tones, count, cursor, phase, same⟩ := fanOut_spec called counted.tones s.now
            cases whole with
            | false => exact keepsTo_crash _ _
            | true =>
                dsimp only
                split
                · exact keepsTo_crash _ _
                · have next := counted.advance turn here length tones count cursor phase
                  rw [← same.trans moment] at next turn ⊢
                  exact ih rfl next (turn.of_phase phase)

/-- To have a turn. -/
theorem KeepsTo.play (h : p.KeepsTo config renderer s.now n) :
    (p.play config renderer s).2.KeepsTo config renderer s.now n := by
  cases phase : p.phase with
  | ready =>
      rw [play_of_ready phase]
      have moment : (s.tell (.trackStarted p.name p.notes.length)).now = s.now := Stage.now_tell _ _
      rw [← moment] at h ⊢
      exact h.schedule p.notes rfl (.inl phase)
  | throttled w =>
      rw [play_of_throttled phase]
      split
      · exact h.stop s
      · split
        case isTrue past =>
          have woken : p.regroup.KeepsTo config renderer s.now n := by
            have ringing : p.regroup.ringing = p.ringing := List.append_nil _
            refine ⟨by rw [ringing]; exact h.tones, ?_⟩
            rw [Player.left, ringing]
            exact h.left
          exact woken.schedule p.notes rfl (.inr ⟨w, past, phase⟩)
        · exact h
  | joining | finished | crashed =>
      rw [IsIdle.play ⟨by simp [phase], by simp [phase]⟩]
      exact h

/-- To hear tones, with no deadline more than before. -/
theorem KeepsTo.hear (h : p.KeepsTo config renderer now n) {older fresh : List Voice}
    (tones : ∀ v ∈ older ++ fresh, v.tone.WaitsAtMost renderer.waits)
    (fewer : deadlinesAhead now (older ++ fresh) ≤ deadlinesAhead now p.ringing)
    (settled : List Outcome) :
    KeepsTo config renderer now n { p with older := older, fresh := fresh, settled := settled } :=
  ⟨tones, Nat.le_trans (Nat.add_le_add_right (Nat.add_le_add_left fewer _) _) h.left⟩

theorem KeepsTo.soundOlder (h : p.KeepsTo config renderer s.now n) :
    (p.soundOlder s).2.KeepsTo config renderer s.now n := by
  obtain ⟨older, fresh⟩ := List.forall_mem_append.1 h.tones
  obtain ⟨tones, fewer⟩ := deadlinesAhead_sound s p.index older
  refine h.hear (List.forall_mem_append.2 ⟨tones, fresh⟩) ?_ _
  rw [ringing, deadlinesAhead_append, deadlinesAhead_append]
  exact Nat.add_le_add_right fewer _

theorem KeepsTo.soundFresh (h : p.KeepsTo config renderer s.now n) :
    (p.soundFresh s).2.KeepsTo config renderer s.now n := by
  obtain ⟨older, fresh⟩ := List.forall_mem_append.1 h.tones
  obtain ⟨tones, fewer⟩ := deadlinesAhead_sound s p.index fresh
  refine h.hear (List.forall_mem_append.2 ⟨older, tones⟩) ?_ _
  rw [ringing, deadlinesAhead_append, deadlinesAhead_append]
  exact Nat.add_le_add_left fewer _

/-- To hear all tones. -/
theorem KeepsTo.soundAll (h : p.KeepsTo config renderer s.now n) :
    (p.soundAll s).2.KeepsTo config renderer s.now n := by
  have older := h.soundOlder
  have both : (p.soundBoth s).2.KeepsTo config renderer s.now n := by
    rw [← (sameMoment_soundOlder s p).now] at older ⊢
    exact older.soundFresh
  rw [soundAll_eq]
  split
  · exact both.join _
  · exact both

/-! ### Later -/

theorem ticksLeft_mono (le : now ≤ later) (stop : Nat) :
    ticksLeft stop later ≤ ticksLeft stop now :=
  Nat.sub_le_sub_left (Nat.div_le_div_right le) _

/-- Later there are no more ticks to wait for. -/
theorem waitsLeft_mono (config : Config) (le : now ≤ later) (p : Player) :
    p.waitsLeft config later ≤ p.waitsLeft config now := by
  rw [waitsLeft, waitsLeft]
  split
  · exact Nat.le_refl 0
  · cases p.phase with
    | ready => exact ticksLeft_mono le _
    | throttled w =>
        dsimp only
        have fromWake (past : w ≤ later) := ticksLeft_mono past p.stopsAt
        have fromNow := ticksLeft_mono le p.stopsAt
        split <;> split <;> omega
    | joining | finished | crashed => exact Nat.le_refl 0

/-- There is one less when a wait is over. -/
theorem waitsLeft_lt {config : Config} (some : config.throttleTick ≠ 0)
    (waiting : p.phase = .throttled w) (before : now < w) (due : w ≤ later) :
    p.waitsLeft config later < p.waitsLeft config now := by
  rw [waitsLeft, waitsLeft, if_neg some, if_neg some, waiting]
  simp only [if_pos due, if_neg (Nat.not_le_of_lt before)]
  exact Nat.lt_succ_of_le (ticksLeft_mono due _)

theorem deadlinesAhead_mono (le : now ≤ later) (voices : List Voice) :
    deadlinesAhead later voices ≤ deadlinesAhead now voices :=
  List.sum_le_sum fun v _ => Tone.ahead_mono le v.tone

/-- There is one less when a tone comes to one. -/
theorem deadlinesAhead_lt {voices : List Voice} {v : Voice} (hv : v ∈ voices)
    (tone : v.tone.WaitsAtMost m) (wake : v.tone.wake? = some w) (before : now < w)
    (due : w ≤ later) : deadlinesAhead later voices < deadlinesAhead now voices :=
  List.sum_lt_sum _ _ (fun u _ => Tone.ahead_mono (Nat.le_trans (Nat.le_of_lt before) due) u.tone)
    ⟨v, hv, tone.ahead_lt wake before due⟩

/-- Later a player waits no more often. -/
theorem left_mono (le : now ≤ later) (p : Player) :
    p.left config renderer later ≤ p.left config renderer now :=
  Nat.add_le_add_right
    (Nat.add_le_add (waitsLeft_mono config le p) (deadlinesAhead_mono le p.ringing)) _

/-- It waits once less when it comes to an instant that it waited for. -/
theorem left_lt (tones : ∀ v ∈ p.ringing, v.tone.WaitsAtMost m) (wake : w ∈ p.wakes)
    (ticks : p.phase = .throttled w → config.throttleTick ≠ 0) (before : now < w)
    (due : w ≤ later) :
    p.left config renderer later < p.left config renderer now := by
  have le : now ≤ later := Nat.le_trans (Nat.le_of_lt before) due
  refine Nat.add_lt_add_right ?_ _
  rcases mem_wakes wake with waiting | ⟨v, hv, wake⟩
  · exact Nat.add_lt_add_of_lt_of_le (waitsLeft_lt (ticks waiting) waiting before due)
      (deadlinesAhead_mono le _)
  · exact Nat.add_lt_add_of_le_of_lt (waitsLeft_mono config le p)
      (deadlinesAhead_lt hv (tones v hv) wake before due)

/-- Nothing to schedule, whatever the clock and the token. -/
theorem isIdle_of_ne (started : p.phase ≠ .ready) (unthrottled : ∀ w, p.phase ≠ .throttled w)
    (now : Nat) (cancelled : Bool) : p.IsIdle now cancelled :=
  ⟨started, fun w waiting => absurd waiting (unthrottled w)⟩

theorem IsDone.isIdle (h : p.IsDone) (now : Nat) (cancelled : Bool) : p.IsIdle now cancelled := by
  refine isIdle_of_ne ?_ (fun w => ?_) now cancelled
  all_goals rcases h with phase | phase | phase <;> simp [phase]

/-- With the token fired, a player leaves off for good. -/
theorem scheduling_fired (config : Config) (renderer : Renderer σ) :
    Scheduling config renderer (fun s _ => s.cancelled = true)
      fun s p => s.cancelled = true ∧ ∀ now cancelled, p.IsIdle now cancelled where
  collect fired := (Stage.cancelled_tellAll _ _).trans fired
  call fired _ _ _ _ _ called := by
    obtain ⟨c, -, -, -, -, -, -, token⟩ := Stage.call_spec called
    rw [token, fired, Bool.true_or]
  advance fired _ _ := fired
  wait fired := (Stage.cancelled_tell _ _).trans fired
  pause fired unfired := by
    rw [fired] at unfired
    cases unfired
  join {s p} fired :=
    ⟨((sameMoment_join s p).cancelled trivial).trans fired, (isDone_join s p).isIdle⟩
  stop {s p} fired := by
    refine ⟨?_, (isDone_join _ _).isIdle⟩
    exact ((sameMoment_join _ _).cancelled trivial).trans ((Stage.cancelled_tell _ _).trans fired)
  crash {s p} fired :=
    ⟨(Stage.cancelled_tell _ _).trans fired, isIdle_of_ne (p := (p.crash s).2) nofun nofun⟩

theorem play_of_fired (fired : s.cancelled = true) :
    (p.play config renderer s).1.cancelled = true ∧
      ∀ now cancelled, (p.play config renderer s).2.IsIdle now cancelled := by
  refine (scheduling_fired config renderer).play (fun _ => (Stage.cancelled_tell _ _).trans fired)
    (fun _ _ => ⟨fired, fired⟩) fun idle => ⟨fired, isIdle_of_ne idle.started fun w waiting => ?_⟩
  have unfired := (idle.throttled w waiting).1
  rw [fired] at unfired
  cases unfired

theorem isIdle_soundAll (h : ∀ now cancelled, p.IsIdle now cancelled) (now : Nat)
    (cancelled : Bool) : (p.soundAll s).2.IsIdle now cancelled := by
  rcases (soundAll_spec s p).1 with same | ⟨-, ended⟩
  · exact (h now cancelled).of_outline (congrArg Phase.outline same)
  · exact IsDone.isIdle (.inr (.inl ended)) now cancelled

end Player

end SongSheet.Playback
