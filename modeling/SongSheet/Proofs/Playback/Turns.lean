/-
SongSheet/Proofs/Playback/Turns.lean

When a track asks for a note.

Tracks look at the clock on a grid of instants: the origin, and from each instant on the
one at which a throttle tick is over (`Config.grid`).  The grid does not depend on the
track.  A note has its turn at the first instant of the grid at which its start is not
further ahead than the look-ahead allows (`Config.IsTurn`).  The clock of a track is
carried over from note to note; what carries the proof is that it never stands behind the
turn of the note that the track has come to, nor of any later note (`Config.IsLook.le_turn`).

So all calls for a note are made in its turn (`Member.OnTurn`), which may be late for the
note by less than a tick (`Config.IsTurn.le`), and whoever lets a turn pass has scheduled
the note (`Member.IsOnPlan.scheduled`).
-/
import Mathlib.Data.Nat.Find
import SongSheet.Builder
import SongSheet.Proofs.Playback.Ending

namespace SongSheet

open Clock Playback

/-! ### The grid -/

namespace Config

variable {config : Config} {start start' instant instant' : Nat}

/-- The instants at which tracks look at their notes. -/
def grid (config : Config) : Nat → Nat
  | 0 => 0
  | j + 1 => tick (config.grid j + config.throttleTick)

/-- An instant of the grid, with a note that starts at `start` too far ahead at all instants
of the grid before. -/
def IsLook (config : Config) (start instant : Nat) : Prop :=
  ∃ j, instant = config.grid j ∧ ∀ l < j, config.lookAhead < start - config.grid l

/-- The first instant of the grid at which a note that starts at `start` is not too far
ahead. -/
def IsTurn (config : Config) (start instant : Nat) : Prop :=
  config.IsLook start instant ∧ start - instant ≤ config.lookAhead

/-- Instants of the grid are at least a tick apart. -/
theorem grid_add_le (config : Config) (j : Nat) :
    config.grid j + config.throttleTick ≤ config.grid (j + 1) := le_tick _

theorem grid_mono (config : Config) {i j : Nat} (h : i ≤ j) : config.grid i ≤ config.grid j := by
  induction h with
  | refl => exact Nat.le_refl _
  | step _ ih => exact Nat.le_trans ih (Nat.le_of_add_right_le (config.grid_add_le _))

/-- Timers fire at whole milliseconds, and so they do on the grid. -/
theorem grid_mod (config : Config) (j : Nat) : config.grid j % millisecond = 0 := by
  cases j with
  | zero => rfl
  | succ j => exact millisecond_dvd_tick _

/-- So the instants of the grid are equally far apart. -/
theorem grid_succ (config : Config) (j : Nat) :
    config.grid (j + 1) = config.grid j + tick config.throttleTick := by
  have whole := config.grid_mod j
  show tick (config.grid j + config.throttleTick) = config.grid j + tick config.throttleTick
  simp only [tick, millisecond] at whole ⊢
  omega

/-- The grid goes on for ever. -/
theorem le_grid (long : 0 < config.throttleTick) (j : Nat) : j ≤ config.grid j := by
  induction j with
  | zero => exact Nat.zero_le _
  | succ j ih => exact Nat.le_trans (Nat.add_le_add ih long) (config.grid_add_le j)

/-- If ticks take no time, it does not. -/
theorem grid_of_no_tick (none : config.throttleTick = 0) (j : Nat) : config.grid j = 0 := by
  induction j with
  | zero => rfl
  | succ j ih => rw [grid, ih, none]; rfl

/-- The first look is at the origin. -/
theorem isLook_zero (config : Config) (start : Nat) : config.IsLook start 0 :=
  ⟨0, rfl, nofun⟩

/-- The next look at a note that is too far ahead. -/
theorem IsLook.succ (h : config.IsLook start instant) (ahead : config.lookAhead < start - instant) :
    config.IsLook start (tick (instant + config.throttleTick)) := by
  obtain ⟨j, rfl, before⟩ := h
  refine ⟨j + 1, rfl, fun l hl => ?_⟩
  rcases Nat.lt_succ_iff_lt_or_eq.1 hl with earlier | rfl
  · exact before l earlier
  · exact ahead

/-- Where one note is looked at, a later one may be. -/
theorem IsLook.mono (h : config.IsLook start instant) (le : start ≤ start') :
    config.IsLook start' instant := by
  obtain ⟨j, rfl, before⟩ := h
  exact ⟨j, rfl, fun l hl => Nat.lt_of_lt_of_le (before l hl) (Nat.sub_le_sub_right le _)⟩

/-- A note is not looked at after its turn, and no earlier note is. -/
theorem IsLook.le_turn (h : config.IsLook start instant) (le : start ≤ start')
    (turn : config.IsTurn start' instant') : instant ≤ instant' := by
  obtain ⟨j, rfl, before⟩ := h.mono le
  obtain ⟨⟨i, rfl, -⟩, near⟩ := turn
  refine config.grid_mono (Nat.le_of_not_lt fun passed => ?_)
  exact absurd (before i passed) (Nat.not_lt_of_le near)

/-- A note has one turn. -/
theorem IsTurn.unique (h : config.IsTurn start instant) (h' : config.IsTurn start instant') :
    instant = instant' :=
  Nat.le_antisymm (h.1.le_turn (Nat.le_refl _) h') (h'.1.le_turn (Nat.le_refl _) h)

/-- Every note has a turn, if ticks take time. -/
theorem exists_isTurn (long : 0 < config.throttleTick) (start : Nat) :
    ∃ instant, config.IsTurn start instant := by
  have some : ∃ j, start - config.grid j ≤ config.lookAhead :=
    ⟨start, by rw [Nat.sub_eq_zero_of_le (le_grid long start)]; exact Nat.zero_le _⟩
  exact ⟨_, ⟨Nat.find some, rfl, fun l hl => Nat.lt_of_not_le (Nat.find_min some hl)⟩,
    Nat.find_spec some⟩

/-- A turn is late for its note by less than a tick that ends at a whole millisecond; the
look-ahead is taken off that. -/
theorem IsTurn.le (h : config.IsTurn start instant) :
    instant ≤ start + (tick config.throttleTick - (config.lookAhead + 1)) := by
  obtain ⟨⟨j, rfl, before⟩, -⟩ := h
  cases j with
  | zero => exact Nat.zero_le _
  | succ j =>
      have far := before j (Nat.lt_succ_self j)
      rw [grid_succ]
      omega

end Config

/-! ### Tracks that can be played -/

namespace Track

variable {t : Track}

theorem start_mono (t : Track) {i k : Nat} (h : i ≤ k) : t.start i ≤ t.start k := by
  induction h with
  | refl => exact Nat.le_refl _
  | @step k _ ih =>
      refine Nat.le_trans ih ?_
      rcases Nat.lt_or_ge k t.notes.length with some | none
      · rw [start_succ (List.getElem?_eq_getElem some)]
        exact Nat.le_add_right _ _
      · rw [start, start, List.take_of_length_le none,
          List.take_of_length_le (Nat.le_succ_of_le none)]

/-- The lengths of the notes are lengths of time, and neither the end of the track nor a wait
on the way is too late to be represented. -/
structure IsPlayable (config : Config) (t : Track) : Prop where
  lengths : ∀ n ∈ t.notes, (nanoseconds n.duration).isSome
  ends : t.start t.notes.length < horizon
  waits : ∀ k < t.notes.length, ∀ j, config.lookAhead < t.start k - config.grid j →
    config.grid j + config.throttleTick < horizon

/-- A track can be played if its end is a tick away from the horizon. -/
theorem isPlayable_of_lt {config : Config}
    (lengths : ∀ n ∈ t.notes, (nanoseconds n.duration).isSome)
    (ends : t.start t.notes.length + config.throttleTick < horizon) : t.IsPlayable config := by
  refine ⟨lengths, Nat.lt_of_add_right_lt ends, fun k some j ahead => ?_⟩
  have start := t.start_mono (Nat.le_of_lt some)
  omega

end Track

namespace Playback

open Relation

variable {σ : Type}

/-- No call breaks down. -/
def Renderer.Answers (renderer : Renderer σ) : Prop :=
  ∀ memory surroundings r, (renderer.react memory surroundings r).2.tone.isSome

theorem Renderer.Answers.isSome {renderer : Renderer σ} (answers : renderer.Answers)
    {s s' : Stage σ} {i : Nat} {r : Request} {t : Option Tone}
    (called : s.call renderer i r = (s', t)) : t.isSome = true := by
  obtain rfl : (renderer.react s.memory ⟨s.now, s.cancelled, s.bus⟩ r).2.tone = t :=
    congrArg Prod.snd called
  exact answers _ _ _

/-! ### Members on turn -/

namespace Member

variable {config : Config} {renderer : Renderer σ} {t : Track} {s s' : Stage σ} {m m' : Member}

/-- The clock stands where a member at its place may find it.  A member that looks at a token
that is fired may have been cut while it waited. -/
def Stands (config : Config) (s : Stage σ) (m : Member) : Prop :=
  match m.place with
  | .rest => (m.player.phase = .ready → s.now = 0) ∧
      ∀ w, m.player.phase = .throttled w → s.now ≤ w ∧ config.IsLook m.player.cursor w
  | .heading => config.IsLook m.player.cursor s.now
  | .pausing => config.IsLook m.player.cursor s.now ∧ m.player.notes ≠ [] ∧
      config.lookAhead < m.player.cursor - s.now
  | .checking => s.cancelled = true ∨ config.IsTurn m.player.cursor s.now
  | .counting | .calling _ _ => config.IsTurn m.player.cursor s.now

/-- A member makes its calls in the turns of their notes. -/
structure OnTurn (config : Config) (s : Stage σ) (m : Member) : Prop where
  calls : ∀ call ∈ s.callsOf m.player.index, config.IsTurn call.request.start call.instant
  stands : m.Stands config s

/-- A member at rest that neither starts nor waits for a turn may find any clock. -/
theorem stands_of_rest {p : Player} (ready : p.phase ≠ .ready)
    (waits : ∀ w, p.phase ≠ .throttled w) : Stands config s ⟨p, .rest⟩ :=
  ⟨fun h => absurd h ready, fun w h => absurd h (waits w)⟩

/-- A change without a call. -/
theorem OnTurn.keep (h : m.OnTurn config s) (same : s.SameFor m.player.index s')
    (index : m'.player.index = m.player.index) (stands : m'.Stands config s') :
    m'.OnTurn config s' :=
  ⟨by rw [index, same.1]; exact h.calls, stands⟩

/-- A call in the turn of its note. -/
theorem calls_of_call (calls : ∀ call ∈ s.callsOf m.player.index,
      config.IsTurn call.request.start call.instant)
    (turn : config.IsTurn m.player.cursor s.now) {n : Note} {duration : Nat} {frequency : Single}
    {tone : Option Tone}
    (called : s.call renderer m.player.index (.ofNote n duration m.player.cursor frequency) =
      (s', tone)) :
    ∀ call ∈ s'.callsOf m.player.index, config.IsTurn call.request.start call.instant := by
  obtain ⟨new, request, instant, all⟩ := Stage.callsOf_of_call called
  intro call hc
  rw [all] at hc
  rcases List.mem_append.1 hc with earlier | last
  · exact calls call earlier
  · obtain rfl := List.mem_singleton.1 last
    rw [instant, request]
    exact turn

/-- A member stays on turn. -/
theorem OnTurn.step (h : m.OnTurn config s) (step : m.Step config renderer s s' m') :
    m'.OnTurn config s' := by
  have told (e : Event) := s.sameFor_tell e m.player.index
  have same : s.SameFor m.player.index s := ⟨rfl, rfl⟩
  have stands := h.stands
  cases step with
  | start ready =>
      refine h.keep (told _) rfl ?_
      show config.IsLook _ s.now
      rw [stands.1 ready]
      exact config.isLook_zero _
  | exhausted => exact h.keep same rfl (stands_of_rest nofun nofun)
  | ahead some ahead => exact h.keep (told _) rfl ⟨stands, some, ahead⟩
  | near _ near => exact h.keep same rfl (.inr ⟨stands, Nat.le_of_not_lt near⟩)
  | pause =>
      -- the wait ends at the next instant of the grid
      refine h.keep same rfl ⟨nofun, fun w hw => ?_⟩
      cases hw
      exact ⟨Nat.le_trans (Nat.le_add_right _ _) (le_tick _), stands.1.succ stands.2.2⟩
  | wake waiting due =>
      -- no time passes between the end of the wait and the look
      obtain ⟨early, look⟩ := stands.2 _ waiting
      refine h.keep same rfl ?_
      show config.IsLook _ s.now
      rwa [Nat.le_antisymm early due]
  | skip fired | cut _ fired => exact h.keep same rfl (.inl fired)
  | stop => exact h.keep (told _) rfl (stands_of_rest nofun nofun)
  | goOn unfired => exact h.keep same rfl (stands.resolve_left (Bool.eq_false_iff.1 unfired))
  | turn => exact h.keep same rfl stands
  | @count p place o _ settled here =>
      refine h.keep (s.sameFor_tellAll _ _) rfl ?_
      rcases here with rfl | ⟨rfl, joining⟩
      · exact stands
      · exact stands_of_rest (by rw [joining]; nofun) (by rw [joining]; nofun)
  | tooLate | noLength | beyond => exact h.keep (told _) rfl (stands_of_rest nofun nofun)
  | call _ called =>
      refine ⟨calls_of_call h.calls stands called, ?_⟩
      show config.IsTurn _ _
      rwa [(Stage.during_call called).choose_spec.1.now]
  | @refused s' p _ _ duration _ left _ called =>
      have calls := calls_of_call (m := ⟨p, .calling duration left⟩) h.calls stands called
      exact ⟨calls, stands_of_rest nofun nofun⟩
  -- the next note starts no earlier, and so it was too far ahead wherever this one was
  | advance => exact h.keep same rfl (stands.1.mono (Nat.le_add_right _ _))
  | finish => exact h.keep (Player.sameFor_finish s _ _) rfl (stands_of_rest nofun nofun)

/-- The ends of tones make no calls and take no time. -/
theorem OnTurn.sound {p' : Player} (h : m.OnTurn config s) (sounds : m.player.Sounds s s' p') :
    OnTurn config s' ⟨p', m.place⟩ := by
  obtain ⟨p, place⟩ := m
  obtain ⟨endings, older, fresh, -, -, rfl, rfl⟩ := sounds
  exact ⟨h.calls, by cases place <;> exact h.stands⟩

/-- Others make no calls of the track, and time passes only up to its next look. -/
theorem OnTurn.frame (h : m.OnTurn config s) (same : s.SameFor m.player.index s')
    (time : s'.now = s.now ∨ m.LetsPass s'.now)
    (fired : s.cancelled = true → s'.cancelled = true) : m.OnTurn config s' := by
  obtain ⟨p, place⟩ := m
  refine h.keep same rfl ?_
  rcases time with now | ⟨rfl, started, waits⟩
  · have stands := h.stands
    cases place with
    | checking => exact stands.imp fired (now.symm ▸ ·)
    | rest | heading | pausing | counting | calling => simpa only [Stands, now] using stands
  · exact ⟨fun ready => absurd ready started, fun w waiting =>
      ⟨waits w waiting, (h.stands.2 w waiting).2⟩⟩

/-- At the start the clock stands at the origin, and there are no calls. -/
theorem onTurn_ofTrack {i : Nat} (now : s.now = 0) (calls : s.callsOf i = []) :
    OnTurn config s ⟨.ofTrack i t, .rest⟩ := by
  refine ⟨fun call hc => ?_, fun _ => now, nofun⟩
  rw [show s.callsOf (Player.ofTrack i t).index = [] from calls] at hc
  cases hc

end Member

open Member Ensemble

/-- Every member is on turn. -/
theorem timedInvariant_onTurn (setup : Setup σ) :
    TimedInvariant setup fun _ s m => m.OnTurn setup.config s where
  initial := onTurn_ofTrack
  step step h := h.step step
  sound sounds h := h.sound sounds
  frame same time fired h := h.frame same time fired

/-! ### Members on plan -/

namespace Member

variable {config : Config} {renderer : Renderer σ} {t : Track} {s s' : Stage σ} {m m' : Member}

/-- A member that is on turn, in step with its track, and did not break down. -/
structure IsOnPlan (config : Config) (t : Track) (s : Stage σ) (m : Member) : Prop where
  turn : m.OnTurn config s
  plan : m.InStep t s
  sound : m.player.phase ≠ .crashed

/-- The note that a member has come to is one of the track. -/
theorem InStep.lt_length (h : m.InStep t s) (going : m.IsScheduling) (some : m.player.notes ≠ []) :
    m.player.report.notesScheduled < t.notes.length := by
  rw [h.notes going] at some
  exact Nat.lt_of_not_le fun none => some (List.drop_eq_nil_iff.2 none)

/-- A member in the middle of a note that was asked for has the end of the note ahead. -/
theorem InStep.le_ends {p : Player} {duration : Nat} (h : InStep t s ⟨p, .calling duration []⟩) :
    p.cursor + duration ≤ t.start t.notes.length := by
  obtain ⟨-, ⟨n, done, found, length, -⟩, -⟩ := h.requests
  have nanoseconds : n.nanoseconds = duration := by rw [Note.nanoseconds, length, Option.getD_some]
  have cursor : p.cursor = t.start p.report.notesScheduled := h.cursor
  rw [cursor, ← nanoseconds, ← Track.start_succ found]
  exact t.start_mono (List.getElem?_eq_some_iff.1 found).1

/-- On a track that can be played, with a renderer that answers, no member breaks down. -/
theorem IsOnPlan.step (playable : t.IsPlayable config) (answers : renderer.Answers)
    (h : m.IsOnPlan config t s) (step : m.Step config renderer s s' m') :
    m'.IsOnPlan config t s' := by
  have sound : m'.player.phase ≠ .crashed := by
    cases step with
    | tooLate late =>
        -- the clock stands on the grid, and the waits from there are in time
        obtain ⟨⟨j, now, -⟩, some, ahead⟩ := h.turn.stands
        have next := h.plan.lt_length (.inl nofun) some
        rw [show _ = t.start _ from h.plan.cursor, now] at ahead
        exact absurd (playable.waits _ next j ahead) (now ▸ Nat.not_lt_of_le late)
    | noLength some none =>
        obtain ⟨here, -⟩ := h.plan.next (.inl nofun) some
        have length := playable.lengths _ (List.mem_of_getElem? here)
        rw [none] at length
        cases length
    | refused _ called => cases answers.isSome called
    | beyond late =>
        exact absurd (Nat.lt_of_le_of_lt h.plan.le_ends playable.ends) (Nat.not_lt_of_le late)
    | exhausted | pause | stop | finish => nofun
    | start | ahead | near | skip | wake | cut | goOn | count | turn | call | advance =>
        exact h.sound
  exact ⟨h.turn.step step, (h.plan.step step).resolve_left fun broken => sound broken.2,
    sound⟩

/-- A member that let the turn of a note pass, while nothing was cut, has scheduled the note. -/
theorem IsOnPlan.scheduled (h : m.IsOnPlan config t s) (whole : m.IsWhole t)
    (unfired : s.cancelled = false) (uncut : m.player.report.cancelled = false) {k g : Nat}
    (some : k < t.notes.length) (turn : config.IsTurn (t.start k) g) (past : g < s.now) :
    k < m.player.report.notesScheduled := by
  refine Nat.lt_of_not_le fun behind => ?_
  -- the clock would have to stand, or to be going on, to a look that is not after the turn
  have early {w : Nat} (look : config.IsLook m.player.cursor w) : ¬ s.now ≤ w := fun here => by
    rw [h.plan.cursor] at look
    exact Nat.not_le_of_lt past (Nat.le_trans here (look.le_turn (t.start_mono behind) turn))
  have stands := h.turn.stands
  obtain ⟨p, place⟩ := m
  cases place with
  | heading => exact early stands (Nat.le_refl _)
  | pausing => exact early stands.1 (Nat.le_refl _)
  | checking =>
      exact early (stands.resolve_left (Bool.eq_false_iff.1 unfired)).1 (Nat.le_refl _)
  | counting | calling => exact early stands.1 (Nat.le_refl _)
  | rest =>
      have ended (joined : p.phase = .joining ∨ p.phase = .finished) : False := by
        have all : p.report.notesScheduled = _ := (whole joined).2 uncut
        exact Nat.not_le_of_lt some (all ▸ behind)
      cases phase : p.phase with
      | ready => exact Nat.not_lt_zero g (stands.1 phase ▸ past)
      | throttled w => exact early (stands.2 w phase).2 (stands.2 w phase).1
      | joining => exact ended (.inl phase)
      | finished => exact ended (.inr phase)
      | crashed => exact h.sound phase

end Member

/-- With a renderer that answers, the members of tracks that can be played are on plan. -/
theorem timedInvariant_onPlan (setup : Setup σ) (answers : setup.renderer.Answers) :
    TimedInvariant setup fun t s m =>
      t.IsPlayable setup.config → m.IsOnPlan setup.config t s where
  initial now calls _ := ⟨onTurn_ofTrack now calls, inStep_ofTrack calls, nofun⟩
  step step h playable := (h playable).step playable answers step
  sound := by
    intro t s s' m p' sounds h playable
    obtain ⟨turn, plan, sound⟩ := h playable
    refine ⟨turn.sound sounds, plan.sound sounds, ?_⟩
    obtain ⟨endings, older, fresh, -, -, -, rfl⟩ := sounds
    exact sound
  frame := by
    intro t s s' m same time fired h playable
    obtain ⟨turn, plan, sound⟩ := h playable
    exact ⟨turn.frame same time fired, plan.frame same, sound⟩

variable {setup : Setup σ} {sheet : Sheet}

/-- The member of a track that can be played. -/
theorem exists_onPlan (answers : setup.renderer.Answers) {may : Ensemble σ → Nat → Prop}
    {c : Ensemble σ} (reached : ReachedOnTime setup sheet may c) {i : Nat} {t : Track}
    (track : sheet.tracks[i]? = some t) (playable : t.IsPlayable setup.config) :
    ∃ m, c.members[i]? = some m ∧ m.player.index = i ∧ m.IsOnPlan setup.config t c.stage ∧
      m.IsWhole t ∧ (c.stage.cancelled = false → m.player.report.cancelled = false) := by
  obtain ⟨m, found, index, h⟩ := (timedInvariant_onPlan setup answers).member reached track
  have h := h playable
  have sound : ¬ m.IsBroken := fun broken => h.sound broken.2
  obtain ⟨-, whole⟩ := (memberInvariant_whole setup).all_of_reached reached.reached i m found
  obtain ⟨-, flag⟩ := (timedInvariant_unflagged setup).all_of_reached reached i m found
  refine ⟨m, found, index, h, ((whole t track).resolve_left sound).2, fun unfired => ?_⟩
  have flag := (flag t track).resolve_left (Bool.eq_false_iff.1 unfired)
  exact Bool.eq_false_iff.2 fun flagged => sound (flag flagged)

/-! ### Performances come to every turn -/

namespace Performance

variable {p : Performance σ}

/-- If players are not cut while they wait, time passes from instant to instant. -/
theorem now_lt_goOn (played : p.isOver = true ∨ p.IsPlayed)
    (quiet : p.stage.cancelled = false ∨ p.setup.renderer.LeavesToken) (moves : p.goOn ≠ p) :
    p.stage.now < p.goOn.stage.now := by
  have going : ¬ p.isOver = true := fun ended => moves (goOn_of_isOver ended)
  rcases goOn_cases p with same | ⟨t, next, eq⟩
  · exact absurd same moves
  · rw [(played.resolve_left going).next?_of_quiet quiet] at next
    rw [eq, now_round]
    exact of_decide_eq_true (Option.filter_eq_some_iff.1 next).2

/-- In a performance that stands still without a cut, nobody has to schedule anything. -/
theorem phase_of_goOn_eq (long : 0 < p.setup.config.throttleTick)
    (played : p.isOver = true ∨ p.IsPlayed) (unfired : p.stage.cancelled = false)
    (kept : p.dropped = false) (still : p.goOn = p) :
    ∀ q ∈ p.players, q.phase = .joining ∨ q.phase = .finished ∨ q.phase = .crashed := by
  intro q hq
  rcases Bool.eq_false_or_eq_true p.isOver with ended | going
  · exact .inr (Player.isOver_iff.1 (isOver_of_mem ended kept q hq))
  have going : ¬ p.isOver = true := Bool.eq_false_iff.1 going
  have played := played.resolve_left going
  cases phase : q.phase with
  | joining => exact .inl rfl
  | finished => exact .inr (.inl rfl)
  | crashed => exact .inr (.inr rfl)
  | ready => exact absurd phase (played.players q hq).started
  | throttled w =>
      -- there is a next instant, and it does not come
      obtain ⟨t, first⟩ := Option.isSome_iff_exists.1
        (List.isSome_min?_of_mem (mem_dueTimes_of_throttled hq phase))
      have later := played.ahead long t (List.min?_mem first)
      have next := (played.next?_eq long (.inl unfired)).trans first
      have now := now_round (p.jumpTo t)
      rw [← goOn_of_next?_eq_some going next, still] at now
      exact absurd later (Nat.not_lt_of_le (Nat.le_of_eq now.symm))

/-- A performance that is never cut comes to stand still, or past every instant. -/
theorem le_now_or_goOn_eq
    (unfired : ∀ n, ((ofSheet setup sheet).start.run n).stage.cancelled = false) (n : Nat) :
    n ≤ ((ofSheet setup sheet).start.run n).stage.now ∨
      ((ofSheet setup sheet).start.run n).goOn = (ofSheet setup sheet).start.run n := by
  induction n with
  | zero => exact .inl (Nat.zero_le _)
  | succ n ih =>
      have played := (isPlayed_run setup sheet n).2
      have unfired := unfired n
      rw [run_succ]
      generalize (ofSheet setup sheet).start.run n = p at *
      by_cases still : p.goOn = p
      · exact .inr (by rw [still, still])
      · exact .inl (Nat.lt_of_le_of_lt (ih.resolve_right still)
          (now_lt_goOn played (.inl unfired) still))

end Performance

/-- In a performance that is never cut, every note of a track that can be played is scheduled
in the end. -/
theorem exists_all_scheduled (long : 0 < setup.config.throttleTick)
    (answers : setup.renderer.Answers) (playable : ∀ t ∈ sheet.tracks, t.IsPlayable setup.config)
    (uncut : ∀ n, ((Performance.ofSheet setup sheet).start.run n).stage.cancelled = false ∧
      ((Performance.ofSheet setup sheet).start.run n).dropped = false) :
    ∃ N, ∀ n, N ≤ n → ∀ (i : Nat) (t : Track), sheet.tracks[i]? = some t → ∃ q : Player,
      ((Performance.ofSheet setup sheet).start.run n).players[i]? = some q ∧
      q.report.notesScheduled = t.notes.length ∧
      ((Performance.ofSheet setup sheet).start.run n).stage.requestsOf i =
        t.requests t.notes.length := by
  -- all turns are before this instant
  refine ⟨horizon + tick setup.config.throttleTick, fun n late i t track => ?_⟩
  have playable := playable t (List.mem_of_getElem? track)
  obtain ⟨unfired, kept⟩ := uncut n
  obtain ⟨m, found, rfl, h, whole, unflagged⟩ :=
    exists_onPlan answers (Performance.reachedOnTime_run setup sheet n) track playable
  have unflagged := unflagged unfired
  obtain ⟨found, rests⟩ := getElem?_of_ofPerformance found
  have all : m.player.report.notesScheduled = t.notes.length := by
    by_contra short
    have next := Nat.lt_of_le_of_ne h.plan.scheduled short
    rcases Performance.le_now_or_goOn_eq (fun n => (uncut n).1) n with past | still
    · obtain ⟨g, turn⟩ := Config.exists_isTurn long (t.start m.player.report.notesScheduled)
      have early : g < ((Performance.ofSheet setup sheet).start.run n).stage.now := by
        have bound := turn.le
        have ends := playable.ends
        have start := t.start_mono (Nat.le_of_lt next)
        omega
      exact absurd (h.scheduled whole unfired unflagged next turn early) (Nat.lt_irrefl _)
    · obtain ⟨same, played⟩ := Performance.isPlayed_run setup sheet n
      have phase := Performance.phase_of_goOn_eq (by rwa [same]) played unfired kept still
        m.player (List.mem_of_getElem? found)
      rw [← or_assoc] at phase
      exact short ((whole (phase.resolve_right h.sound)).2 unflagged)
  refine ⟨m.player, found, all, ?_⟩
  have requests := h.plan.requests_of_rest rests
  rwa [all] at requests

/-- Each note is asked for in its turn.  If ticks take time, the renderer answers and the
tracks can be played, then in an ensemble that keeps time, in whatever order its members
act, all calls for a note are made at the first instant of the grid at which the start of
the note is not further ahead than the look-ahead allows, so that notes with one start
are asked for at one instant; and as long as the token is not fired, whatever had its turn
before the present instant is scheduled.  Performances are ordered in one such way, and
one that is never cut comes to have every note scheduled. -/
theorem calls_on_turn {setup : Setup σ} (long : 0 < setup.config.throttleTick)
    (answers : setup.renderer.Answers) (sheet : Sheet)
    (playable : ∀ t ∈ sheet.tracks, t.IsPlayable setup.config) :
    (∀ c, ReachedOnTime setup sheet anyone c → ∀ (i : Nat) (t : Track),
      sheet.tracks[i]? = some t →
        (∀ call ∈ c.stage.callsOf i, setup.config.IsTurn call.request.start call.instant ∧
          call.request.start ≤ call.instant + setup.config.lookAhead ∧
          ∀ j u, sheet.tracks[j]? = some u → ∀ call' ∈ c.stage.callsOf j,
            call'.request.start = call.request.start → call'.instant = call.instant) ∧
        ∃ m : Member, c.members[i]? = some m ∧ ∀ k < t.notes.length,
          (∃ g, setup.config.IsTurn (t.start k) g) ∧
          ∀ g, setup.config.IsTurn (t.start k) g → c.stage.cancelled = false →
            g < c.stage.now → k < m.player.report.notesScheduled) ∧
    (∀ n, ReachedOnTime setup sheet anyone
      (ofPerformance ((Performance.ofSheet setup sheet).start.run n))) ∧
    ((∀ n, ((Performance.ofSheet setup sheet).start.run n).stage.cancelled = false ∧
        ((Performance.ofSheet setup sheet).start.run n).dropped = false) →
      ∃ N, ∀ n, N ≤ n → ∀ (i : Nat) (t : Track), sheet.tracks[i]? = some t → ∃ q : Player,
        ((Performance.ofSheet setup sheet).start.run n).players[i]? = some q ∧
        q.report.notesScheduled = t.notes.length ∧
        ((Performance.ofSheet setup sheet).start.run n).stage.requestsOf i =
          t.requests t.notes.length) := by
  refine ⟨fun c reached i t track => ⟨fun call hc => ?_, ?_⟩,
    fun n => (Performance.reachedOnTime_run setup sheet n).free,
    exists_all_scheduled long answers playable⟩
  · have turns (i : Nat) (t : Track) (track : sheet.tracks[i]? = some t) :
        ∀ call ∈ c.stage.callsOf i, setup.config.IsTurn call.request.start call.instant := by
      obtain ⟨m, -, rfl, h⟩ := (timedInvariant_onTurn setup).member reached track
      exact h.calls
    have turn := turns i t track call hc
    refine ⟨turn, Nat.sub_le_iff_le_add'.1 turn.2, fun j u track' call' hc' same => ?_⟩
    have turn' := turns j u track' call' hc'
    rw [same] at turn'
    exact turn'.unique turn
  · obtain ⟨m, found, -, h, whole, unflagged⟩ := exists_onPlan answers reached track
      (playable t (List.mem_of_getElem? track))
    exact ⟨m, found, fun k some => ⟨Config.exists_isTurn long _,
      fun g turn unfired past => h.scheduled whole unfired (unflagged unfired) some turn past⟩⟩

/-- In a rehearsal only frequencies that are refused break a call. -/
theorem Rehearsal.answers {h : Rehearsal} (none : h.refusing = []) : h.renderer.Answers := by
  intro calls _ r
  show Option.isSome (if h.refusing.any r.frequency.same then _ else _) = true
  rw [none]
  rfl

theorem isPlayable_duet : ∀ t ∈ duet.tracks, t.IsPlayable unhurried.config := by
  have lengths : ∀ t ∈ duet.tracks, ∀ n ∈ t.notes, (nanoseconds n.duration).isSome := by
    decide +kernel
  have ends : ∀ t ∈ duet.tracks,
      t.start t.notes.length + unhurried.config.throttleTick < horizon := by decide +kernel
  exact fun t ht => Track.isPlayable_of_lt (lengths t ht) (ends t ht)

/-- The last note of the melody starts after half a second, and is asked for a tenth of a second
before. -/
theorem calls_on_turn_duet :
    ((((Performance.ofSheet unhurried duet).start.run 12).stage.callsOf 0).map fun call =>
      (call.request.start, call.instant)) =
      [(0, 0), (0, 0), (250 * millisecond, 150 * millisecond),
        (500 * millisecond, 400 * millisecond)] ∧
    unhurried.config.IsTurn (500 * millisecond) (400 * millisecond) ∧
    ∃ N, ∀ n, N ≤ n → ∃ q : Player,
      ((Performance.ofSheet unhurried duet).start.run n).players[0]? = some q ∧
      q.report.notesScheduled = 3 := by
  have long : 0 < unhurried.config.throttleTick := by decide
  obtain ⟨turns, onTime, ends⟩ := calls_on_turn long (Rehearsal.answers rfl) duet isPlayable_duet
  have uncut := Performance.isUncut_run isUndisturbed_unhurried duet
  have calls : ((((Performance.ofSheet unhurried duet).start.run 12).stage.callsOf 0).map
      fun call => (call.request.start, call.instant)) =
      [(0, 0), (0, 0), (250 * millisecond, 150 * millisecond),
        (500 * millisecond, 400 * millisecond)] := by decide +kernel
  refine ⟨calls, ?_, ?_⟩
  · have last : (500 * millisecond, 400 * millisecond) ∈
        ((((Performance.ofSheet unhurried duet).start.run 12).stage.callsOf 0).map
          fun call => (call.request.start, call.instant)) := by
      rw [calls]
      simp
    obtain ⟨call, hc, times⟩ := List.mem_map.1 last
    obtain ⟨start, instant⟩ := Prod.mk.inj times
    obtain ⟨turn, -⟩ := turns _ (onTime 12) 0 melody rfl
    rw [stage_ofPerformance] at turn
    exact start ▸ instant ▸ (turn call hc).1
  · obtain ⟨N, all⟩ := ends fun n => ⟨(uncut n).unfired, (uncut n).kept⟩
    refine ⟨N, fun n late => ?_⟩
    obtain ⟨q, found, scheduled, -⟩ := all n late 0 melody rfl
    exact ⟨q, found, scheduled⟩

/-! ### Late calls -/

/-- How late a call can be.  A call is made after the start of its request by less than a
throttle tick that ends at a whole millisecond, with the look-ahead taken off; and so not
at all, if that tick is not longer than the look-ahead. -/
theorem calls_late_by_less (setup : Setup σ) (sheet : Sheet) :
    (∀ c, ReachedOnTime setup sheet anyone c → ∀ (i : Nat) (t : Track),
      sheet.tracks[i]? = some t → ∀ call ∈ c.stage.callsOf i,
        call.instant ≤ call.request.start +
          (tick setup.config.throttleTick - (setup.config.lookAhead + 1)) ∧
        (tick setup.config.throttleTick ≤ setup.config.lookAhead + 1 →
          call.instant ≤ call.request.start)) ∧
    ∀ n, ReachedOnTime setup sheet anyone
      (ofPerformance ((Performance.ofSheet setup sheet).start.run n)) := by
  refine ⟨fun c reached i t track call hc => ?_,
    fun n => (Performance.reachedOnTime_run setup sheet n).free⟩
  obtain ⟨m, -, rfl, h⟩ := (timedInvariant_onTurn setup).member reached track
  have bound := (h.calls call hc).le
  refine ⟨bound, fun short => ?_⟩
  rwa [Nat.sub_eq_zero_of_le short, Nat.add_zero] at bound

/-- The duet waits in ticks that are shorter than the look-ahead, and no call is late. -/
theorem calls_late_by_less_duet :
    ∀ call ∈ ((Performance.ofSheet unhurried duet).start.run 12).stage.callsOf 0,
      call.instant ≤ call.request.start := by
  obtain ⟨bound, onTime⟩ := calls_late_by_less unhurried duet
  have early := bound _ (onTime 12) 0 melody rfl
  rw [stage_ofPerformance] at early
  exact fun call hc => (early call hc).2 (by decide)

/-- A sheet is played for its log, and nothing happens from outside. -/
def Setup.logging (config : Config) : Setup Unit := ⟨config, .logging, .initial, false, []⟩

theorem leavesToken_logging : Renderer.logging.LeavesToken := fun _ _ _ => rfl

theorem isUndisturbed_logging (config : Config) : (Setup.logging config).IsUndisturbed :=
  ⟨leavesToken_logging, rfl, nofun⟩

/-- With a look-ahead of a second and ticks of ten seconds, a call is late: of four notes of half
a second the last one starts after a second and a half, and is asked for after ten. -/
theorem exists_call_after_start :
    ∃ (config : Config) (sheet : Sheet),
      Config.ofYaml "look-ahead-secs: 1\nthrottle-tick-secs: 10".toList = .config config ∧
      Sheet.ofText "C4:q D4:q E4:q F4:q".toList = .ok sheet ∧
      (∀ n, ((Performance.ofSheet (.logging config) sheet).start.run n).stage.cancelled = false ∧
        ((Performance.ofSheet (.logging config) sheet).start.run n).dropped = false) ∧
      ∃ n, ∃ call ∈ ((Performance.ofSheet (.logging config) sheet).start.run n).stage.calls,
        call.request.start = 1500 * millisecond ∧ call.instant = 10 * second := by
  let config : Config := ⟨second, 10 * second⟩
  have read : Config.ofYaml "look-ahead-secs: 1\nthrottle-tick-secs: 10".toList =
      .config config := by
    have value : (match Config.ofYaml "look-ahead-secs: 1\nthrottle-tick-secs: 10".toList with
        | .config c => some c
        | _ => none) = some config := by decide +kernel
    split at value
    case h_1 eq => rw [eq, Option.some.inj value]
    case h_2 => cases value
  have late : (match Sheet.ofText "C4:q D4:q E4:q F4:q".toList with
      | .ok sheet => ((Performance.ofSheet (.logging config) sheet).start.run 4).stage.calls.any
          fun call => call.request.start = 1500 * millisecond ∧ call.instant = 10 * second
      | .error _ => false) = true := by decide +kernel
  split at late
  case h_1 sheet eq =>
    have uncut := Performance.isUncut_run (isUndisturbed_logging config) sheet
    obtain ⟨call, hc, times⟩ := List.any_eq_true.1 late
    exact ⟨config, sheet, read, eq, fun n => ⟨(uncut n).unfired, (uncut n).kept⟩, 4, call, hc,
      of_decide_eq_true times⟩
  case h_2 => cases late

end Playback

end SongSheet
