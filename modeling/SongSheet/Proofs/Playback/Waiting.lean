/-
SongSheet/Proofs/Playback/Waiting.lean

What is left to be done when an instant has been played.

A tone sleeps if it waits for an instant ahead, or for a token that is not fired
(`Tone.Sleeps`), and a player sleeps if it cannot go on and none of its tones can
(`Player.Sleeps`).  A round leaves each player asleep (`isPlayed_round`), but for two
kinds: one that a call cut after the player went to wait, and one whose throttle tick
has no length, which waits for an instant that is not ahead.  A player that sleeps
is none the wiser for a round in which none of its instants comes up
(`Player.Sleeps.soundOlder`, `Player.Sleeps.play`, `Player.Sleeps.soundAll`).
-/
import SongSheet.Proofs.Playback.Scheduling
import SongSheet.Proofs.Playback.Truncation

namespace SongSheet.Playback

open Clock

variable {σ : Type}

/-! ### Tones -/

namespace Tone

/-- A tone cannot go on: it waits for an instant ahead, or for the token, or for nothing. -/
structure Sleeps (now : Nat) (cancelled : Bool) (t : Tone) : Prop where
  waits : match t with
    | wait .. => cancelled = false
    | hold .. | never => True
    | ended _ | say .. => False
  ahead : ∀ w, t.wake? = some w → now < w

variable {now later : Nat} {cancelled : Bool} {t : Tone}

/-- A tone that was polled is over or sleeps. -/
theorem sleeps_poll (now : Nat) (cancelled : Bool) (t : Tone)
    (left : (t.poll now cancelled).2.outcome? = none) :
    (t.poll now cancelled).2.Sleeps now cancelled := by
  -- a wait that is due, or cut, goes on with what is after it
  induction t with
  | ended o => simp [poll, outcome?] at left
  | wait d onTime cut ihOnTime ihCut =>
      rw [poll] at left ⊢
      by_cases fired : cancelled = true
      · rw [if_pos fired] at left ⊢
        exact ihCut now left
      · rw [if_neg fired] at left ⊢
        by_cases due : tick d ≤ now
        · rw [if_pos due] at left ⊢
          exact ihOnTime left
        · rw [if_neg due]
          refine ⟨Bool.eq_false_iff.2 fired, ?_⟩
          rintro w ⟨⟩
          exact Nat.lt_of_not_le due
  | hold d next ih =>
      rw [poll] at left ⊢
      by_cases due : tick d ≤ now
      · rw [if_pos due] at left ⊢
        exact ih left
      · rw [if_neg due]
        refine ⟨trivial, ?_⟩
        rintro w ⟨⟩
        exact Nat.lt_of_not_le due
  | say r next ih => exact ih left
  | never =>
      refine ⟨trivial, ?_⟩
      rintro w ⟨⟩

/-- Polling does not wake a tone that sleeps. -/
theorem Sleeps.poll_eq (h : t.Sleeps now cancelled) : t.poll now cancelled = ([], t) := by
  obtain ⟨waits, ahead⟩ := h
  cases t with
  | ended | say => exact waits.elim
  | wait d =>
      have unfired : ¬ cancelled = true := Bool.eq_false_iff.1 waits
      rw [poll, if_neg unfired, if_neg (Nat.not_le_of_lt (ahead _ rfl))]
  | hold d => rw [poll, if_neg (Nat.not_le_of_lt (ahead _ rfl))]
  | never => rfl

/-- A tone that sleeps is not over. -/
theorem Sleeps.outcome? (h : t.Sleeps now cancelled) : t.outcome? = none := by
  cases t with
  | ended => exact h.waits.elim
  | _ => rfl

/-- A tone sleeps until its instant. -/
theorem Sleeps.until (h : t.Sleeps now cancelled) (ahead : ∀ w, t.wake? = some w → later < w) :
    t.Sleeps later cancelled := ⟨h.waits, ahead⟩

end Tone

/-! ### One moment -/

/-- No time lies between two stages, and, if it is quiet, nobody fired the token in between. -/
structure Stage.SameMoment (quiet : Prop) (s s' : Stage σ) : Prop where
  now : s'.now = s.now
  cancelled : quiet → s'.cancelled = s.cancelled

namespace Stage.SameMoment

variable {quiet : Prop} {s s' s'' : Stage σ}

theorem refl : s.SameMoment quiet s := ⟨rfl, fun _ => rfl⟩

theorem trans (h : s.SameMoment quiet s') (k : s'.SameMoment quiet s'') :
    s.SameMoment quiet s'' :=
  ⟨k.now.trans h.now, fun q => (k.cancelled q).trans (h.cancelled q)⟩

/-- A quiet moment is one in any case. -/
theorem of_true (h : s.SameMoment True s') : s.SameMoment quiet s' :=
  ⟨h.now, fun _ => h.cancelled trivial⟩

theorem symm (h : s.SameMoment quiet s') : s'.SameMoment quiet s :=
  ⟨h.now.symm, fun q => (h.cancelled q).symm⟩

end Stage.SameMoment

/-! ### Renderers that leave the token alone -/

/-- A renderer that does not fire the token. -/
def Renderer.LeavesToken (renderer : Renderer σ) : Prop :=
  ∀ memory surroundings r, (renderer.react memory surroundings r).2.cancels = false

section

variable {config : Config} {renderer : Renderer σ}

/-- Such a renderer does not fire the token in a call. -/
theorem Renderer.LeavesToken.call (h : renderer.LeavesToken) {s s' : Stage σ} {i : Nat}
    {r : Request} {t : Option Tone} (called : s.call renderer i r = (s', t)) :
    s'.cancelled = s.cancelled := by
  obtain rfl : (s.call renderer i r).1 = s' := by rw [called]
  show (s.cancelled || (renderer.react _ _ r).2.cancels) = s.cancelled
  rw [h, Bool.or_false]

/-- The end of scheduling takes no time and does not fire the token. -/
theorem Player.sameMoment_finish (s : Stage σ) (p : Player) : s.SameMoment True (p.finish s).1 := by
  rw [finish_eq]
  exact ⟨Stage.now_tellAll _ _, fun _ => Stage.cancelled_tellAll _ _⟩

/-- Nothing that a member does fires the token then. -/
theorem Member.Step.cancelled (h : renderer.LeavesToken) {s s' : Stage σ} {m m' : Member}
    (step : m.Step config renderer s s' m') : s'.cancelled = s.cancelled := by
  cases step with
  | start | ahead | stop | tooLate | noLength | beyond => exact s.cancelled_tell _
  | exhausted | near | skip | pause | wake | cut | goOn | turn | advance => rfl
  | count => exact s.cancelled_tellAll _
  | finish => exact (Player.sameMoment_finish s _).cancelled trivial
  | call _ called => exact h.call called
  | refused _ called => exact (Stage.cancelled_tell _ _).trans (h.call called)

/-- In the long run neither. -/
theorem Member.Goes.cancelled (h : renderer.LeavesToken) {a b : Stage σ × Member}
    (goes : Goes config renderer a b) : b.1.cancelled = a.1.cancelled := by
  induction goes with
  | refl => rfl
  | tail _ change ih =>
      rw [← ih]
      cases change with
      | step step => exact step.cancelled h
      | sound sounds =>
          obtain ⟨endings, older, fresh, -, -, rfl, -⟩ := sounds
          rfl
      | told es => exact Stage.cancelled_tellAll _ es

end

/-! ### Players -/

namespace Player

/-- A player cannot go on, and none of its tones can. -/
structure Sleeps (now : Nat) (cancelled : Bool) (p : Player) : Prop where
  started : p.phase ≠ .ready
  throttled : ∀ w, p.phase = .throttled w → cancelled = false ∧ now < w
  joining : p.phase = .joining → p.ringing ≠ [] ∧ p.settled = []
  tones : ∀ v ∈ p.ringing, v.tone.Sleeps now cancelled

variable {config : Config} {renderer : Renderer σ} {s : Stage σ} {p : Player}

/-- A wake-up of a tone is one of its player. -/
theorem mem_wakes_of_tone {v : Voice} {w : Nat} (hv : v ∈ p.ringing)
    (hw : v.tone.wake? = some w) : w ∈ p.wakes := by
  have tone : w ∈ p.ringing.filterMap (·.tone.wake?) := List.mem_filterMap.2 ⟨v, hv, hw⟩
  rw [wakes]
  split
  · exact List.mem_cons_of_mem _ tone
  · exact tone

/-- So is that of a wait of the player. -/
theorem mem_wakes_of_throttled {w : Nat} (h : p.phase = .throttled w) : w ∈ p.wakes := by
  rw [wakes, h]
  exact List.mem_cons_self

/-- A wake-up is that of a tone or of a wait. -/
theorem mem_wakes {w : Nat} (h : w ∈ p.wakes) :
    p.phase = .throttled w ∨ ∃ v ∈ p.ringing, v.tone.wake? = some w := by
  have tone (h : w ∈ p.ringing.filterMap (·.tone.wake?)) :
      p.phase = .throttled w ∨ ∃ v ∈ p.ringing, v.tone.wake? = some w :=
    .inr (List.mem_filterMap.1 h)
  rw [wakes] at h
  split at h
  case h_1 instant waiting =>
    rcases List.mem_cons.1 h with rfl | h
    · exact .inl waiting
    · exact tone h
  case h_2 => exact tone h

theorem isOver_iff : p.isOver = true ↔ p.phase = .finished ∨ p.phase = .crashed := by
  rw [isOver, Bool.or_eq_true, beq_iff_eq, beq_iff_eq]

/-- A player that is over has nothing to schedule. -/
theorem isIdle_of_isOver (atEnd : p.isOver = true) (now : Nat) (cancelled : Bool) :
    p.IsIdle now cancelled where
  started ready := by rcases isOver_iff.1 atEnd with phase | phase <;> simp [ready] at phase
  throttled w waits := by rcases isOver_iff.1 atEnd with phase | phase <;> simp [waits] at phase

/-- A player that is over sleeps for ever. -/
theorem sleeps_of_isOver (atEnd : p.isOver = true) (none : p.ringing = []) (now : Nat)
    (cancelled : Bool) : p.Sleeps now cancelled where
  started := (isIdle_of_isOver atEnd now cancelled).started
  throttled := (isIdle_of_isOver atEnd now cancelled).throttled
  joining joins := by rcases isOver_iff.1 atEnd with phase | phase <;> simp [joins] at phase
  tones v hv := by
    rw [none] at hv
    cases hv

/-- Tones that sleep make no difference. -/
theorem sound_of_sleeps {track : Nat} {voices : List Voice}
    (h : ∀ v ∈ voices, v.tone.Sleeps s.now s.cancelled) :
    sound s track voices = (s, [], voices) := by
  have polled : voices.map (·.poll s.now s.cancelled) = voices.map ([], ·) :=
    List.map_congr_left fun v hv => by rw [Voice.poll, (h v hv).poll_eq]
  have none : voices.filterMap (·.ending? track) = [] :=
    List.filterMap_eq_nil_iff.2 fun v hv => by rw [Voice.ending?, (h v hv).outcome?]; rfl
  have all : voices.filter (·.isRinging) = voices :=
    List.filter_eq_self.2 fun v hv => by rw [Voice.isRinging, (h v hv).outcome?]; rfl
  have left : (voices.map fun v => (([], v) : List Remark × Voice)).map (·.2) = voices := by
    rw [List.map_map]
    exact List.map_id _
  have silent : (voices.map fun v => (([], v) : List Remark × Voice)).flatMap (·.1) = [] := by
    simp [List.flatMap_map]
  simp only [sound, polled, left, silent, none, all, List.map_nil]
  rfl

/-- A player that sleeps hears nothing of its older tones. -/
theorem Sleeps.soundOlder (h : p.Sleeps s.now s.cancelled) : p.soundOlder s = (s, p) := by
  have older : sound s p.index p.older = (s, [], p.older) :=
    sound_of_sleeps fun v hv => h.tones v (List.mem_append_left _ hv)
  simp only [Player.soundOlder, older, List.append_nil]

/-- It does not go on with scheduling. -/
theorem Sleeps.play (h : p.Sleeps s.now s.cancelled) : p.play config renderer s = (s, p) :=
  IsIdle.play ⟨h.started, h.throttled⟩

/-- It hears nothing of all its tones, and does not end. -/
theorem Sleeps.soundAll (h : p.Sleeps s.now s.cancelled) : p.soundAll s = (s, p) := by
  have fresh : sound s p.index p.fresh = (s, [], p.fresh) :=
    sound_of_sleeps fun v hv => h.tones v (List.mem_append_right _ hv)
  simp only [Player.soundAll, h.soundOlder, fresh, List.append_nil]
  split
  case isTrue joining =>
    obtain ⟨rings, none⟩ := h.joining joining
    have some : ¬ p.ringing.isEmpty := by rwa [List.isEmpty_iff]
    obtain ⟨index, name, notes, cursor, report, called, older, fresh', settled, phase⟩ := p
    obtain rfl : settled = [] := none
    obtain rfl : phase = .joining := joining
    rw [join]
    exact if_neg some
  case isFalse => rfl

/-! ### After a round -/

/-- A player had its turn in an instant. -/
structure HasPlayed (setup : Setup σ) (s : Stage σ) (p : Player) : Prop where
  started : p.phase ≠ .ready
  uncut : setup.renderer.LeavesToken → ∀ w, p.phase = .throttled w → s.cancelled = false
  ahead : 0 < setup.config.throttleTick → ∀ w, p.phase = .throttled w → s.now < w

/-- A player did all that it could do in an instant, and so did its tones. -/
structure IsPlayed (setup : Setup σ) (s : Stage σ) (p : Player) : Prop
    extends p.HasPlayed setup s where
  joining : p.phase = .joining → p.ringing ≠ [] ∧ p.settled = []
  tones : ∀ v ∈ p.ringing, v.tone.Sleeps s.now s.cancelled

/-- It sleeps then until its first instant, unless a call could have cut it. -/
theorem IsPlayed.sleeps {setup : Setup σ} (h : p.IsPlayed setup s)
    (leaves : setup.renderer.LeavesToken) {later : Nat} (ahead : ∀ w ∈ p.wakes, later < w) :
    p.Sleeps later s.cancelled where
  started := h.started
  throttled w hw := ⟨h.uncut leaves w hw, ahead w (mem_wakes_of_throttled hw)⟩
  joining := h.joining
  tones v hv := (h.tones v hv).until fun w hw => ahead w (mem_wakes_of_tone hv hw)

/-- It is still so in the same moment. -/
theorem HasPlayed.of_sameMoment {setup : Setup σ} {s' : Stage σ} (h : p.HasPlayed setup s)
    (same : s.SameMoment setup.renderer.LeavesToken s') : p.HasPlayed setup s' where
  started := h.started
  uncut leaves w hw := (same.cancelled leaves).trans (h.uncut leaves w hw)
  ahead long w hw := same.now.symm ▸ h.ahead long w hw

/-- So it is with its tones, if the token stays as it is. -/
theorem IsPlayed.of_sameMoment {setup : Setup σ} {s' : Stage σ} (h : p.IsPlayed setup s)
    (same : s.SameMoment True s') : p.IsPlayed setup s' where
  toHasPlayed := h.toHasPlayed.of_sameMoment same.of_true
  joining := h.joining
  tones := by
    rw [same.now, same.cancelled trivial]
    exact h.tones

/-- Joining is the last thing that a player does. -/
theorem phase_join (s : Stage σ) (p : Player) :
    (p.join s).2.phase = .finished ∨
      (p.join s).2.phase = .joining ∧ (p.join s).2.ringing ≠ [] ∧ (p.join s).2.settled = [] := by
  rw [join_eq]
  split
  case isTrue => exact .inl (by rw [finish_eq])
  case isFalse some => exact .inr ⟨rfl, fun none => some (List.isEmpty_iff.2 none), rfl⟩

/-- The wait for tones takes no time and does not fire the token. -/
theorem sameMoment_join (s : Stage σ) (p : Player) : s.SameMoment True (p.join s).1 := by
  have counted : s.SameMoment True (p.collect s).1 :=
    ⟨Stage.now_tellAll _ _, fun _ => Stage.cancelled_tellAll _ _⟩
  rw [join_eq]
  split
  · exact counted.trans (sameMoment_finish _ _)
  · exact counted

/-- Neither do tones. -/
theorem sameMoment_sound (s : Stage σ) (track : Nat) (voices : List Voice) :
    s.SameMoment True (sound s track voices).1 :=
  ⟨by simp [sound], fun _ => by simp [sound]⟩

theorem sameMoment_soundOlder (s : Stage σ) (p : Player) :
    s.SameMoment True (p.soundOlder s).1 := sameMoment_sound s p.index p.older

theorem sameMoment_soundBoth (s : Stage σ) (p : Player) : s.SameMoment True (p.soundBoth s).1 :=
  (sameMoment_soundOlder s p).trans
    (sameMoment_sound (p.soundOlder s).1 (p.soundOlder s).2.index (p.soundOlder s).2.fresh)

theorem sameMoment_soundAll (s : Stage σ) (p : Player) : s.SameMoment True (p.soundAll s).1 := by
  have sounded := sameMoment_soundBoth s p
  rw [soundAll_eq]
  split
  · exact sounded.trans (sameMoment_join _ _)
  · exact sounded

/-- What a player does takes no time. -/
theorem sameMoment_play (setup : Setup σ) (s : Stage σ) (p : Player) :
    s.SameMoment setup.renderer.LeavesToken (p.play setup.config setup.renderer s).1 := by
  have goes := @goes_play _ setup.config setup.renderer s p
  obtain ⟨new, during⟩ := goes.during
  exact ⟨during.now, fun leaves => goes.cancelled leaves⟩

/-- The tones that are left sleep. -/
theorem sleeps_of_mem_sound {track : Nat} {voices : List Voice} {v : Voice}
    (hv : v ∈ (sound s track voices).2.2) : v.tone.Sleeps s.now s.cancelled := by
  obtain ⟨polled, rings⟩ := List.mem_filter.1 hv
  simp only [List.map_map, List.mem_map, Function.comp_apply] at polled
  obtain ⟨u, -, rfl⟩ := polled
  exact Tone.sleeps_poll _ _ _ (Option.isNone_iff_eq_none.1 rings)

/-- The tones that ring after a join rang before. -/
theorem ringing_join (s : Stage σ) (p : Player) : (p.join s).2.ringing = p.ringing := by
  rw [join_eq]
  split
  · rw [finish_eq]
    rfl
  · rfl

/-- When a player has heard of all its tones, those that are left sleep; a player that
joins them has some left. -/
theorem soundAll_spec (s : Stage σ) (p : Player) :
    ((p.soundAll s).2.phase = p.phase ∨
        p.phase = .joining ∧ (p.soundAll s).2.phase = .finished) ∧
      ((p.soundAll s).2.phase = .joining →
        (p.soundAll s).2.ringing ≠ [] ∧ (p.soundAll s).2.settled = []) ∧
      ∀ v ∈ (p.soundAll s).2.ringing, v.tone.Sleeps s.now s.cancelled := by
  have older := sameMoment_soundOlder s p
  -- the newer tones are heard on the stage that the older ones leave, in the same moment
  have tones : ∀ v ∈ (p.soundBoth s).2.ringing, v.tone.Sleeps s.now s.cancelled := by
    intro v hv
    rcases List.mem_append.1 hv with first | second
    · have left : v ∈ (sound s p.index p.older).2.2 := first
      exact sleeps_of_mem_sound left
    · have left : v ∈ (sound (p.soundOlder s).1 p.index p.fresh).2.2 := second
      have := sleeps_of_mem_sound left
      rwa [older.now, older.cancelled trivial] at this
  rw [soundAll_eq]
  split
  case isTrue joining =>
    rw [ringing_join]
    rcases phase_join (p.soundBoth s).1 (p.soundBoth s).2 with ended | ⟨left, rest⟩
    · refine ⟨.inr ⟨joining, ended⟩, fun left => ?_, tones⟩
      rw [ended] at left
      cases left
    · rw [ringing_join] at rest
      exact ⟨.inl (left.trans joining.symm), fun _ => rest, tones⟩
  case isFalse going => exact ⟨.inl rfl, fun joining => absurd joining going, tones⟩

/-- A player that does not wait for its turn had it. -/
theorem hasPlayed_of_ne {setup : Setup σ} (started : p.phase ≠ .ready)
    (h : ∀ w, p.phase ≠ .throttled w) : p.HasPlayed setup s :=
  ⟨started, fun _ w hw => absurd hw (h w), fun _ w hw => absurd hw (h w)⟩

theorem hasPlayed_join (setup : Setup σ) (s : Stage σ) (p : Player) :
    (p.join s).2.HasPlayed setup (p.join s).1 := by
  rcases phase_join s p with ended | ⟨joining, -⟩
  · exact hasPlayed_of_ne (by rw [ended]; nofun) fun w => by rw [ended]; nofun
  · exact hasPlayed_of_ne (by rw [joining]; nofun) fun w => by rw [joining]; nofun

theorem hasPlayed_crash (setup : Setup σ) (s : Stage σ) (p : Player) :
    (p.crash s).2.HasPlayed setup (p.crash s).1 := hasPlayed_of_ne nofun nofun

/-- A player leaves off when it had its turn.  It goes to wait with the token not fired, and for
a tick. -/
theorem scheduling_hasPlayed (setup : Setup σ) :
    Scheduling setup.config setup.renderer (fun _ _ => True) fun s p => p.HasPlayed setup s where
  collect _ := trivial
  call _ _ _ _ _ _ _ := trivial
  advance _ _ _ := trivial
  wait _ := trivial
  pause := by
    intro s p _ unfired
    refine ⟨by rintro ⟨⟩, fun _ _ _ => unfired, ?_⟩
    rintro long w ⟨⟩
    exact Nat.lt_of_lt_of_le (Nat.lt_add_of_pos_right long) (le_tick _)
  join _ := hasPlayed_join ..
  stop _ := hasPlayed_join ..
  crash _ := hasPlayed_crash ..

/-- A player had its turn when it went on with scheduling, or did not since it is not time to. -/
theorem hasPlayed_play (setup : Setup σ) (s : Stage σ) (p : Player) :
    (p.play setup.config setup.renderer s).2.HasPlayed setup
      (p.play setup.config setup.renderer s).1 := by
  refine (scheduling_hasPlayed setup).play (fun _ => trivial) (fun _ _ => ⟨trivial, trivial⟩) ?_
  intro idle
  exact ⟨idle.started, fun _ w waiting => (idle.throttled w waiting).1,
    fun _ w waiting => (idle.throttled w waiting).2⟩

/-- With its tones heard, a player did all that it could. -/
theorem HasPlayed.soundAll {setup : Setup σ} (h : p.HasPlayed setup s) :
    (p.soundAll s).2.IsPlayed setup (p.soundAll s).1 := by
  have same := sameMoment_soundAll s p
  obtain ⟨phase, joining, tones⟩ := soundAll_spec s p
  have waits (w : Nat) (hw : (p.soundAll s).2.phase = .throttled w) : p.phase = .throttled w := by
    rcases phase with eq | ⟨-, ended⟩
    · exact eq.symm.trans hw
    · rw [ended] at hw
      cases hw
  have started : (p.soundAll s).2.phase ≠ .ready := by
    rcases phase with eq | ⟨-, ended⟩
    · rw [eq]
      exact h.started
    · rw [ended]
      nofun
  refine ⟨⟨started, fun leaves w hw => ?_, fun long w hw => ?_⟩, joining, ?_⟩
  · rw [same.cancelled trivial]
    exact h.uncut leaves w (waits w hw)
  · rw [same.now]
    exact h.ahead long w (waits w hw)
  · rw [same.now, same.cancelled trivial]
    exact tones

end Player

namespace Performance

/-- What each player makes of a visit, given what holds of the stage all the time. -/
theorem visit_spec (stays : Stage σ → Prop) (before after : Player → Prop)
    {act : Stage σ → Player → Stage σ × Player}
    (h : ∀ s q, stays s → before q → stays (act s q).1 ∧ after (act s q).2)
    {s : Stage σ} (hs : stays s) {ps : List Player} (hp : ∀ q ∈ ps, before q) :
    stays (visit act s ps).1 ∧ ∀ q ∈ (visit act s ps).2, after q := by
  induction ps generalizing s with
  | nil => exact ⟨hs, nofun⟩
  | cons p ps ih =>
      obtain ⟨stays, first⟩ := h s p hs (hp p List.mem_cons_self)
      obtain ⟨stays, others⟩ := ih stays fun q hq => hp q (List.mem_cons_of_mem p hq)
      exact ⟨stays, List.forall_mem_cons.2 ⟨first, others⟩⟩

/-- A visit in which no player takes time takes none. -/
theorem sameMoment_visit {act : Stage σ → Player → Stage σ × Player} {quiet : Prop}
    (h : ∀ (s : Stage σ) q, s.SameMoment quiet (act s q).1) (s : Stage σ) (ps : List Player) :
    s.SameMoment quiet (visit act s ps).1 := by
  have visited : s.SameMoment quiet (visit act s ps).1 ∧ ∀ q ∈ (visit act s ps).2, True :=
    visit_spec (s.SameMoment quiet) (fun _ => True) (fun _ => True)
      (fun s' q here _ => ⟨here.trans (h s' q), trivial⟩) .refl fun _ _ => trivial
  exact visited.1

/-- The visits of a round take no time, and do not fire the token unless a call does. -/
theorem sameMoment_proceed (p : Performance σ) :
    p.stage.SameMoment p.setup.renderer.LeavesToken p.proceed.stage := by
  let older := visit (fun s q => q.soundOlder s) p.stage p.players
  let played := visit (fun s q => q.play p.setup.config p.setup.renderer s) older.1 older.2
  have first : p.stage.SameMoment True older.1 :=
    sameMoment_visit (fun s q => q.sameMoment_soundOlder s) _ _
  have second : older.1.SameMoment p.setup.renderer.LeavesToken played.1 :=
    sameMoment_visit (fun s q => q.sameMoment_play p.setup s) _ _
  have third : played.1.SameMoment True p.proceed.stage :=
    sameMoment_visit (fun s q => q.sameMoment_soundAll s) _ _
  exact (first.of_true.trans second).trans third.of_true

/-- The visits of a round have each player do all that it can. -/
theorem isPlayed_proceed (p : Performance σ) :
    ∀ q ∈ p.proceed.players, q.IsPlayed p.setup p.proceed.stage := by
  let older := visit (fun s q => q.soundOlder s) p.stage p.players
  let played := visit (fun s q => q.play p.setup.config p.setup.renderer s) older.1 older.2
  -- what a player did in its turn holds from the start of a visit to its end
  obtain ⟨turns, players⟩ : older.1.SameMoment p.setup.renderer.LeavesToken played.1 ∧
      ∀ q ∈ played.2, q.HasPlayed p.setup older.1 := by
    refine visit_spec _ (fun _ => True) _ ?_ .refl fun _ _ => trivial
    intro s q here _
    have turn := here.trans (q.sameMoment_play p.setup s)
    exact ⟨turn, (q.hasPlayed_play p.setup s).of_sameMoment turn.symm⟩
  obtain ⟨tones, all⟩ : played.1.SameMoment True p.proceed.stage ∧
      ∀ q ∈ p.proceed.players, q.IsPlayed p.setup played.1 := by
    refine visit_spec _ _ _ ?_ .refl fun q hq => (players q hq).of_sameMoment turns
    intro s q here had
    have heard := here.trans (q.sameMoment_soundAll s)
    exact ⟨heard, (had.of_sameMoment here.of_true).soundAll.of_sameMoment heard.symm⟩
  exact fun q hq => (all q hq).of_sameMoment tones

/-! ### Between two rounds -/

/-- All that could be done in the present instant was done. -/
structure IsPlayed (p : Performance σ) : Prop where
  players : ∀ q ∈ p.players, q.IsPlayed p.setup p.stage
  interventions : ∀ d ∈ p.interventions, p.stage.now < d.1

/-- Interventions do not bring about others. -/
theorem interventions_foldl_undergo (due : List (Nat × Intervention)) (p : Performance σ) :
    (due.foldl (fun p d => p.undergo d.2) p).interventions = p.interventions := by
  induction due generalizing p with
  | nil => rfl
  | cons d due ih =>
      rw [List.foldl_cons, ih]
      cases d.2 <;> rfl

theorem interventions_conclude (p : Performance σ) :
    p.conclude.interventions = p.interventions := by
  rw [conclude]
  split <;> rfl

theorem dropped_conclude (p : Performance σ) : p.conclude.dropped = p.dropped := by
  rw [conclude]
  split <;> rfl

/-- The interventions that are not due are left by a round. -/
theorem interventions_round (p : Performance σ) :
    p.round.interventions = p.interventions.filter (p.stage.now < ·.1) := by
  have intervened : p.intervene.interventions = p.interventions.filter (p.stage.now < ·.1) :=
    interventions_foldl_undergo _ _
  rw [round]
  split
  · exact intervened
  · rw [interventions_conclude]
    exact intervened

/-- A performance is given up by an intervention. -/
theorem dropped_round (p : Performance σ) : p.round.dropped = p.intervene.dropped := by
  rw [round]
  split
  · rfl
  · exact dropped_conclude _

/-- A round does all that can be done, unless the performance is given up. -/
theorem isPlayed_round (p : Performance σ) (going : ¬ p.round.dropped = true) :
    p.round.IsPlayed := by
  rw [dropped_round] at going
  have same : p.intervene.proceed.stage.SameMoment True p.intervene.proceed.conclude.stage :=
    ⟨(during_conclude _).now, fun _ => by simpa using (during_conclude _).cancelled⟩
  refine ⟨?_, ?_⟩
  · rw [round, if_neg going, players_conclude, setup_conclude]
    exact fun q hq => (isPlayed_proceed p.intervene q hq).of_sameMoment same
  · rw [interventions_round, now_round]
    exact fun d hd => of_decide_eq_true (List.mem_filter.1 hd).2

theorem setup_goOn (p : Performance σ) : p.goOn.setup = p.setup := by
  rcases goOn_cases p with same | ⟨t, -, eq⟩
  · rw [same]
  · rw [eq, setup_round, jumpTo]

/-- A performance is over, or did all that could be done. -/
theorem isPlayed_run (setup : Setup σ) (sheet : Sheet) (n : Nat) :
    ((ofSheet setup sheet).start.run n).setup = setup ∧
      (((ofSheet setup sheet).start.run n).isOver = true ∨
        ((ofSheet setup sheet).start.run n).IsPlayed) := by
  have played (p : Performance σ) : p.round.isOver = true ∨ p.round.IsPlayed := by
    by_cases dropped : p.round.dropped = true
    · exact .inl (isOver_of_dropped dropped)
    · exact .inr (isPlayed_round p dropped)
  induction n with
  | zero =>
      show (ofSheet setup sheet).start.setup = setup ∧
        ((ofSheet setup sheet).start.isOver = true ∨ (ofSheet setup sheet).start.IsPlayed)
      rw [start]
      by_cases complete : (ofSheet setup sheet).isComplete = true
      · rw [if_pos complete]
        exact ⟨setup_conclude _, .inl (isOver_conclude complete)⟩
      · rw [if_neg complete]
        exact ⟨setup_round _, played _⟩
  | succ n ih =>
      rw [run_succ]
      refine ⟨(setup_goOn _).trans ih.1, ?_⟩
      rcases goOn_cases ((ofSheet setup sheet).start.run n) with same | ⟨t, -, eq⟩
      · rw [same]
        exact ih.2
      · rw [eq]
        exact played _

variable {p : Performance σ}

/-- A turn that a player waits for is due. -/
theorem mem_dueTimes_of_throttled {q : Player} (hq : q ∈ p.players) {w : Nat}
    (waiting : q.phase = .throttled w) : w ∈ p.dueTimes :=
  List.mem_append_right _ (List.mem_flatMap.2 ⟨q, hq, Player.mem_wakes_of_throttled waiting⟩)

/-- In a performance that is over, and not given up, all players are. -/
theorem isOver_of_mem (ended : p.isOver = true) (kept : p.dropped = false) :
    ∀ q ∈ p.players, q.isOver = true := by
  rw [isOver, kept, Bool.false_or] at ended
  exact List.all_eq_true.1 ended

/-- What has come of a performance has come of one that is over. -/
theorem isOver_of_result? {r : Result} (result : p.result? = some r) :
    p.isOver = true ∧ r.report = (if p.dropped then none else some p.report) ∧
      r.calls = p.stage.calls.reverse := by
  rw [result?] at result
  split at result
  case isFalse => cases result
  case isTrue ended =>
    cases result
    exact ⟨ended, rfl, rfl⟩

/-- A performance that is complete, and was not given up, is reported. -/
theorem result?_of_isComplete (complete : p.isComplete = true) (kept : p.dropped = false) :
    p.result? = some
      { report := some p.report
        elapsed := p.stage.now
        calls := p.stage.calls.reverse
        events := p.stage.events.reverse } := by
  rw [result?, if_pos (isOver_of_isComplete complete), kept, if_neg Bool.false_ne_true]

/-- No other performance is. -/
theorem isComplete_of_reported {r : Result} {report : Report} (result : p.result? = some r)
    (reported : r.report = some report) :
    p.isComplete = true ∧ p.dropped = false ∧ report = p.report := by
  obtain ⟨ended, eq, -⟩ := isOver_of_result? result
  rw [eq] at reported
  split at reported
  case isTrue => cases reported
  case isFalse kept =>
    rw [isOver, Bool.or_eq_true] at ended
    exact ⟨ended.resolve_left kept, Bool.eq_false_iff.2 kept, (Option.some.inj reported).symm⟩

/-- As long as a player waits for its turn, a performance is not over unless it is given up. -/
theorem not_isOver_of_throttled (kept : p.dropped = false) {q : Player} (hq : q ∈ p.players)
    {w : Nat} (waiting : q.phase = .throttled w) : ¬ p.isOver = true := by
  intro ended
  rcases Player.isOver_iff.1 (isOver_of_mem ended kept q hq) with phase | phase
  · rw [waiting] at phase
    cases phase
  · rw [waiting] at phase
    cases phase

/-- What is due, is due later, if players wait for their turns until later. -/
theorem IsPlayed.ahead_of_waits (h : p.IsPlayed)
    (waits : ∀ q ∈ p.players, ∀ w, q.phase = .throttled w → p.stage.now < w) :
    ∀ t ∈ p.dueTimes, p.stage.now < t := by
  intro t ht
  rcases List.mem_append.1 ht with intervention | wake
  · obtain ⟨d, hd, rfl⟩ := List.mem_map.1 intervention
    exact h.interventions d hd
  · obtain ⟨q, hq, wake⟩ := List.mem_flatMap.1 wake
    rcases Player.mem_wakes wake with waiting | ⟨v, hv, wake⟩
    · exact waits q hq t waiting
    · exact ((h.players q hq).tones v hv).ahead t wake

/-- And so they do if ticks take time. -/
theorem IsPlayed.ahead (h : p.IsPlayed) (long : 0 < p.setup.config.throttleTick) :
    ∀ t ∈ p.dueTimes, p.stage.now < t :=
  h.ahead_of_waits fun q hq => (h.players q hq).ahead long

/-- No player is woken by the token, if calls leave it alone or it is not fired. -/
theorem IsPlayed.next?_of_quiet (h : p.IsPlayed)
    (quiet : p.stage.cancelled = false ∨ p.setup.renderer.LeavesToken) :
    p.next? = p.dueTimes.min?.filter (p.stage.now < ·) := by
  have uncut : ¬ (p.stage.cancelled && p.players.any (·.isThrottled)) = true := by
    intro cut
    obtain ⟨fired, throttled⟩ := Bool.and_eq_true_iff.1 cut
    have leaves := quiet.resolve_left fun unfired => by rw [unfired] at fired; cases fired
    obtain ⟨q, hq, waits⟩ := List.any_eq_true.1 throttled
    rw [Player.isThrottled] at waits
    split at waits
    case h_1 w waiting =>
      rw [(h.players q hq).uncut leaves w waiting] at fired
      cases fired
    case h_2 => cases waits
  rw [next?, if_neg uncut]

/-- So the next instant is the first at which something is due. -/
theorem IsPlayed.next?_eq (h : p.IsPlayed) (long : 0 < p.setup.config.throttleTick)
    (quiet : p.stage.cancelled = false ∨ p.setup.renderer.LeavesToken) :
    p.next? = p.dueTimes.min? := by
  rw [h.next?_of_quiet quiet]
  cases first : p.dueTimes.min? with
  | none => rfl
  | some t =>
      have later : p.stage.now < t := h.ahead long t (List.min?_mem first)
      rw [Option.filter_some, if_pos (decide_eq_true later)]

end Performance

end SongSheet.Playback
