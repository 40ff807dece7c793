/-
SongSheet/Proofs/Playback/Logging.lean

What becomes of a request that is only logged.

The tone of such a request waits for its start and then for its stop (`Tone.Logs`), and is
cut from either wait.  So at any instant a player has a tone left for each of its requests
whose stop is ahead, and what ended has completed (`Player.Logs`).  Outcomes are out of the
hands of an ensemble, where tones may end in any way; this is about the functions that make
up a round.  What one player keeps in all of them, and others cannot break, holds in every
performance (`PlayerInvariant.of_run`).
-/
import SongSheet.Proofs.Playback.Solo

namespace SongSheet.Playback

open Clock

variable {σ : Type}

/-! ### Later stages -/

namespace Stage

/-- A track asks for nothing more; time may pass, and the token may be fired. -/
structure Later (i : Nat) (s s' : Stage σ) : Prop where
  times : s'.timesOf i = s.timesOf i
  now : s.now ≤ s'.now
  cancelled : s.cancelled = true → s'.cancelled = true

variable {i : Nat} {s s' : Stage σ}

theorem Later.refl : s.Later i s := ⟨rfl, Nat.le_refl _, id⟩

theorem Alike.later (h : s.Alike i i s') : s.Later i s' :=
  ⟨h.times, Nat.le_of_eq h.now.symm, h.cancelled.trans⟩

/-- Nobody calls. -/
theorem later_of_calls (calls : s'.calls = s.calls) (now : s.now ≤ s'.now)
    (cancelled : s.cancelled = true → s'.cancelled = true) (i : Nat) : s.Later i s' := by
  refine ⟨?_, now, cancelled⟩
  rw [timesOf, timesOf, callsOf, callsOf, calls]

theorem Meanwhile.later (h : s.Meanwhile s') (i : Nat) : s.Later i s' :=
  later_of_calls h.calls h.now_le h.cancelled i

theorem later_tell (s : Stage σ) (e : Event) (i : Nat) : s.Later i (s.tell e) :=
  (s.meanwhile_tellAll [e]).later i

/-- What a track asked for is what it asked for at some time. -/
theorem requestsOf_eq (s : Stage σ) (i : Nat) : s.requestsOf i = (s.timesOf i).map (·.2) := by
  rw [requestsOf, timesOf, List.map_map]
  rfl

theorem Later.requestsOf (h : s.Later i s') : s'.requestsOf i = s.requestsOf i := by
  rw [requestsOf_eq, requestsOf_eq, h.times]

end Stage

/-! ### Properties of one player -/

/-- A property of a player and of the stage that the player keeps in all that it does in a
round, and that is kept while it waits. -/
structure PlayerInvariant (setup : Setup σ) (P : Stage σ → Player → Prop) : Prop where
  initial : ∀ {i t s}, s.timesOf i = [] → P s (.ofTrack i t)
  older : ∀ {s p}, P s p → P (p.soundOlder s).1 (p.soundOlder s).2
  play : ∀ {s p}, P s p →
    P (p.play setup.config setup.renderer s).1 (p.play setup.config setup.renderer s).2
  all : ∀ {s p}, P s p → P (p.soundAll s).1 (p.soundAll s).2
  later : ∀ {s s' p}, s.Later p.index s' → P s p → P s' p

namespace PlayerInvariant

open Performance

variable {setup : Setup σ} {P : Stage σ → Player → Prop} {s s' : Stage σ} {ps : List Player}

/-- The players bear their places as numbers, and have a property each. -/
def All (P : Stage σ → Player → Prop) (s : Stage σ) (ps : List Player) : Prop :=
  ∀ (i : Nat) (q : Player), ps[i]? = some q → q.index = i ∧ P s q

theorem all_later (inv : PlayerInvariant setup P) (later : ∀ i, s.Later i s')
    (all : All P s ps) : All P s' ps := fun i q found =>
  ⟨(all i q found).1, inv.later (later _) (all i q found).2⟩

/-- What each player keeps is kept in a visit. -/
theorem all_visit (inv : PlayerInvariant setup P) {act : Stage σ → Player → Stage σ × Player}
    (separate : Separate act) (keeps : ∀ s p, P s p → P (act s p).1 (act s p).2)
    (all : All P s ps) : All P (visit act s ps).1 (visit act s ps).2 := by
  intro i q found
  have inside : i < ps.length := by
    rw [← length_visit act s ps]
    exact (List.getElem?_eq_some_iff.1 found).1
  have before : ps[i]? = some ps[i] := List.getElem?_eq_getElem inside
  have part := isPart_of_getElem? before fun k q found => (all k q found).1
  -- the player meets a stage on which its own part is the same as before the visit
  obtain ⟨s₁, first, part', last⟩ := part.visit separate s
  obtain rfl : (act s₁ ps[i]).2 = q := Option.some.inj (part'.getElem?.symm.trans found)
  have here : P s₁ ps[i] := by
    refine inv.later ?_ (all i ps[i] before).2
    rw [part.index]
    exact first.later
  refine ⟨part'.index, inv.later ?_ (keeps s₁ ps[i] here)⟩
  rw [part'.index]
  exact last.later

variable {p : Performance σ}

/-- What each player keeps is kept in a round. -/
theorem all_round (inv : PlayerInvariant setup P) (leaves : setup.renderer.LeavesToken)
    (same : p.setup = setup) (all : All P p.stage p.players) :
    All P p.round.stage p.round.players := by
  obtain ⟨players, setup', meanwhile⟩ := intervene_spec p
  have intervened : All P p.intervene.stage p.intervene.players := by
    rw [players]
    exact inv.all_later meanwhile.later all
  rw [Performance.round]
  split
  · exact intervened
  · obtain rfl : p.intervene.setup = setup := setup'.trans same
    obtain ⟨older, play, sound⟩ := separate_round leaves
    have heard := inv.all_visit older (fun _ _ => inv.older) intervened
    have played := inv.all_visit play (fun _ _ => inv.play) heard
    have atEnd := inv.all_visit sound (fun _ _ => inv.all) played
    rw [players_conclude]
    exact inv.all_later (fun i => (alike_conclude p.intervene.proceed i).later) atEnd

/-- What each player keeps holds in a performance at all times. -/
theorem of_run (inv : PlayerInvariant setup P) (leaves : setup.renderer.LeavesToken)
    (sheet : Sheet) (n : Nat) :
    All P ((ofSheet setup sheet).start.run n).stage
      ((ofSheet setup sheet).start.run n).players := by
  induction n with
  | zero =>
      show All P (ofSheet setup sheet).start.stage (ofSheet setup sheet).start.players
      have first : All P (ofSheet setup sheet).stage (ofSheet setup sheet).players := by
        intro i q found
        rw [ofSheet, List.getElem?_mapIdx] at found
        obtain ⟨t, -, rfl⟩ := Option.map_eq_some_iff.1 found
        exact ⟨rfl, inv.initial rfl⟩
      rw [start]
      split
      · rw [players_conclude]
        exact inv.all_later (fun i => (alike_conclude _ i).later) first
      · exact inv.all_round leaves rfl first
  | succ n ih =>
      have same := (isPlayed_run setup sheet n).1
      rw [run_succ]
      generalize (ofSheet setup sheet).start.run n = p at *
      rcases goOn_cases p with still | ⟨t, next, eq⟩
      · rw [still]
        exact ih
      · rw [eq]
        have onward : p.stage.now ≤ (p.jumpTo t).stage.now := now_le_of_next? (p := p) next
        have jumped : All P (p.jumpTo t).stage p.players :=
          inv.all_later (Stage.later_of_calls (s := p.stage) rfl onward id) ih
        exact inv.all_round leaves (p := p.jumpTo t) same jumped

end PlayerInvariant

/-! ### Tones -/

namespace Tone

/-- What is left of a request that is logged, once it is heard. -/
def sounding (r : Request) : Tone :=
  wait r.stop (ended .completed) fun _ => say (.stoppedEarly r.frequency) (ended .completed)

/-- What is left of a request that is logged, before its start or before its stop. -/
def Logs (r : Request) (t : Tone) : Prop := t = logging r ∨ t = sounding r

variable {r : Request} {t : Tone}

/-- It waits, for its start or for its stop. -/
theorem Logs.waits (h : t.Logs r) : t.outcome? = none ∧
    ∃ w, t.wake? = some w ∧ (w = tick r.start ∨ w = tick r.stop) := by
  rcases h with rfl | rfl
  · exact ⟨rfl, tick r.start, rfl, .inl rfl⟩
  · exact ⟨rfl, tick r.stop, rfl, .inr rfl⟩

/-- It does not sleep when the token is fired. -/
theorem Logs.unfired (h : t.Logs r) {now : Nat} {cancelled : Bool}
    (asleep : t.Sleeps now cancelled) : cancelled = false := by
  rcases h with rfl | rfl
  · exact asleep.waits
  · exact asleep.waits

theorem poll_sounding (r : Request) (now : Nat) :
    ((sounding r).poll now false).2 =
      if tick r.stop ≤ now then ended .completed else sounding r := by
  rw [sounding, poll, if_neg Bool.false_ne_true]
  split
  · rw [poll_ended]
  · rfl

theorem logging_eq (r : Request) :
    logging r = wait r.start (if r.isRest then sounding r else say (.sounds r) (sounding r))
      fun _ => say (.cancelledBeforeStart r.frequency) (ended .completed) := rfl

theorem poll_say (said : Remark) (next : Tone) (now : Nat) (cancelled : Bool) :
    ((say said next).poll now cancelled).2 = (next.poll now cancelled).2 := by
  rw [poll]

theorem poll_logging (r : Request) (now : Nat) :
    ((logging r).poll now false).2 =
      if tick r.start ≤ now then ((sounding r).poll now false).2 else logging r := by
  rw [logging_eq, poll, if_neg Bool.false_ne_true]
  by_cases due : tick r.start ≤ now
  · rw [if_pos due, if_pos due]
    split
    · rfl
    · rw [poll_say]
  · rw [if_neg due, if_neg due]

/-- When it was polled, it is over if it was cut or its stop is reached, and is the tone of the
request otherwise. -/
theorem Logs.poll (h : t.Logs r) (now : Nat) (cancelled : Bool) :
    ((t.poll now cancelled).2 = ended .completed ∧ (cancelled = true ∨ tick r.stop ≤ now)) ∨
      (t.poll now cancelled).2.Logs r := by
  cases cancelled with
  | true =>
      refine .inl ⟨?_, .inl rfl⟩
      rcases h with rfl | rfl
      · rfl
      · rfl
  | false =>
      have heard : (((sounding r).poll now false).2 = ended .completed ∧ tick r.stop ≤ now) ∨
          ((sounding r).poll now false).2 = sounding r := by
        rw [poll_sounding]
        by_cases due : tick r.stop ≤ now
        · exact .inl ⟨if_pos due, due⟩
        · exact .inr (if_neg due)
      rcases h with rfl | rfl
      · rw [poll_logging]
        split
        · exact heard.imp (fun atEnd => ⟨atEnd.1, .inr atEnd.2⟩) .inr
        · exact .inr (.inl rfl)
      · exact heard.imp (fun atEnd => ⟨atEnd.1, .inr atEnd.2⟩) .inr

end Tone

/-! ### Players -/

namespace Player

/-- Nothing that a player asked for is lost or fails. -/
structure Logs (s : Stage Unit) (p : Player) : Prop where
  /-- It asked at or before the present instant. -/
  past : ∀ x ∈ s.timesOf p.index, x.1 ≤ s.now
  /-- Its tones are those of its requests. -/
  tones : ∀ v ∈ p.ringing, ∃ r ∈ s.requestsOf p.index, v.tone.Logs r
  /-- Unless the token is fired, a request has a tone left until its stop. -/
  lasting : s.cancelled = false → p.phase ≠ .crashed → ∀ r ∈ s.requestsOf p.index,
    tick r.stop ≤ s.now ∨ ∃ v ∈ p.ringing, v.tone.Logs r
  settled : ∀ o ∈ p.settled, o = .completed
  report : p.report.tonesFailed = 0

variable {config : Config} {s s' : Stage Unit} {p p' : Player}

namespace Logs

/-- A change in which no tone ends. -/
theorem keep (h : p.Logs s) (later : s.Later p.index s') (index : p'.index = p.index)
    (ringing : ∀ v, v ∈ p'.ringing ↔ v ∈ p.ringing)
    (phase : p'.phase ≠ .crashed → p.phase ≠ .crashed)
    (settled : ∀ o ∈ p'.settled, o = .completed) (report : p'.report.tonesFailed = 0) :
    p'.Logs s' where
  past x hx := by
    rw [index, later.times] at hx
    exact Nat.le_trans (h.past x hx) later.now
  tones v hv := by
    rw [index, later.requestsOf]
    exact h.tones v ((ringing v).1 hv)
  lasting unfired sound r hr := by
    rw [index, later.requestsOf] at hr
    have before : s.cancelled = false := by
      refine Bool.eq_false_iff.2 fun fired => ?_
      rw [later.cancelled fired] at unfired
      cases unfired
    rcases h.lasting before (phase sound) r hr with past | ⟨v, hv, tone⟩
    · exact .inl (Nat.le_trans past later.now)
    · exact .inr ⟨v, (ringing v).2 hv, tone⟩
  settled := settled
  report := report

theorem later (h : p.Logs s) (later : s.Later p.index s') : p.Logs s' :=
  h.keep later rfl (fun _ => Iff.rfl) id h.settled h.report

theorem tell (h : p.Logs s) (e : Event) : p.Logs (s.tell e) := h.later (s.later_tell e _)

theorem tonesFailed_foldl_count {os : List Outcome} (all : ∀ o ∈ os, o = .completed)
    (r : TrackReport) : (os.foldl TrackReport.count r).tonesFailed = r.tonesFailed := by
  induction os generalizing r with
  | nil => rfl
  | cons o os ih =>
      obtain ⟨rfl, later⟩ := List.forall_mem_cons.1 all
      exact ih later (r.count .completed)

theorem collect (h : p.Logs s) : (p.collect s).2.Logs (p.collect s).1 := by
  refine h.keep ((s.meanwhile_tellAll _).later _) rfl (fun _ => Iff.rfl) id nofun ?_
  exact (tonesFailed_foldl_count h.settled p.report).trans h.report

theorem finish (h : p.Logs s) (sound : p.phase ≠ .crashed) :
    (p.finish s).2.Logs (p.finish s).1 := by
  rw [finish_eq]
  exact h.keep ((s.meanwhile_tellAll _).later _) rfl (fun _ => Iff.rfl) (fun _ => sound) h.settled
    h.report

theorem join (h : p.Logs s) (sound : p.phase ≠ .crashed) : (p.join s).2.Logs (p.join s).1 := by
  rw [join_eq]
  split
  · exact h.collect.finish sound
  · exact h.collect.keep .refl rfl (fun _ => Iff.rfl) (fun _ => sound) h.collect.settled
      h.collect.report

theorem stop (h : p.Logs s) (sound : p.phase ≠ .crashed) : (p.stop s).2.Logs (p.stop s).1 := by
  refine join ?_ sound
  exact h.keep (s.later_tell _ _) rfl (fun _ => Iff.rfl) id h.settled h.report

theorem crash (h : p.Logs s) : (p.crash s).2.Logs (p.crash s).1 where
  past := (h.tell _).past
  tones := nofun
  lasting _ sound := absurd rfl sound
  settled := nofun
  report := rfl

/-- A call, and the tone that comes of it. -/
theorem call (h : p.Logs s) {r : Request} {t : Option Tone}
    (called : s.call .logging p.index r = (s', t)) : (p.receive t).Logs s' := by
  obtain rfl : some (.logging r) = t := congrArg Prod.snd called
  have times := Stage.timesOf_call called
  have requests : s'.requestsOf p.index = s.requestsOf p.index ++ [r] := by
    rw [Stage.requestsOf_eq, times, List.map_append, ← Stage.requestsOf_eq]
    rfl
  obtain ⟨-, -, -, -, -, now, -⟩ := Stage.call_spec called
  have leaves : Renderer.logging.LeavesToken := fun _ _ _ => rfl
  have cancelled := leaves.call called
  have ringing (v : Voice) : v ∈ p.older ++ ⟨p.called, .logging r⟩ :: p.fresh ↔
      v = ⟨p.called, .logging r⟩ ∨ v ∈ p.ringing := by
    rw [ringing, List.mem_append, List.mem_append, List.mem_cons]
    tauto
  refine ⟨fun x hx => ?_, fun v hv => ?_, fun unfired sound r' hr => ?_, h.settled, h.report⟩
  · rw [now]
    rw [receive, times] at hx
    rcases List.mem_append.1 hx with old | new
    · exact h.past x old
    · rw [List.mem_singleton.1 new]
  · show ∃ r' ∈ s'.requestsOf p.index, v.tone.Logs r'
    rw [requests]
    rcases (ringing v).1 hv with rfl | old
    · exact ⟨r, List.mem_append_right _ (List.mem_singleton_self r), .inl rfl⟩
    · obtain ⟨r', hr, tone⟩ := h.tones v old
      exact ⟨r', List.mem_append_left _ hr, tone⟩
  · rw [cancelled] at unfired
    rw [now]
    have hr : r' ∈ s.requestsOf p.index ++ [r] := requests ▸ hr
    rcases List.mem_append.1 hr with old | new
    · refine (h.lasting unfired sound r' old).imp_right ?_
      rintro ⟨v, hv, tone⟩
      exact ⟨v, (ringing v).2 (.inr hv), tone⟩
    · obtain rfl := List.mem_singleton.1 new
      exact .inr ⟨_, (ringing _).2 (.inl rfl), .inl rfl⟩

/-- It is kept while the player schedules. -/
theorem scheduling (config : Config) :
    Scheduling config .logging (fun s p => p.Logs s ∧ p.phase ≠ .crashed) fun s p => p.Logs s where
  collect h := ⟨h.1.collect, h.2⟩
  call h _ _ _ _ _ called := ⟨h.1.call called, by rw [phase_receive]; exact h.2⟩
  advance h _ _ :=
    ⟨h.1.keep .refl rfl (fun _ => Iff.rfl) id h.1.settled h.1.report, h.2⟩
  wait h := ⟨h.1.tell _, h.2⟩
  pause h _ := h.1.keep .refl rfl (fun _ => Iff.rfl) (fun _ => h.2) h.1.settled h.1.report
  join h := h.1.join h.2
  stop h := h.1.stop h.2
  crash h := h.1.crash

theorem play (h : p.Logs s) :
    (p.play config .logging s).2.Logs (p.play config .logging s).1 := by
  refine (scheduling config).play (fun ready => ⟨h.tell _, by simp [ready]⟩) (fun w waiting => ?_)
    fun _ => h
  have sound : p.phase ≠ .crashed := by simp [waiting]
  have woken : p.regroup.Logs s := by
    refine h.keep .refl rfl (fun v => ?_) id h.settled h.report
    rw [regroup, ringing, ringing, List.append_nil]
  exact ⟨⟨h, sound⟩, woken, sound⟩

end Logs

/-- What is heard of tones that are logged: what ends has completed, and the tone of a request
goes on until its stop. -/
theorem sound_spec (track : Nat) {voices : List Voice}
    (logged : ∀ v ∈ voices, ∃ r, v.tone.Logs r) :
    (∀ o ∈ (sound s track voices).2.1, o = .completed) ∧
      (∀ v ∈ (sound s track voices).2.2, ∃ u ∈ voices, ∀ r, u.tone.Logs r → v.tone.Logs r) ∧
      ∀ u ∈ voices, ∀ r, u.tone.Logs r → s.cancelled = false → tick r.stop ≤ s.now ∨
        ∃ v ∈ (sound s track voices).2.2, v.tone.Logs r := by
  have left {v : Voice} : v ∈ (sound s track voices).2.2 ↔
      (∃ u ∈ voices, (u.poll s.now s.cancelled).2 = v) ∧ v.isRinging = true := by
    rw [sound]
    simp only [List.mem_filter, List.map_map, List.mem_map, Function.comp_apply]
  refine ⟨fun o ho => ?_, fun v hv => ?_, fun u hu r logs unfired => ?_⟩
  · have ended : ∃ u ∈ voices, (u.tone.poll s.now s.cancelled).2.outcome? = some o := by
      rw [sound] at ho
      simp only [List.map_map, List.mem_map, List.mem_filterMap, Function.comp_apply] at ho
      obtain ⟨e, ⟨v, ⟨u, hu, rfl⟩, ending⟩, rfl⟩ := ho
      obtain ⟨o, outcome, rfl⟩ := Option.map_eq_some_iff.1 ending
      exact ⟨u, hu, outcome⟩
    obtain ⟨u, hu, outcome⟩ := ended
    obtain ⟨r, logs⟩ := logged u hu
    rcases logs.poll s.now s.cancelled with ⟨atEnd, -⟩ | waits
    · rw [atEnd] at outcome
      exact (Option.some.inj outcome).symm
    · rw [waits.waits.1] at outcome
      cases outcome
  · obtain ⟨⟨u, hu, rfl⟩, rings⟩ := left.1 hv
    refine ⟨u, hu, fun r logs => ?_⟩
    rcases logs.poll s.now s.cancelled with ⟨atEnd, -⟩ | waits
    · have ended : (u.poll s.now s.cancelled).2.tone.outcome? = some .completed :=
        congrArg Tone.outcome? atEnd
      rw [Voice.isRinging, ended] at rings
      cases rings
    · exact waits
  · rcases logs.poll s.now s.cancelled with ⟨-, fired | past⟩ | waits
    · rw [unfired] at fired
      cases fired
    · exact .inl past
    · refine .inr ⟨(u.poll s.now s.cancelled).2, left.2 ⟨⟨u, hu, rfl⟩, ?_⟩, waits⟩
      exact Option.isNone_iff_eq_none.2 waits.waits.1

namespace Logs

/-- Some of the tones are heard; the others stay as they are. -/
theorem hear (h : p.Logs s) (heard kept : List Voice)
    (both : ∀ v, v ∈ p.ringing ↔ v ∈ heard ∨ v ∈ kept)
    (ringing : ∀ v, v ∈ p'.ringing ↔ v ∈ (sound s p.index heard).2.2 ∨ v ∈ kept)
    (index : p'.index = p.index) (phase : p'.phase = p.phase)
    (settled : p'.settled = p.settled ++ (sound s p.index heard).2.1)
    (report : p'.report = p.report) : p'.Logs (sound s p.index heard).1 := by
  have logged : ∀ v ∈ heard, ∃ r, v.tone.Logs r := fun v hv => by
    obtain ⟨r, -, logs⟩ := h.tones v ((both v).2 (.inl hv))
    exact ⟨r, logs⟩
  obtain ⟨outcomes, left, goesOn⟩ := sound_spec (s := s) p.index logged
  have moment := sameMoment_sound s p.index heard
  have later : s.Later p.index (sound s p.index heard).1 :=
    Stage.later_of_calls (by simp [sound]) (Nat.le_of_eq moment.now.symm)
      (moment.cancelled trivial).trans p.index
  refine ⟨fun x hx => ?_, fun v hv => ?_, fun unfired sound r hr => ?_, fun o ho => ?_, ?_⟩
  · rw [index, later.times] at hx
    exact Nat.le_trans (h.past x hx) later.now
  · rw [index, later.requestsOf]
    rcases (ringing v).1 hv with here | there
    · obtain ⟨u, hu, same⟩ := left v here
      obtain ⟨r, hr, logs⟩ := h.tones u ((both u).2 (.inl hu))
      exact ⟨r, hr, same r logs⟩
    · exact h.tones v ((both v).2 (.inr there))
  · rw [index, later.requestsOf] at hr
    rw [moment.cancelled trivial] at unfired
    rw [moment.now]
    rcases h.lasting unfired (phase ▸ sound) r hr with past | ⟨u, hu, logs⟩
    · exact .inl past
    · rcases (both u).1 hu with here | there
      · rcases goesOn u here r logs unfired with past | ⟨v, hv, logs⟩
        · exact .inl past
        · exact .inr ⟨v, (ringing v).2 (.inl hv), logs⟩
      · exact .inr ⟨u, (ringing u).2 (.inr there), logs⟩
  · rw [settled] at ho
    exact (List.mem_append.1 ho).elim (h.settled o) (outcomes o)
  · rw [report]
    exact h.report

theorem soundOlder (h : p.Logs s) : (p.soundOlder s).2.Logs (p.soundOlder s).1 :=
  h.hear p.older p.fresh (fun _ => List.mem_append) (fun _ => List.mem_append) rfl rfl rfl rfl

theorem soundBoth (h : p.Logs s) : (p.soundBoth s).2.Logs (p.soundBoth s).1 :=
  h.soundOlder.hear p.fresh (p.soundOlder s).2.older (fun _ => List.mem_append.trans or_comm)
    (fun _ => List.mem_append.trans or_comm) rfl rfl rfl rfl

theorem soundAll (h : p.Logs s) : (p.soundAll s).2.Logs (p.soundAll s).1 := by
  rw [soundAll_eq]
  split
  case isTrue joining =>
    have joining : (p.soundBoth s).2.phase = .joining := joining
    exact h.soundBoth.join (by simp [joining])
  case isFalse => exact h.soundBoth

end Logs

end Player

/-- With the logging renderer, nothing that a player asks for is lost or fails. -/
theorem playerInvariant_logs {setup : Setup Unit} (logs : setup.renderer = .logging) :
    PlayerInvariant setup fun s p => p.Logs s where
  initial := by
    intro i t s none
    have requests : s.requestsOf i = [] := by rw [Stage.requestsOf_eq, none]; rfl
    refine ⟨fun x hx => ?_, nofun, fun _ _ r hr => ?_, nofun, rfl⟩
    · rw [show s.timesOf (Player.ofTrack i t).index = [] from none] at hx
      cases hx
    · rw [show s.requestsOf (Player.ofTrack i t).index = [] from requests] at hr
      cases hr
  older h := h.soundOlder
  play h := by
    rw [logs]
    exact h.play
  all h := h.soundAll
  later later h := h.later later

end SongSheet.Playback
