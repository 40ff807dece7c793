/-
SongSheet/Proofs/Playback/Accord.lean

One sheet and two renderers.

What tones do is nothing that scheduling looks at, and so a performance schedules the same
with any reliable renderer.  Again two performances do not go from instant to instant
together: tones end at instants of their own, and then nothing is scheduled
(`agrees_goOn_of_lt`).  What they share are the instants at which somebody intervenes or a
player has its turn (`Performance.turns`).  One of the two may wait at an earlier instant
for the next of them (`Accords`), and catches up with the other one when that comes there
(`Performance.Agrees.exists_round`).  When nothing is left to be scheduled, the performances
may end at different instants, and nothing is asked for any more.
-/
import SongSheet.Proofs.Playback.Outline
import SongSheet.Proofs.Playback.Solo

namespace SongSheet.Playback

open Clock Relation

variable {σ τ υ : Type}

/-- The same setup, with another renderer. -/
def Setup.withRenderer (setup : Setup σ) (renderer : Renderer τ) : Setup τ :=
  ⟨setup.config, renderer, setup.bus, setup.cancelled, setup.interventions⟩

namespace Player

/-- A player that had its turn has nothing to schedule before the next one. -/
theorem HasPlayed.isIdle {setup : Setup σ} {s : Stage σ} {q : Player} (h : q.HasPlayed setup s)
    (leaves : setup.renderer.LeavesToken) {later : Nat}
    (ahead : ∀ w, q.phase = .throttled w → later < w) : q.IsIdle later s.cancelled :=
  ⟨h.started, fun w waiting => ⟨h.uncut leaves w waiting, ahead w waiting⟩⟩

end Player

/-- The turn that a player waits for. -/
def Outline.turns (o : Outline) : List Nat :=
  match o.phase with
  | .throttled w => [w]
  | _ => []

theorem Player.mem_turns {q : Player} {w : Nat} :
    w ∈ q.outline.turns ↔ q.phase = .throttled w := by
  rw [Outline.turns, outline]
  cases q.phase <;> simp [Phase.outline, eq_comm]

namespace Performance

/-! ### Visits -/

/-- Two stages that agree, and players with the same outlines in the same order. -/
structure Concur (a : Stage σ × List Player) (b : Stage τ × List Player) : Prop where
  stage : a.1.Agrees b.1
  outlines : b.2.map (·.outline) = a.2.map (·.outline)

namespace Concur

variable {a : Stage σ × List Player} {b : Stage τ × List Player} {c : Stage υ × List Player}

theorem refl : Concur a a := ⟨.refl, rfl⟩

theorem symm (h : Concur a b) : Concur b a := ⟨h.stage.symm, h.outlines.symm⟩

theorem trans (h : Concur a b) (k : Concur b c) : Concur a c :=
  ⟨h.stage.trans k.stage, k.outlines.trans h.outlines⟩

end Concur

variable {s : Stage σ} {s' : Stage τ} {ps ps' : List Player}

/-- A visit to two lists of players. -/
theorem Concur.visit {act : Stage σ → Player → Stage σ × Player}
    {act' : Stage τ → Player → Stage τ × Player}
    (h : ∀ s s' q q', Player.Agrees (s, q) (s', q') → Player.Agrees (act s q) (act' s' q'))
    (concur : Concur (s, ps) (s', ps')) : Concur (visit act s ps) (visit act' s' ps') := by
  obtain ⟨stage, outlines⟩ := concur
  induction ps generalizing s s' ps' with
  | nil =>
      obtain rfl : ps' = [] := List.map_eq_nil_iff.1 outlines
      exact ⟨stage, rfl⟩
  | cons q ps ih =>
      obtain ⟨q', rest, rfl, first, others⟩ := List.map_eq_cons_iff.1 outlines
      obtain ⟨stage, first⟩ := h s s' q q' ⟨stage, first⟩
      obtain ⟨stage, others⟩ := ih stage others
      exact ⟨stage, congrArg₂ List.cons first others⟩

/-- A visit in which nobody schedules. -/
theorem concur_visit {act : Stage σ → Player → Stage σ × Player}
    (h : ∀ s q, Player.Agrees (s, q) (act s q)) (s : Stage σ) (ps : List Player) :
    Concur (s, ps) (visit act s ps) := by
  induction ps generalizing s with
  | nil => exact .refl
  | cons q ps ih =>
      obtain ⟨stage, first⟩ := h s q
      obtain ⟨stage', others⟩ := ih (act s q).1
      exact ⟨stage.trans stage', congrArg₂ List.cons first others⟩

/-- A visit to players that have nothing to schedule. -/
theorem visit_of_isIdle {config : Config} {renderer : Renderer σ}
    (idle : ∀ q ∈ ps, q.IsIdle s.now s.cancelled) :
    visit (fun s q => q.play config renderer s) s ps = (s, ps) := by
  induction ps with
  | nil => rfl
  | cons q ps ih =>
      obtain ⟨first, others⟩ := List.forall_mem_cons.1 idle
      simp only [visit, first.play, ih others]

/-! ### Rounds -/

/-- Two performances in the same instant, with the same left to be scheduled. -/
structure Agrees (p : Performance σ) (q : Performance τ) : Prop where
  config : q.setup.config = p.setup.config
  players : Concur (p.stage, p.players) (q.stage, q.players)
  interventions : q.interventions = p.interventions
  dropped : q.dropped = p.dropped

/-- Nothing is left to be scheduled. -/
def IsScheduled (p : Performance σ) : Prop :=
  ∀ q ∈ p.players, ∀ now cancelled, q.IsIdle now cancelled

/-- The instants at which somebody intervenes, or a player has its turn. -/
def turns (p : Performance σ) : List Nat :=
  p.interventions.map (·.1) ++ (p.players.map (·.outline)).flatMap (·.turns)

variable {p : Performance σ} {q : Performance τ} {r : Performance υ}

/-- Something is done in a turn. -/
theorem mem_dueTimes_of_turn {t : Nat} (turn : t ∈ p.turns) : t ∈ p.dueTimes := by
  rcases List.mem_append.1 turn with intervention | turn
  · exact List.mem_append_left _ intervention
  · obtain ⟨o, ho, turn⟩ := List.mem_flatMap.1 turn
    obtain ⟨a, ha, rfl⟩ := List.mem_map.1 ho
    exact mem_dueTimes_of_throttled ha (Player.mem_turns.1 turn)

theorem turn_of_mem {a : Player} (ha : a ∈ p.players) {w : Nat} (waiting : a.phase = .throttled w) :
    w ∈ p.turns :=
  List.mem_append_right _
    (List.mem_flatMap.2 ⟨_, List.mem_map_of_mem ha, Player.mem_turns.2 waiting⟩)

/-- The outlines say whether everything is scheduled. -/
theorem IsScheduled.of_outlines (h : p.IsScheduled)
    (same : q.players.map (·.outline) = p.players.map (·.outline)) : q.IsScheduled := by
  intro b hb now cancelled
  have outline := List.mem_map_of_mem (f := (·.outline)) hb
  rw [same] at outline
  obtain ⟨a, ha, eq⟩ := List.mem_map.1 outline
  exact (h a ha now cancelled).of_outline (congrArg Outline.phase eq.symm)

/-- When everything is scheduled, nobody waits for a turn. -/
theorem IsScheduled.phase_ne (h : p.IsScheduled) {a : Player} (ha : a ∈ p.players) (w : Nat) :
    a.phase ≠ .throttled w := by
  intro waiting
  obtain ⟨unfired, -⟩ := (h a ha 0 true).throttled w waiting
  cases unfired

/-- In a performance that is complete everything is scheduled. -/
theorem isScheduled_of_isComplete (h : p.isComplete = true) : p.IsScheduled :=
  fun a ha now cancelled => Player.isIdle_of_isOver (List.all_eq_true.1 h a ha) now cancelled

theorem concur_conclude (p : Performance σ) :
    Concur (p.stage, p.players) (p.conclude.stage, p.conclude.players) := by
  refine ⟨.of_moment ⟨(during_conclude p).now, fun _ => ?_⟩ (during_conclude p).calls, ?_⟩
  · simpa using (during_conclude p).cancelled
  · rw [players_conclude]

/-- A round in which nobody has anything to schedule. -/
theorem concur_proceed_of_isIdle (idle : ∀ a ∈ p.players, a.IsIdle p.stage.now p.stage.cancelled) :
    Concur (p.stage, p.players) (p.proceed.stage, p.proceed.players) := by
  let older := visit (fun s a => a.soundOlder s) p.stage p.players
  have first : Concur (p.stage, p.players) older :=
    concur_visit (fun s a => Player.agrees_soundOlder s a) _ _
  have still : visit (fun s a => a.play p.setup.config p.setup.renderer s) older.1 older.2
      = older := by
    refine visit_of_isIdle fun b hb => ?_
    have outline := List.mem_map_of_mem (f := (·.outline)) hb
    rw [first.outlines] at outline
    obtain ⟨a, ha, eq⟩ := List.mem_map.1 outline
    rw [first.stage.now, first.stage.cancelled]
    exact (idle a ha).of_outline (congrArg Outline.phase eq.symm)
  refine first.trans ?_
  show Concur older (visit (fun s a => a.soundAll s) (visit _ older.1 older.2).1
    (visit _ older.1 older.2).2)
  rw [still]
  exact concur_visit (fun s a => Player.agrees_soundAll s a) _ _

namespace Agrees

theorem symm (h : p.Agrees q) : q.Agrees p :=
  ⟨h.config.symm, h.players.symm, h.interventions.symm, h.dropped.symm⟩

theorem trans (h : p.Agrees q) (k : q.Agrees r) : p.Agrees r :=
  ⟨k.config.trans h.config, h.players.trans k.players, k.interventions.trans h.interventions,
    k.dropped.trans h.dropped⟩

theorem now (h : p.Agrees q) : q.stage.now = p.stage.now := h.players.stage.now

theorem turns (h : p.Agrees q) : q.turns = p.turns := by
  have outlines : q.players.map (·.outline) = p.players.map (·.outline) := h.players.outlines
  rw [Performance.turns, Performance.turns, h.interventions, outlines]

/-- As long as something is left to be scheduled, both go on. -/
theorem going (h : p.Agrees q) (busy : ¬ p.IsScheduled) (kept : p.dropped = false) :
    ¬ q.isOver = true := by
  rw [isOver, h.dropped, kept, Bool.false_or]
  exact fun complete => busy ((isScheduled_of_isComplete complete).of_outlines
    h.players.symm.outlines)

theorem jumpTo (h : p.Agrees q) (t : Nat) : (p.jumpTo t).Agrees (q.jumpTo t) := by
  obtain ⟨stage, outlines⟩ := h.players
  exact ⟨h.config, ⟨⟨rfl, stage.cancelled, stage.asked⟩, outlines⟩, h.interventions, h.dropped⟩

theorem undergo (h : p.Agrees q) (x : Intervention) : (p.undergo x).Agrees (q.undergo x) := by
  obtain ⟨config, ⟨stage, outlines⟩, interventions, dropped⟩ := h
  cases x with
  | cancel => exact ⟨config, ⟨⟨stage.now, rfl, stage.asked⟩, outlines⟩, interventions, dropped⟩
  | setVolume =>
      exact ⟨config, ⟨⟨stage.now, stage.cancelled, stage.asked⟩, outlines⟩, interventions, dropped⟩
  | drop => exact ⟨config, ⟨stage, outlines⟩, interventions, rfl⟩

theorem intervene (h : p.Agrees q) : p.intervene.Agrees q.intervene := by
  have foldl (due : List (Nat × Intervention)) {p : Performance σ} {q : Performance τ}
      (h : p.Agrees q) : (due.foldl (fun p d => p.undergo d.2) p).Agrees
        (due.foldl (fun p d => p.undergo d.2) q) := by
    induction due generalizing p q with
    | nil => exact h
    | cons d due ih => exact ih (h.undergo d.2)
  rw [intervene_eq, intervene_eq, h.interventions, h.now]
  exact foldl _ ⟨h.config, h.players, rfl, h.dropped⟩

theorem proceed (reliable : p.setup.renderer.IsReliable)
    (reliable' : q.setup.renderer.IsReliable) (h : p.Agrees q) : p.proceed.Agrees q.proceed := by
  refine ⟨h.config, ?_, h.interventions, h.dropped⟩
  let older := visit (fun s a => a.soundOlder s) p.stage p.players
  let older' := visit (fun s a => a.soundOlder s) q.stage q.players
  -- tones sound on each side as they like, and in between the players have their turns
  have before : Concur older older' :=
    (concur_visit (fun s a => Player.agrees_soundOlder s a) _ _).symm.trans
      (h.players.trans (concur_visit (fun s a => Player.agrees_soundOlder s a) _ _))
  have played : Concur
      (visit (fun s a => a.play p.setup.config p.setup.renderer s) older.1 older.2)
      (visit (fun s a => a.play q.setup.config q.setup.renderer s) older'.1 older'.2) := by
    rw [h.config]
    exact before.visit fun s s' a a' agrees => agrees.play reliable reliable'
  exact (concur_visit (fun s a => Player.agrees_soundAll s a) _ _).symm.trans
    (played.trans (concur_visit (fun s a => Player.agrees_soundAll s a) _ _))

theorem conclude (h : p.Agrees q) : p.conclude.Agrees q.conclude where
  config := by rw [setup_conclude, setup_conclude, h.config]
  players := (concur_conclude p).symm.trans (h.players.trans (concur_conclude q))
  interventions := by rw [interventions_conclude, interventions_conclude, h.interventions]
  dropped := by rw [dropped_conclude, dropped_conclude, h.dropped]

/-- An instant that is played by both. -/
theorem round (reliable : p.setup.renderer.IsReliable) (reliable' : q.setup.renderer.IsReliable)
    (h : p.Agrees q) : p.round.Agrees q.round := by
  have intervened := h.intervene
  rw [Performance.round, Performance.round, intervened.dropped]
  split
  · exact intervened
  · rw [← (intervene_spec p).2.1] at reliable
    rw [← (intervene_spec q).2.1] at reliable'
    exact (intervened.proceed reliable reliable').conclude

end Agrees

/-! ### Instants of one performance -/

/-- A round in which nobody has anything to schedule, after the interventions. -/
theorem concur_round_of_isIdle
    (idle : ∀ a ∈ p.players, a.IsIdle p.intervene.stage.now p.intervene.stage.cancelled) :
    Concur (p.intervene.stage, p.players) (p.round.stage, p.round.players) := by
  obtain ⟨players, -, -⟩ := intervene_spec p
  rw [← players] at idle ⊢
  rw [round]
  split
  · exact .refl
  · exact (concur_proceed_of_isIdle idle).trans (concur_conclude _)

/-- When everything is scheduled, nothing is asked for any more. -/
theorem IsScheduled.goOn (h : p.IsScheduled) :
    p.goOn.stage.asked = p.stage.asked ∧
      p.goOn.players.map (·.outline) = p.players.map (·.outline) := by
  rcases goOn_cases p with same | ⟨t, -, eq⟩
  · rw [same]
    exact ⟨rfl, rfl⟩
  · have round := concur_round_of_isIdle (p := p.jumpTo t) fun a ha => h a ha _ _
    have intervened : (p.jumpTo t).intervene.stage.asked = p.stage.asked := by
      rw [Stage.asked, (intervene_spec (p.jumpTo t)).2.2.calls]
      rfl
    rw [eq]
    exact ⟨round.stage.asked.trans intervened, round.outlines⟩

theorem IsScheduled.run (h : p.IsScheduled) (n : Nat) :
    (p.run n).stage.asked = p.stage.asked ∧
      (p.run n).players.map (·.outline) = p.players.map (·.outline) := by
  induction n with
  | zero => exact ⟨rfl, rfl⟩
  | succ n ih =>
      rw [run_succ]
      obtain ⟨asked, outlines⟩ := (h.of_outlines ih.2).goOn
      exact ⟨asked.trans ih.1, outlines.trans ih.2⟩

/-- Before the next turn nothing is scheduled. -/
theorem agrees_goOn_of_lt (leaves : p.setup.renderer.LeavesToken) (played : p.IsPlayed)
    (going : ¬ p.isOver = true) {t : Nat} (next : p.next? = some t)
    (later : ∀ u ∈ p.turns, t < u) : (p.jumpTo t).Agrees p.goOn := by
  have undue : ∀ d ∈ (p.jumpTo t).interventions, (p.jumpTo t).stage.now < d.1 :=
    fun d hd => later d.1 (List.mem_append_left _ (List.mem_map_of_mem hd))
  have none := intervene_of_lt undue
  have round := concur_round_of_isIdle (p := p.jumpTo t) fun a ha => by
    rw [none]
    exact (played.players a ha).isIdle leaves fun w waiting => later w (turn_of_mem ha waiting)
  rw [none] at round
  rw [goOn_of_next?_eq_some going next]
  refine ⟨by rw [setup_round], round, ?_, by rw [dropped_round, none]⟩
  rw [interventions_round]
  exact List.filter_eq_self.2 fun d hd => decide_eq_true (undue d hd)

/-- A turn that did not come yet is awaited: the next instant is not after it. -/
theorem exists_next?_of_turn (leaves : p.setup.renderer.LeavesToken) (played : p.IsPlayed)
    {t : Nat} (turn : t ∈ p.turns) (ahead : ∀ u ∈ p.turns, p.stage.now < u) :
    ∃ t' ≤ t, p.next? = some t' ∧ p.stage.now < t' ∧ ∀ u ∈ p.dueTimes, t' ≤ u := by
  obtain ⟨t', least⟩ := Option.isSome_iff_exists.1
    (List.isSome_min?_of_mem (mem_dueTimes_of_turn turn))
  obtain ⟨due, first⟩ := List.min?_eq_some_iff.1 least
  have later : p.stage.now < t' :=
    played.ahead_of_waits (fun a ha w waiting => ahead w (turn_of_mem ha waiting)) t' due
  refine ⟨t', first t (mem_dueTimes_of_turn turn), ?_, later, first⟩
  rw [played.next?_of_quiet (.inr leaves), least, Option.filter_some,
    if_pos (decide_eq_true later)]

end Performance

open Performance

/-! ### Two performances -/

section

variable {setup : Setup σ} {setup' : Setup τ} {sheet : Sheet} {p : Performance σ}
  {q : Performance τ} {m n : Nat}

/-- A performance comes to the next turn of another one in which the same is left to be
scheduled, and does the same in it. -/
theorem Performance.Agrees.exists_round (reliable : p.setup.renderer.IsReliable)
    (reliable' : setup'.renderer.IsReliable) (kept : p.dropped = false) (busy : ¬ p.IsScheduled)
    (turn : p.stage.now ∈ p.turns) (first : ∀ u ∈ p.turns, p.stage.now ≤ u)
    (h : p.Agrees (((ofSheet setup' sheet).start.run m).jumpTo p.stage.now))
    (before : ((ofSheet setup' sheet).start.run m).stage.now < p.stage.now) :
    ∃ m', p.round.Agrees ((ofSheet setup' sheet).start.run m') := by
  -- the clock of the other one comes nearer to the turn
  induction ahead : p.stage.now - ((ofSheet setup' sheet).start.run m).stage.now
    using Nat.strong_induction_on generalizing m with
  | _ d ih =>
      obtain ⟨same, played⟩ := isPlayed_run setup' sheet m
      have succ := run_succ m (ofSheet setup' sheet).start
      generalize (ofSheet setup' sheet).start.run m = q at *
      have going : ¬ q.isOver = true := h.going busy kept
      have played := played.resolve_left going
      have turns : q.turns = p.turns := h.turns
      rw [← turns] at turn first
      rw [← same] at reliable'
      obtain ⟨t, soon, next, later, least⟩ := exists_next?_of_turn reliable'.leavesToken played
        turn fun u hu => Nat.lt_of_lt_of_le before (first u hu)
      rcases Nat.eq_or_lt_of_le soon with rfl | soon
      · refine ⟨m + 1, ?_⟩
        rw [succ, goOn_of_next?_eq_some going next]
        exact h.round reliable reliable'
      · have alone := agrees_goOn_of_lt reliable'.leavesToken played going next
          fun u hu => Nat.lt_of_lt_of_le soon (first u hu)
        have now : q.goOn.stage.now = t := alone.now
        rw [← succ] at alone now
        exact ih _ (by omega) (h.trans (alone.jumpTo p.stage.now)) (by omega) rfl

/-- A performance, and the same sheet with another renderer.  Either everything is scheduled, or
the two are in the same state but for their tones, and the other one may have come to its
present instant earlier. -/
structure Accords (p : Performance σ) (q : Performance τ) : Prop where
  asked : q.stage.asked = p.stage.asked
  outlines : q.players.map (·.outline) = p.players.map (·.outline)
  going : p.IsScheduled ∨ p.Agrees (q.jumpTo p.stage.now) ∧ q.stage.now ≤ p.stage.now

/-- Two performances in the same instant. -/
theorem Performance.Agrees.accords (h : p.Agrees q) : Accords p q := by
  have same : q.jumpTo p.stage.now = q := by rw [← h.now]; rfl
  exact ⟨h.players.stage.asked, h.players.outlines,
    .inr ⟨same.symm ▸ h, Nat.le_of_eq h.now⟩⟩

namespace Accords

/-- One instant of a performance is reached by the other one after any number of its own. -/
theorem exists_goOn (reliable : setup.renderer.IsReliable)
    (reliable' : setup'.renderer.IsReliable)
    (h : Accords ((ofSheet setup sheet).start.run n) ((ofSheet setup' sheet).start.run m)) :
    ∃ m', Accords ((ofSheet setup sheet).start.run (n + 1))
      ((ofSheet setup' sheet).start.run m') := by
  obtain ⟨same, played⟩ := isPlayed_run setup sheet n
  rw [run_succ]
  generalize (ofSheet setup sheet).start.run n = p at *
  by_cases ended : p.isOver = true
  · exact ⟨m, by rwa [goOn_of_isOver ended]⟩
  rcases next : p.next? with - | t
  · exact ⟨m, by rwa [goOn_of_next?_eq_none next]⟩
  by_cases scheduled : p.IsScheduled
  · obtain ⟨asked, outlines⟩ := scheduled.goOn
    exact ⟨m, h.asked.trans asked.symm, h.outlines.trans outlines.symm,
      .inl (scheduled.of_outlines outlines)⟩
  obtain ⟨agrees, before⟩ := h.going.resolve_left scheduled
  have played := played.resolve_left ended
  rw [← same] at reliable
  obtain ⟨due, ahead⟩ : (∀ u ∈ p.turns, t ≤ u) ∧ p.stage.now < t := by
    rw [played.next?_of_quiet (.inr reliable.leavesToken)] at next
    obtain ⟨least, ahead⟩ := Option.filter_eq_some_iff.1 next
    exact ⟨fun u hu => (List.min?_eq_some_iff.1 least).2 u (mem_dueTimes_of_turn hu),
      of_decide_eq_true ahead⟩
  by_cases turn : t ∈ p.turns
  · -- a turn is played by both
    have kept : p.dropped = false :=
      Bool.eq_false_iff.2 fun dropped => ended (isOver_of_dropped dropped)
    obtain ⟨m', both⟩ := (agrees.jumpTo t).exists_round (p := p.jumpTo t) reliable reliable' kept
      scheduled turn due (Nat.lt_of_le_of_lt before ahead)
    exact ⟨m', by rw [goOn_of_next?_eq_some ended next]; exact both.accords⟩
  · -- any other instant by one alone
    have alone := agrees_goOn_of_lt reliable.leavesToken played ended next fun u hu =>
      Nat.lt_of_le_of_ne (due u hu) fun eq => turn (eq ▸ hu)
    have now : p.goOn.stage.now = t := alone.now
    have agrees : p.goOn.Agrees (((ofSheet setup' sheet).start.run m).jumpTo t) :=
      alone.symm.trans (agrees.jumpTo t)
    exact ⟨m, agrees.players.stage.asked, agrees.players.outlines,
      .inr ⟨now.symm ▸ agrees, now.symm ▸ Nat.le_of_lt (Nat.lt_of_le_of_lt before ahead)⟩⟩

/-- When a performance is over, the other one asks for nothing any more either. -/
theorem run_of_isOver (h : Accords p q) (ended : p.isOver = true) (k : Nat) :
    (q.run k).stage.asked = p.stage.asked ∧
      (q.run k).players.map (·.outline) = p.players.map (·.outline) := by
  have still (scheduled : p.IsScheduled) : (q.run k).stage.asked = p.stage.asked ∧
      (q.run k).players.map (·.outline) = p.players.map (·.outline) := by
    obtain ⟨asked, outlines⟩ := (scheduled.of_outlines h.outlines).run k
    exact ⟨asked.trans h.asked, outlines.trans h.outlines⟩
  rcases h.going with scheduled | ⟨agrees, -⟩
  · exact still scheduled
  · rcases Bool.or_eq_true_iff.1 ended with dropped | complete
    · -- both were given up
      have dropped' : q.dropped = true := agrees.dropped.trans dropped
      rw [Performance.run_of_isOver (isOver_of_dropped dropped')]
      exact ⟨h.asked, h.outlines⟩
    · exact still (isScheduled_of_isComplete complete)

end Accords

end

/-! ### Whole performances -/

section

variable {setup : Setup σ} {renderer : Renderer τ}

/-- The same sheet with the two renderers, before the first instant. -/
theorem agrees_start (reliable : setup.renderer.IsReliable) (reliable' : renderer.IsReliable)
    (sheet : Sheet) :
    (ofSheet setup sheet).start.Agrees (ofSheet (setup.withRenderer renderer) sheet).start := by
  have both : (ofSheet setup sheet).Agrees (ofSheet (setup.withRenderer renderer) sheet) :=
    ⟨rfl, ⟨⟨rfl, rfl, rfl⟩, rfl⟩, rfl, rfl⟩
  have complete : (ofSheet (setup.withRenderer renderer) sheet).isComplete =
      (ofSheet setup sheet).isComplete := rfl
  rw [start, start, complete]
  split
  · exact both.conclude
  · exact both.round reliable reliable'

/-- After any number of instants, a performance is where the other one is after some. -/
theorem exists_accords_run {setup' : Setup τ} {sheet : Sheet}
    (reliable : setup.renderer.IsReliable) (reliable' : setup'.renderer.IsReliable)
    (started : (ofSheet setup sheet).start.Agrees (ofSheet setup' sheet).start) (n : Nat) :
    ∃ m, Accords ((ofSheet setup sheet).start.run n) ((ofSheet setup' sheet).start.run m) := by
  induction n with
  | zero => exact ⟨0, started.accords⟩
  | succ n ih =>
      obtain ⟨m, both⟩ := ih
      exact both.exists_goOn reliable reliable'

/-- Two performances asked for the same, at the same instants, and scheduled as many notes on
each track. -/
def SharesSchedule (p : Performance σ) (q : Performance τ) : Prop :=
  q.stage.asked = p.stage.asked ∧
    q.players.map (·.report.notesScheduled) = p.players.map (·.report.notesScheduled)

/-- What was scheduled can be seen from the outlines. -/
theorem sharesSchedule_of_outlines {p : Performance σ} {q : Performance τ}
    (asked : q.stage.asked = p.stage.asked)
    (outlines : q.players.map (·.outline) = p.players.map (·.outline)) : SharesSchedule p q := by
  refine ⟨asked, ?_⟩
  have scheduled := congrArg (List.map Outline.scheduled) outlines
  rwa [List.map_map, List.map_map] at scheduled

/-- Two performances that are over scheduled the same. -/
theorem sharesSchedule_of_isOver {sheet : Sheet} (reliable : setup.renderer.IsReliable)
    (reliable' : renderer.IsReliable) {n m : Nat}
    (ended : ((ofSheet setup sheet).start.run n).isOver = true)
    (ended' : ((ofSheet (setup.withRenderer renderer) sheet).start.run m).isOver = true) :
    SharesSchedule ((ofSheet setup sheet).start.run n)
      ((ofSheet (setup.withRenderer renderer) sheet).start.run m) := by
  obtain ⟨k, both⟩ :=
    exists_accords_run reliable reliable' (agrees_start reliable reliable' sheet) n
  -- the two are over at instants of their own, and nothing is asked for in between
  have last : ((ofSheet (setup.withRenderer renderer) sheet).start.run k).run m =
      (ofSheet (setup.withRenderer renderer) sheet).start.run m := by
    rw [← run_add, Nat.add_comm, run_add, Performance.run_of_isOver ended']
  obtain ⟨asked, outlines⟩ := both.run_of_isOver ended m
  rw [last] at asked outlines
  exact sharesSchedule_of_outlines asked outlines

/-- Scheduling ignores what becomes of tones.  If the calls of two renderers all give tones, and
leave the token alone, then a sheet is scheduled in the same way with both, whatever is done
from outside and whatever the tones do: after any number of instants of the one performance the
other one has, after some of its own, asked for the same at the same instants, and scheduled as
many notes on each track; and when both are over, they made the same calls, and the reports
count the same notes. -/
theorem scheduling_ignores_tones (reliable : setup.renderer.IsReliable)
    (reliable' : renderer.IsReliable) (sheet : Sheet) :
    (∀ n, ∃ m, SharesSchedule ((ofSheet setup sheet).start.run n)
      ((ofSheet (setup.withRenderer renderer) sheet).start.run m)) ∧
    (∀ m, ∃ n, SharesSchedule ((ofSheet setup sheet).start.run n)
      ((ofSheet (setup.withRenderer renderer) sheet).start.run m)) ∧
    ∀ n m r r', ((ofSheet setup sheet).start.run n).result? = some r →
      ((ofSheet (setup.withRenderer renderer) sheet).start.run m).result? = some r' →
        r'.calls.map Call.asked = r.calls.map Call.asked ∧
        ∀ report report', r.report = some report → r'.report = some report' →
          report'.tracks.map (·.notesScheduled) = report.tracks.map (·.notesScheduled) := by
  have started := agrees_start reliable reliable' sheet
  refine ⟨fun n => ?_, fun m => ?_, fun n m r r' result result' => ?_⟩
  · obtain ⟨m, both⟩ := exists_accords_run reliable reliable' started n
    exact ⟨m, sharesSchedule_of_outlines both.asked both.outlines⟩
  · obtain ⟨n, both⟩ := exists_accords_run reliable' reliable started.symm m
    exact ⟨n, sharesSchedule_of_outlines both.asked.symm both.outlines.symm⟩
  · obtain ⟨ended, -, calls⟩ := isOver_of_result? result
    obtain ⟨ended', -, calls'⟩ := isOver_of_result? result'
    obtain ⟨asked, scheduled⟩ := sharesSchedule_of_isOver reliable reliable' ended ended'
    refine ⟨?_, fun report report' reported reported' => ?_⟩
    · rw [calls, calls', List.map_reverse, List.map_reverse]
      exact congrArg List.reverse asked
    · obtain ⟨-, -, rfl⟩ := isComplete_of_reported result reported
      obtain ⟨-, -, rfl⟩ := isComplete_of_reported result' reported'
      rw [Performance.report, Performance.report, List.map_map, List.map_map]
      exact scheduled

/-- Tones that do not end, but for those of the second note, which crash. -/
def endless : Rehearsal := ⟨fun _ => .never, [], [.ofNat 660], [], none⟩

/-- In a rehearsal that refuses nothing and does not fire the token, calls are reliable. -/
theorem Rehearsal.isReliable {h : Rehearsal} (answers : h.refusing = [])
    (leaves : h.cancelOnCall = none) : h.renderer.IsReliable :=
  ⟨Rehearsal.answers answers, (Rehearsal.isSteady leaves).leavesToken⟩

/-- The duet is cut after two notes of the melody and one of the bass, and so it is when the tones
do not end and nothing is ever reported. -/
theorem scheduling_ignores_tones_duet :
    ∃ m, ((ofSheet (staged.withRenderer endless.renderer) duet).start.run m).stage.asked.map
        (fun asked => (asked.1, asked.2.1)) =
          [(0, 150 * millisecond), (1, 0), (0, 0), (0, 0)] ∧
      ((ofSheet (staged.withRenderer endless.renderer) duet).start.run m).players.map
        (·.report.notesScheduled) = [2, 1] := by
  have first : staged.renderer.IsReliable := Rehearsal.isReliable rfl rfl
  have second : endless.renderer.IsReliable := Rehearsal.isReliable rfl rfl
  obtain ⟨forth, -, -⟩ := scheduling_ignores_tones first second duet
  obtain ⟨m, asked, scheduled⟩ := forth 8
  refine ⟨m, ?_, ?_⟩
  · rw [asked]
    decide +kernel
  · rw [scheduled]
    decide +kernel

end

end SongSheet.Playback
