/-
SongSheet/Proofs/Playback/Solo.lean

A track among others, and the same track alone.

Played with others, a track does what it does alone, if the renderer is steady: what the
others do in a visit leaves its part of the stage as it is (`IsPart.visit`), and it looks
at nothing else (`Player.Mirrors`).  The two performances do not go from instant to instant
together.  With others there are more instants to be played; the track is asleep in those
that are not its own (`IsPart.round_of_sleeps`).  When it is over, the performance of the
track alone stands still, and the other one goes on.  So one instant of the whole is one
instant or none of the part (`Accompanies.goOn`), and one instant of the part is reached by
the whole after some of the others (`Accompanies.exists_run`).
-/
import SongSheet.Proofs.Playback.Renumber
import SongSheet.Proofs.Playback.Turns

namespace SongSheet.Playback

open Clock Relation

variable {σ : Type}

/-! ### Other tracks -/

/-- What becomes of a member is of no concern to other tracks, and it keeps its number. -/
theorem Member.Goes.sameFor {config : Config} {renderer : Renderer σ} {a b : Stage σ × Member}
    (goes : Goes config renderer a b) :
    b.2.player.index = a.2.player.index ∧ ∀ i, i ≠ a.2.player.index → a.1.SameFor i b.1 := by
  induction goes with
  | refl => exact ⟨rfl, fun i _ => ⟨rfl, rfl⟩⟩
  | @tail b c _ change ih =>
      obtain ⟨index, same⟩ := ih
      cases change with
      | step step =>
          exact ⟨step.index.trans index, fun i hi => (same i hi).trans (step.sameFor (index ▸ hi))⟩
      | sound sounds =>
          obtain ⟨endings, older, fresh, track, -, rfl, rfl⟩ := sounds
          exact ⟨index, fun i hi => (same i hi).trans (Stage.sameFor_settle _ track (index ▸ hi))⟩
      | told es => exact ⟨index, fun i hi => (same i hi).trans (Stage.sameFor_tellAll _ es i)⟩

namespace Performance

/-- What a player does is of no concern to other tracks, and it keeps its number. -/
def Separate (act : Stage σ → Player → Stage σ × Player) : Prop :=
  ∀ s q, (act s q).2.index = q.index ∧ ∀ i, i ≠ q.index → s.Alike i i (act s q).1

/-- So it is with all that players do in a round, if calls leave the token alone. -/
theorem separate_round {setup : Setup σ} (leaves : setup.renderer.LeavesToken) :
    Separate (fun (s : Stage σ) q => q.soundOlder s) ∧
      Separate (fun s q => q.play setup.config setup.renderer s) ∧
      Separate (fun (s : Stage σ) q => q.soundAll s) := by
  have of_goes {act : Stage σ → Player → Stage σ × Player}
      (h : ∀ s q, Member.Goes setup.config setup.renderer (s, ⟨q, .rest⟩)
        ((act s q).1, ⟨(act s q).2, .rest⟩)) : Separate act := by
    intro s q
    obtain ⟨index, same⟩ := (h s q).sameFor
    obtain ⟨new, during⟩ := (h s q).during
    exact ⟨index, fun i hi =>
      .of_sameFor ⟨during.now, fun _ => (h s q).cancelled leaves⟩ (same i hi)⟩
  exact ⟨of_goes fun s q => q.goes_soundOlder s, of_goes fun s q => q.goes_play s,
    of_goes fun s q => q.goes_soundAll s⟩

/-! ### Visits -/

theorem visit_append (act : Stage σ → Player → Stage σ × Player) (s : Stage σ)
    (ps qs : List Player) :
    visit act s (ps ++ qs) = ((visit act (visit act s ps).1 qs).1,
      (visit act s ps).2 ++ (visit act (visit act s ps).1 qs).2) := by
  induction ps generalizing s with
  | nil => rfl
  | cons p ps ih =>
      have rest := ih (act s p).1
      rw [List.cons_append]
      show ((visit act (act s p).1 (ps ++ qs)).1, _ :: (visit act (act s p).1 (ps ++ qs)).2) = _
      rw [rest]
      rfl

theorem length_visit (act : Stage σ → Player → Stage σ × Player) (s : Stage σ)
    (ps : List Player) : (visit act s ps).2.length = ps.length := by
  induction ps generalizing s with
  | nil => rfl
  | cons p ps ih => exact congrArg (· + 1) (ih (act s p).1)

/-- A player is the one with a number. -/
def IsPart (i : Nat) (a : Player) (ps : List Player) : Prop :=
  ∃ before after, ps = before ++ a :: after ∧ before.length = i ∧ a.index = i ∧
    ∀ q ∈ before ++ after, q.index ≠ i

variable {i j : Nat} {a : Player} {ps : List Player} {s s' : Stage σ}
  {act : Stage σ → Player → Stage σ × Player}

theorem IsPart.index (h : IsPart i a ps) : a.index = i := by
  obtain ⟨before, after, -, -, index, -⟩ := h
  exact index

theorem IsPart.getElem? (h : IsPart i a ps) : ps[i]? = some a := by
  obtain ⟨before, after, rfl, rfl, -⟩ := h
  rw [List.getElem?_append_right (Nat.le_refl _), Nat.sub_self]
  rfl

theorem IsPart.mem (h : IsPart i a ps) : a ∈ ps := List.mem_of_getElem? h.getElem?

/-- In a list in which all players have their places as numbers, each is the one with its. -/
theorem isPart_of_getElem? (found : ps[i]? = some a)
    (numbers : ∀ (k : Nat) (q : Player), ps[k]? = some q → q.index = k) : IsPart i a ps := by
  obtain ⟨bound, rfl⟩ := List.getElem?_eq_some_iff.1 found
  refine ⟨ps.take i, ps.drop (i + 1), ?_, List.length_take_of_le (Nat.le_of_lt bound),
    numbers i _ found, List.forall_mem_append.2 ⟨fun q hq => ?_, fun q hq => ?_⟩⟩
  · rw [← List.drop_eq_getElem_cons bound, List.take_append_drop]
  · obtain ⟨k, hk, rfl⟩ := List.mem_take_iff_getElem.1 hq
    rw [numbers k _ (List.getElem?_eq_getElem _)]
    omega
  · obtain ⟨k, hk, rfl⟩ := List.mem_drop_iff_getElem.1 hq
    rw [numbers _ _ (List.getElem?_eq_getElem _)]
    omega

/-- A visit to others. -/
theorem Separate.visit (separate : Separate act) (others : ∀ q ∈ ps, q.index ≠ i)
    (s : Stage σ) :
    s.Alike i i (visit act s ps).1 ∧ ∀ q ∈ (visit act s ps).2, q.index ≠ i := by
  refine visit_spec (s.Alike i i) (·.index ≠ i) (·.index ≠ i) ?_ .refl others
  intro s' q here hq
  obtain ⟨index, alike⟩ := separate s' q
  exact ⟨here.trans (alike i hq.symm), by rwa [index]⟩

/-- A visit is for one player what it does itself, on a stage that is alike. -/
theorem IsPart.visit (separate : Separate act) (h : IsPart i a ps) (s : Stage σ) :
    ∃ s₁, s.Alike i i s₁ ∧ IsPart i (act s₁ a).2 (visit act s ps).2 ∧
      (act s₁ a).1.Alike i i (visit act s ps).1 := by
  obtain ⟨before, after, rfl, length, index, others⟩ := h
  have others := List.forall_mem_append.1 others
  obtain ⟨first, before'⟩ := separate.visit others.1 s
  obtain ⟨last, after'⟩ := separate.visit others.2 (act (Performance.visit act s before).1 a).1
  refine ⟨(Performance.visit act s before).1, first, ?_, ?_⟩
  · refine ⟨(Performance.visit act s before).2, _, ?_, (length_visit ..).trans length,
      ((separate _ a).1).trans index, List.forall_mem_append.2 ⟨before', after'⟩⟩
    rw [visit_append]
    rfl
  · rw [visit_append]
    exact last

/-- A visit to a player among others, and to the same player alone. -/
theorem IsPart.visit_mirrors (separate : Separate act)
    (mirrors : ∀ s s' p p', Player.Mirrors i j (s, p) (s', p') →
      Player.Mirrors i j (act s p) (act s' p'))
    (h : IsPart i a ps) (stage : s.Alike i j s') :
    ∃ a', IsPart i a' (Performance.visit act s ps).2 ∧
      (Performance.visit act s' [a.renumber j]).2 = [a'.renumber j] ∧
      (Performance.visit act s ps).1.Alike i j (Performance.visit act s' [a.renumber j]).1 := by
  obtain ⟨s₁, before, part, after⟩ := h.visit separate s
  obtain ⟨-, alike, same⟩ := mirrors s₁ s' a _ ⟨h.index, before.symm.trans stage, rfl⟩
  exact ⟨_, part, congrArg ([·]) same, after.symm.trans alike⟩

/-- A visit in which a player has nothing to do. -/
theorem IsPart.visit_of_idle (separate : Separate act)
    (idle : ∀ s₁ : Stage σ, s₁.now = s.now → s₁.cancelled = s.cancelled → act s₁ a = (s₁, a))
    (h : IsPart i a ps) :
    IsPart i a (Performance.visit act s ps).2 ∧ s.Alike i i (Performance.visit act s ps).1 := by
  obtain ⟨s₁, before, part, after⟩ := h.visit separate s
  rw [idle s₁ before.now before.cancelled] at part after
  exact ⟨part, before.trans after⟩

/-! ### Rounds -/

variable {p q : Performance σ}

/-- A player that sleeps in an instant stays as it is when the instant is played. -/
theorem IsPart.proceed_of_sleeps (leaves : p.setup.renderer.LeavesToken)
    (h : IsPart i a p.players) (asleep : a.Sleeps p.stage.now p.stage.cancelled) :
    IsPart i a p.proceed.players ∧ p.stage.Alike i i p.proceed.stage := by
  obtain ⟨older, play, all⟩ := separate_round leaves
  have sleeps {s : Stage σ} (alike : p.stage.Alike i i s) : a.Sleeps s.now s.cancelled := by
    rwa [alike.now, alike.cancelled]
  obtain ⟨part₁, alike₁⟩ := h.visit_of_idle older fun s now cancelled =>
    Player.Sleeps.soundOlder (s := s) (by rwa [now, cancelled])
  obtain ⟨part₂, alike₂⟩ := part₁.visit_of_idle play fun s now cancelled =>
    Player.Sleeps.play (s := s) (by rw [now, cancelled]; exact sleeps alike₁)
  obtain ⟨part₃, alike₃⟩ := part₂.visit_of_idle all fun s now cancelled =>
    Player.Sleeps.soundAll (s := s) (by rw [now, cancelled]; exact sleeps (alike₁.trans alike₂))
  exact ⟨part₃, (alike₁.trans alike₂).trans alike₃⟩

theorem alike_conclude (p : Performance σ) (i : Nat) : p.stage.Alike i i p.conclude.stage := by
  rw [conclude]
  split
  · exact .of_sameFor ⟨Stage.now_tell _ _, fun _ => Stage.cancelled_tell _ _⟩
      (p.stage.sameFor_tell _ i)
  · exact .refl

/-- So it does in a round, after the interventions. -/
theorem IsPart.round_of_sleeps (leaves : p.setup.renderer.LeavesToken) (h : IsPart i a p.players)
    (asleep : a.Sleeps p.intervene.stage.now p.intervene.stage.cancelled) :
    IsPart i a p.round.players ∧ p.intervene.stage.Alike i i p.round.stage := by
  obtain ⟨players, setup, -⟩ := intervene_spec p
  rw [← players] at h
  rw [← setup] at leaves
  rw [round]
  split
  · exact ⟨h, .refl⟩
  · obtain ⟨part, alike⟩ := h.proceed_of_sleeps leaves asleep
    rw [players_conclude]
    exact ⟨part, alike.trans (alike_conclude _ i)⟩

/-- A performance, and that of one of its tracks alone, in the same instant. -/
structure Mirrors (i : Nat) (p q : Performance σ) : Prop where
  setup : q.setup = p.setup
  stage : p.stage.Alike i 0 q.stage
  players : ∃ a, IsPart i a p.players ∧ q.players = [a.renumber 0]
  interventions : q.interventions = p.interventions
  dropped : q.dropped = p.dropped

namespace Mirrors

theorem undergo (h : Mirrors i p q) (x : Intervention) : Mirrors i (p.undergo x) (q.undergo x) := by
  obtain ⟨setup, ⟨now, cancelled, times⟩, players, interventions, dropped⟩ := h
  cases x with
  | cancel => exact ⟨setup, ⟨now, rfl, times⟩, players, interventions, dropped⟩
  | setVolume => exact ⟨setup, ⟨now, cancelled, times⟩, players, interventions, dropped⟩
  | drop => exact ⟨setup, ⟨now, cancelled, times⟩, players, interventions, rfl⟩

theorem intervene (h : Mirrors i p q) : Mirrors i p.intervene q.intervene := by
  have foldl (due : List (Nat × Intervention)) {p q : Performance σ} (h : Mirrors i p q) :
      Mirrors i (due.foldl (fun p d => p.undergo d.2) p)
        (due.foldl (fun p d => p.undergo d.2) q) := by
    induction due generalizing p q with
    | nil => exact h
    | cons d due ih => exact ih (h.undergo d.2)
  rw [intervene_eq, intervene_eq, h.interventions, h.stage.now]
  exact foldl _ ⟨h.setup, h.stage, h.players, rfl, h.dropped⟩

theorem proceed (steady : p.setup.renderer.IsSteady) (h : Mirrors i p q) :
    Mirrors i p.proceed q.proceed := by
  obtain ⟨older, play, all⟩ := separate_round steady.leavesToken
  obtain ⟨setup, stage, players, interventions, dropped⟩ := q
  obtain ⟨rfl, alike, ⟨a, part, rfl⟩, rfl, rfl⟩ := h
  obtain ⟨a₁, part₁, solo₁, alike₁⟩ := part.visit_mirrors older
    (fun _ _ _ _ mirrors => mirrors.soundOlder) alike
  obtain ⟨a₂, part₂, solo₂, alike₂⟩ := part₁.visit_mirrors play
    (fun _ _ _ _ mirrors => mirrors.play steady) alike₁
  obtain ⟨a₃, part₃, solo₃, alike₃⟩ := part₂.visit_mirrors all
    (fun _ _ _ _ mirrors => mirrors.soundAll) alike₂
  rw [← solo₁] at solo₂ alike₂ solo₃ alike₃
  rw [← solo₂] at solo₃ alike₃
  exact ⟨rfl, alike₃, ⟨a₃, part₃, solo₃⟩, rfl, rfl⟩

theorem conclude (h : Mirrors i p q) : Mirrors i p.conclude q.conclude where
  setup := by rw [setup_conclude, setup_conclude, h.setup]
  stage := (alike_conclude p i).symm.trans (h.stage.trans (alike_conclude q 0))
  players := by
    rw [players_conclude, players_conclude]
    exact h.players
  interventions := by rw [interventions_conclude, interventions_conclude, h.interventions]
  dropped := by rw [dropped_conclude, dropped_conclude, h.dropped]

/-- The two go on in the same way, as long as they are in the same instant. -/
theorem round (steady : p.setup.renderer.IsSteady) (h : Mirrors i p q) :
    Mirrors i p.round q.round := by
  have intervened := h.intervene
  rw [Performance.round, Performance.round, intervened.dropped]
  split
  · exact intervened
  · rw [← (intervene_spec p).2.1] at steady
    exact (intervened.proceed steady).conclude

end Mirrors

/-! ### Runs -/

/-- A performance, and that of one of its tracks alone.  The track is over, or the two are in the
same state, but the other one may have come to its present instant earlier. -/
structure Accompanies (i : Nat) (a : Player) (p q : Performance σ) : Prop where
  part : IsPart i a p.players
  solo : q.players = [a.renumber 0]
  times : q.stage.timesOf 0 = p.stage.timesOf i
  kept : q.dropped = true → p.dropped = true
  going : a.isOver = true ∨ Mirrors i p (q.jumpTo p.stage.now) ∧ q.stage.now ≤ p.stage.now

/-- Two performances in the same instant. -/
theorem Mirrors.accompanies (h : Mirrors i p q) : ∃ a, Accompanies i a p q := by
  obtain ⟨a, part, solo⟩ := h.players
  have same : q.jumpTo p.stage.now = q := by rw [← h.stage.now]; rfl
  exact ⟨a, part, solo, h.stage.times, fun dropped => h.dropped.symm.trans dropped,
    .inr ⟨same.symm ▸ h, Nat.le_of_eq h.stage.now⟩⟩

/-- What a performance looks like after a number of instants. -/
structure IsSettled (p : Performance σ) : Prop where
  steady : p.setup.renderer.IsSteady
  played : p.isOver = true ∨ p.IsPlayed
  silent : ∀ q ∈ p.players, q.isOver = true → q.ringing = []

theorem isSettled_run {setup : Setup σ} (steady : setup.renderer.IsSteady) (sheet : Sheet)
    (n : Nat) : ((ofSheet setup sheet).start.run n).IsSettled := by
  obtain ⟨same, played⟩ := isPlayed_run setup sheet n
  refine ⟨by rwa [same], played, fun q hq atEnd => ?_⟩
  obtain ⟨j, found⟩ := List.mem_iff_getElem?.1 hq
  exact Ensemble.ringing_of_isOver (Ensemble.reached_run setup sheet n)
    (Ensemble.getElem?_ofPerformance found) atEnd

/-- The next instant of a performance is the first at which something is due. -/
theorem IsSettled.next? (h : p.IsSettled) (going : ¬ p.isOver = true) {t : Nat} :
    p.next? = some t ↔ (t ∈ p.dueTimes ∧ ∀ u ∈ p.dueTimes, t ≤ u) ∧ p.stage.now < t := by
  rw [(h.played.resolve_left going).next?_of_quiet (.inr h.steady.leavesToken),
    Option.filter_eq_some_iff, List.min?_eq_some_iff, decide_eq_true_eq]

/-- Interventions that are not due have no effect. -/
theorem intervene_of_lt (later : ∀ d ∈ p.interventions, p.stage.now < d.1) : p.intervene = p := by
  have due : p.interventions.filter (·.1 ≤ p.stage.now) = [] :=
    List.filter_eq_nil_iff.2 fun d hd due =>
      Nat.not_le_of_lt (later d hd) (of_decide_eq_true due)
  have all : p.interventions.filter (p.stage.now < ·.1) = p.interventions :=
    List.filter_eq_self.2 fun d hd => decide_eq_true (later d hd)
  rw [intervene_eq, due, all]
  rfl

theorem alike_jumpTo (h : p.stage.Alike i j q.stage) (t : Nat) :
    (p.jumpTo t).stage.Alike i j (q.jumpTo t).stage := ⟨rfl, h.cancelled, h.times⟩

namespace Accompanies

variable {t : Nat}

/-- What is due in the performance of the track alone: interventions, and its own wake-ups. -/
theorem dueTimes_eq (h : Accompanies i a p q) (busy : ¬ a.isOver = true) :
    q.dueTimes = p.interventions.map (·.1) ++ a.wakes := by
  obtain ⟨mirrors, -⟩ := h.going.resolve_left busy
  have interventions : q.interventions = p.interventions := mirrors.interventions
  rw [dueTimes, interventions, h.solo, List.flatMap_singleton]
  rfl

/-- It is due in the other one. -/
theorem mem_dueTimes (h : Accompanies i a p q) (busy : ¬ a.isOver = true) {u : Nat}
    (due : u ∈ q.dueTimes) : u ∈ p.dueTimes := by
  rw [h.dueTimes_eq busy] at due
  rcases List.mem_append.1 due with intervention | wake
  · exact List.mem_append_left _ intervention
  · exact List.mem_append_right _ (List.mem_flatMap.2 ⟨a, h.part.mem, wake⟩)

/-- When the track is over, the performance of it alone is complete. -/
theorem isComplete_of_isOver (h : Accompanies i a p q) (atEnd : a.isOver = true) :
    q.isComplete = true := by
  rw [isComplete, h.solo, List.all_cons, List.all_nil, Bool.and_true]
  exact atEnd

/-- As long as the track goes on, so do both performances, or none of them. -/
theorem isOver_eq (h : Accompanies i a p q) (busy : ¬ a.isOver = true) : q.isOver = p.isOver := by
  obtain ⟨mirrors, -⟩ := h.going.resolve_left busy
  have dropped : q.dropped = p.dropped := mirrors.dropped
  have complete : p.isComplete = false := by
    refine Bool.eq_false_iff.2 fun complete => busy ?_
    exact List.all_eq_true.1 complete a h.part.mem
  have complete' : q.isComplete = false := by
    rw [isComplete, h.solo]
    refine Bool.eq_false_iff.2 fun complete => busy ?_
    have atEnd : (a.renumber 0).isOver = true := List.all_eq_true.1 complete _ List.mem_cons_self
    exact atEnd
  rw [isOver, isOver, dropped, complete, complete']

/-- A track that is over stays so, while the other performance goes on. -/
theorem goOn_of_isOver (settled : p.IsSettled) (h : Accompanies i a p q) (atEnd : a.isOver = true)
    (going : ¬ p.isOver = true) (next : p.next? = some t) : Accompanies i a p.goOn q := by
  have asleep := Player.sleeps_of_isOver atEnd (settled.silent a h.part.mem atEnd)
  obtain ⟨part, alike⟩ := IsPart.round_of_sleeps (p := p.jumpTo t) settled.steady.leavesToken
    h.part (asleep _ _)
  have intervened : (p.jumpTo t).intervene.stage.timesOf i = p.stage.timesOf i := by
    have calls : (p.jumpTo t).intervene.stage.calls = p.stage.calls :=
      (intervene_spec (p.jumpTo t)).2.2.calls
    rw [Stage.timesOf, Stage.timesOf, Stage.callsOf, Stage.callsOf, calls]
  rw [goOn_of_next?_eq_some going next]
  refine ⟨part, h.solo, by rw [h.times, alike.times, intervened], fun dropped => ?_, .inl atEnd⟩
  exact absurd (isOver_of_dropped (h.kept dropped)) going

/-- A track for which nothing is due sleeps, while the other performance goes on. -/
theorem goOn_of_lt (settled : p.IsSettled) (h : Accompanies i a p q) (busy : ¬ a.isOver = true)
    (going : ¬ p.isOver = true) (next : p.next? = some t) (later : ∀ u ∈ q.dueTimes, t < u) :
    Accompanies i a p.goOn q := by
  obtain ⟨mirrors, before⟩ := h.going.resolve_left busy
  rw [h.dueTimes_eq busy] at later
  have undue : ∀ d ∈ (p.jumpTo t).interventions, (p.jumpTo t).stage.now < d.1 :=
    fun d hd => later d.1 (List.mem_append_left _ (List.mem_map_of_mem hd))
  -- nobody intervenes, and so the track is left asleep in the round
  have none := intervene_of_lt undue
  have asleep : a.Sleeps t p.stage.cancelled :=
    ((settled.played.resolve_left going).players a h.part.mem).sleeps settled.steady.leavesToken
      fun w hw => later w (List.mem_append_right _ hw)
  obtain ⟨part, alike⟩ := IsPart.round_of_sleeps (p := p.jumpTo t) settled.steady.leavesToken
    h.part (by rw [none]; exact asleep)
  rw [none] at alike
  have now : (p.jumpTo t).round.stage.now = t := now_round _
  have dropped : (p.jumpTo t).round.dropped = p.dropped := by rw [dropped_round, none]; rfl
  have left : (p.jumpTo t).round.interventions = p.interventions := by
    rw [interventions_round]
    exact List.filter_eq_self.2 fun d hd => decide_eq_true (undue d hd)
  rw [goOn_of_next?_eq_some going next]
  refine ⟨part, h.solo, by rw [h.times, alike.times]; rfl, ?_, .inr ⟨?_, ?_⟩⟩
  · rw [dropped]
    exact h.kept
  · rw [now]
    refine ⟨?_, alike.symm.trans (alike_jumpTo mirrors.stage t), ⟨a, part, h.solo⟩, ?_, ?_⟩
    · rw [setup_round]
      exact mirrors.setup
    · rw [left]
      exact mirrors.interventions
    · rw [dropped]
      exact mirrors.dropped
  · obtain ⟨-, ahead⟩ := (settled.next? going).1 next
    rw [now]
    exact Nat.le_of_lt (Nat.lt_of_le_of_lt before ahead)

/-- An instant of the track is played in both performances. -/
theorem goOn_of_mem (settled : p.IsSettled) (settled' : q.IsSettled) (h : Accompanies i a p q)
    (busy : ¬ a.isOver = true) (going : ¬ p.isOver = true) (next : p.next? = some t)
    (due : t ∈ q.dueTimes) : ∃ a', Accompanies i a' p.goOn q.goOn := by
  obtain ⟨mirrors, before⟩ := h.going.resolve_left busy
  have going' : ¬ q.isOver = true := by rwa [h.isOver_eq busy]
  obtain ⟨⟨-, first⟩, ahead⟩ := (settled.next? going).1 next
  -- what comes first for all tracks comes first for one of them that has it
  have next' : q.next? = some t := (settled'.next? going').2
    ⟨⟨due, fun u hu => first u (h.mem_dueTimes busy hu)⟩, Nat.lt_of_le_of_lt before ahead⟩
  rw [goOn_of_next?_eq_some going next, goOn_of_next?_eq_some going' next']
  have jumped : Mirrors i (p.jumpTo t) (q.jumpTo t) :=
    ⟨mirrors.setup, alike_jumpTo mirrors.stage t, mirrors.players, mirrors.interventions,
      mirrors.dropped⟩
  have steady : (p.jumpTo t).setup.renderer.IsSteady := settled.steady
  exact (jumped.round steady).accompanies

/-- A report of the whole has the entry of the part. -/
theorem result? (h : Accompanies i a p q) {r : Result} {report : Report}
    (result : p.result? = some r) (reported : r.report = some report) :
    ∃ r' entry, q.result? = some r' ∧ r'.report = some ⟨[entry]⟩ ∧
      report.tracks[i]? = some entry ∧
      (r'.calls.filter (·.track == 0)).map (fun call => (call.instant, call.request)) =
        (r.calls.filter (·.track == i)).map fun call => (call.instant, call.request) := by
  obtain ⟨complete, kept, rfl⟩ := isComplete_of_reported result reported
  obtain ⟨-, -, calls⟩ := isOver_of_result? result
  have atEnd : a.isOver = true := List.all_eq_true.1 complete a h.part.mem
  have complete' := h.isComplete_of_isOver atEnd
  have kept' : q.dropped = false :=
    Bool.eq_false_iff.2 fun dropped => by rw [h.kept dropped] at kept; cases kept
  refine ⟨_, a.report, result?_of_isComplete complete' kept', ?_, ?_, ?_⟩
  · rw [report, h.solo]
    rfl
  · rw [report, List.getElem?_map, h.part.getElem?]
    rfl
  · rw [calls]
    exact h.times

/-- The next instant of the whole is the next one of the part, or comes before it. -/
theorem goOn_cases (settled : p.IsSettled) (settled' : q.IsSettled) (h : Accompanies i a p q)
    (busy : ¬ a.isOver = true) (going : ¬ p.isOver = true) (next : p.next? = some t) :
    (∃ a', Accompanies i a' p.goOn q.goOn) ∨
      Accompanies i a p.goOn q ∧ ∀ u ∈ q.dueTimes, t < u := by
  obtain ⟨⟨-, first⟩, -⟩ := (settled.next? going).1 next
  by_cases due : t ∈ q.dueTimes
  · exact .inl (h.goOn_of_mem settled settled' busy going next due)
  · have later : ∀ u ∈ q.dueTimes, t < u := fun u hu =>
      Nat.lt_of_le_of_ne (first u (h.mem_dueTimes busy hu)) fun eq => due (eq ▸ hu)
    exact .inr ⟨h.goOn_of_lt settled busy going next later, later⟩

/-- One instant of the whole is one instant of the part, or none. -/
theorem goOn (settled : p.IsSettled) (settled' : q.IsSettled) (h : Accompanies i a p q) :
    ∃ a', Accompanies i a' p.goOn q ∨ Accompanies i a' p.goOn q.goOn := by
  by_cases ended : p.isOver = true
  · rw [Performance.goOn_of_isOver ended]
    exact ⟨a, .inl h⟩
  rcases next : p.next? with - | t
  · rw [goOn_of_next?_eq_none next]
    exact ⟨a, .inl h⟩
  by_cases atEnd : a.isOver = true
  · exact ⟨a, .inl (h.goOn_of_isOver settled atEnd ended next)⟩
  rcases h.goOn_cases settled settled' atEnd ended next with ⟨a', both⟩ | ⟨one, -⟩
  · exact ⟨a', .inr both⟩
  · exact ⟨a, .inl one⟩

end Accompanies

variable {setup : Setup σ} {sheet : Sheet} {t : Track}

/-- The two performances start together. -/
theorem exists_accompanies_start (steady : setup.renderer.IsSteady)
    (track : sheet.tracks[i]? = some t) :
    ∃ a, Accompanies i a (ofSheet setup sheet).start (ofSheet setup ⟨[t]⟩).start := by
  have part : IsPart i (.ofTrack i t) (ofSheet setup sheet).players := by
    have players (k : Nat) : (ofSheet setup sheet).players[k]? =
        sheet.tracks[k]?.map (.ofTrack k) := List.getElem?_mapIdx
    refine isPart_of_getElem? (by rw [players, track]; rfl) fun k q found => ?_
    rw [players] at found
    obtain ⟨u, -, rfl⟩ := Option.map_eq_some_iff.1 found
    rfl
  have both : Mirrors i (ofSheet setup sheet) (ofSheet setup ⟨[t]⟩) :=
    ⟨rfl, ⟨rfl, rfl, rfl⟩, ⟨_, part, rfl⟩, rfl, rfl⟩
  have whole : ¬ (ofSheet setup sheet).isComplete = true := fun complete => by
    have atEnd : (Player.ofTrack i t).isOver = true := List.all_eq_true.1 complete _ part.mem
    cases atEnd
  have alone : ¬ (ofSheet setup ⟨[t]⟩).isComplete = true := nofun
  rw [start, start, if_neg whole, if_neg alone]
  exact (both.round steady).accompanies

/-- After any number of instants, the track is where it is after some alone. -/
theorem exists_accompanies_run (steady : setup.renderer.IsSteady)
    (track : sheet.tracks[i]? = some t) (n : Nat) :
    ∃ m a, Accompanies i a ((ofSheet setup sheet).start.run n)
      ((ofSheet setup ⟨[t]⟩).start.run m) := by
  induction n with
  | zero => exact ⟨0, exists_accompanies_start steady track⟩
  | succ n ih =>
      obtain ⟨m, a, both⟩ := ih
      obtain ⟨a', one | two⟩ := both.goOn (isSettled_run steady sheet n) (isSettled_run steady _ m)
      · exact ⟨m, a', by rwa [run_succ]⟩
      · exact ⟨m + 1, a', by rwa [run_succ, run_succ]⟩

/-- The whole comes to the next instant of the part, if nobody in it waits for a turn that does
not come. -/
theorem Accompanies.exists_run (steady : setup.renderer.IsSteady)
    (waits : ∀ n, ¬ ((ofSheet setup sheet).start.run n).isOver = true →
      ∀ q ∈ ((ofSheet setup sheet).start.run n).players, ∀ w, q.phase = .throttled w →
        ((ofSheet setup sheet).start.run n).stage.now < w) {n m : Nat}
    (h : Accompanies i a ((ofSheet setup sheet).start.run n) ((ofSheet setup ⟨[t]⟩).start.run m)) :
    ∃ n' a', Accompanies i a' ((ofSheet setup sheet).start.run n')
      ((ofSheet setup ⟨[t]⟩).start.run (m + 1)) := by
  have settled' := isSettled_run steady ⟨[t]⟩ m
  rw [run_succ]
  generalize (ofSheet setup ⟨[t]⟩).start.run m = q at *
  by_cases ended : q.isOver = true
  · exact ⟨n, a, by rwa [Performance.goOn_of_isOver ended]⟩
  rcases next : q.next? with - | t'
  · exact ⟨n, a, by rwa [goOn_of_next?_eq_none next]⟩
  obtain ⟨⟨due, first⟩, -⟩ := (settled'.next? ended).1 next
  -- the clock of the whole comes nearer to the instant
  induction ahead : t' - ((ofSheet setup sheet).start.run n).stage.now using Nat.strong_induction_on
    generalizing n a with
  | _ d ih =>
      have settled := isSettled_run steady sheet n
      have waits := waits n
      have succ := run_succ n (ofSheet setup sheet).start
      generalize (ofSheet setup sheet).start.run n = p at *
      have busy : ¬ a.isOver = true := fun atEnd =>
        ended (isOver_of_isComplete (h.isComplete_of_isOver atEnd))
      have going : ¬ p.isOver = true := by rwa [← h.isOver_eq busy]
      obtain ⟨t, least⟩ := Option.isSome_iff_exists.1
        (List.isSome_min?_of_mem (h.mem_dueTimes busy due))
      have later : p.stage.now < t :=
        (settled.played.resolve_left going).ahead_of_waits (waits going) t (List.min?_mem least)
      have next := (settled.next? going).2 ⟨List.min?_eq_some_iff.1 least, later⟩
      rcases h.goOn_cases settled settled' busy going next with ⟨a', both⟩ | ⟨one, before⟩
      · exact ⟨n + 1, a', succ ▸ both⟩
      · have now : p.goOn.stage.now = t := by
          rw [goOn_of_next?_eq_some going next]
          exact now_round _
        have soon := before t' due
        rw [← succ] at one now
        exact ih (t' - t) (by omega) one (by rw [now])

end Performance

/-- In a rehearsal, calls leave the token alone if none is to fire it. -/
theorem Rehearsal.isSteady {h : Rehearsal} (none : h.cancelOnCall = none) :
    h.renderer.IsSteady := by
  refine ⟨fun _ _ r => if h.refusing.any r.frequency.same then .none else some (h.toneFor r),
    fun calls x r => ⟨?_, rfl⟩⟩
  show (h.cancelOnCall == some (calls + 1)) = false
  rw [none]
  rfl

end SongSheet.Playback
