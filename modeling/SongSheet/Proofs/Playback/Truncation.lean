/-
SongSheet/Proofs/Playback/Truncation.lean

To stop a playback is to cut off what it still would ask for.

A performance that is to be stopped at an instant goes on like one that is not, up to
that instant (`round_stoppedAt`).  From then on the stopped one asks for nothing: it
was given up, or the token is fired and no player is in the middle of a note
(`round_of_stop`).  What the other one asks for is asked for later
(`exists_calls_goOn`).  So the two are always related by `IsCutAt`, and what the
stopped one asks for is what the other asks for before that instant.
-/
import SongSheet.Proofs.Playback.Fired

namespace SongSheet.Playback

open Relation

variable {σ : Type}

/-! ### The calls of a round -/

/-- The part of a member in an instant. -/
theorem Member.Goes.during {config : Config} {renderer : Renderer σ} {a b : Stage σ × Member}
    (h : Goes config renderer a b) : ∃ new, a.1.During b.1 new := by
  induction h with
  | refl => exact ⟨[], Stage.during_of_eq rfl rfl rfl⟩
  | tail _ change ih =>
      obtain ⟨earlier, before⟩ := ih
      cases change with
      | step step =>
          rcases step.call_or_quiet with ⟨during, -⟩ | ⟨call, -, during, -⟩
          · exact ⟨_, before.trans during⟩
          · exact ⟨_, before.trans during⟩
      | sound sounds =>
          obtain ⟨endings, older, fresh, -, -, rfl, -⟩ := sounds
          exact ⟨_, before.trans (Stage.during_of_eq rfl rfl rfl)⟩
      | told es => exact ⟨_, before.trans (Stage.during_tellAll _ es)⟩

namespace Performance

/-- The part of all players in an instant. -/
theorem exists_during_visit {config : Config} {renderer : Renderer σ}
    (act : Stage σ → Player → Stage σ × Player)
    (h : ∀ s p, Member.Goes config renderer (s, ⟨p, .rest⟩) ((act s p).1, ⟨(act s p).2, .rest⟩))
    (s : Stage σ) (ps : List Player) :
    ∃ new, s.During (visit act s ps).1 new := by
  induction ps generalizing s with
  | nil => exact ⟨[], Stage.during_of_eq rfl rfl rfl⟩
  | cons p ps ih =>
      obtain ⟨first, during⟩ := (h s p).during
      obtain ⟨others, after⟩ := ih (act s p).1
      exact ⟨_, during.trans after⟩

/-- All that players and tones do is done in the present instant. -/
theorem exists_during_proceed (p : Performance σ) :
    ∃ new, p.stage.During p.proceed.stage new := by
  let config := p.setup.config
  let renderer := p.setup.renderer
  obtain ⟨_, older⟩ := @exists_during_visit _ config renderer (fun s q => q.soundOlder s)
    (fun s q => q.goes_soundOlder s) p.stage p.players
  obtain ⟨_, players⟩ := exists_during_visit (fun s q => q.play config renderer s)
    (fun s q => q.goes_play s) _ _
  obtain ⟨_, all⟩ := @exists_during_visit _ config renderer (fun s q => q.soundAll s)
    (fun s q => q.goes_soundAll s) _ _
  exact ⟨_, older.trans (players.trans all)⟩

theorem during_conclude (p : Performance σ) : p.stage.During p.conclude.stage [] := by
  rw [conclude]
  split
  · exact p.stage.during_tellAll [_]
  · exact Stage.during_of_eq rfl rfl rfl

@[simp] theorem now_foldl_undergo (due : List (Nat × Intervention)) (p : Performance σ) :
    (due.foldl (fun p d => p.undergo d.2) p).stage.now = p.stage.now := by
  induction due generalizing p with
  | nil => rfl
  | cons d due ih =>
      rw [List.foldl_cons, ih]
      cases d.2 <;> rfl

/-- A round takes no time. -/
theorem now_round (p : Performance σ) : p.round.stage.now = p.stage.now := by
  have intervened : p.intervene.stage.now = p.stage.now := now_foldl_undergo _ _
  rw [round]
  split
  · exact intervened
  · obtain ⟨new, during⟩ := exists_during_proceed p.intervene
    rw [(during_conclude _).now, during.now, intervened]

/-- The calls of a round are made in its instant. -/
theorem exists_calls_round (p : Performance σ) :
    ∃ new, p.round.stage.calls = new ++ p.stage.calls ∧
      ∀ call ∈ new, call.instant = p.stage.now := by
  have intervened : p.intervene.stage.now = p.stage.now := now_foldl_undergo _ _
  have calls := (intervene_spec p).2.2.calls
  rw [round]
  split
  · exact ⟨[], calls, fun call hc => absurd hc List.not_mem_nil⟩
  · obtain ⟨new, during⟩ := exists_during_proceed p.intervene
    refine ⟨new, ?_, fun call hc => (during.instants call hc).trans intervened⟩
    rw [(during_conclude _).calls, List.nil_append, during.calls, calls]

/-! ### Falling still -/

/-- The performance asks for nothing any more. -/
def IsStill (p : Performance σ) : Prop := p.isOver = true ∨ p.stage.cancelled = true

/-- Neither a performance that was given up nor a fired token comes back. -/
theorem foldl_undergo_still (due : List (Nat × Intervention)) {p : Performance σ}
    (h : p.dropped = true ∨ p.stage.cancelled = true) :
    (due.foldl (fun p d => p.undergo d.2) p).dropped = true ∨
      (due.foldl (fun p d => p.undergo d.2) p).stage.cancelled = true := by
  induction due generalizing p with
  | nil => exact h
  | cons d due ih =>
      have next : (p.undergo d.2).dropped = true ∨ (p.undergo d.2).stage.cancelled = true := by
        cases d.2 with
        | cancel => exact .inr rfl
        | setVolume => exact h
        | drop => exact .inl rfl
      exact ih next

/-- Once the token is fired, no player calls. -/
theorem proceed_of_cancelled {p : Performance σ} (fired : p.stage.cancelled = true) :
    p.proceed.conclude.stage.calls = p.stage.calls ∧
      p.proceed.conclude.stage.cancelled = true := by
  have leaves : (Ensemble.ofPerformance p).Leaves 0 [] := by
    refine ⟨fired, ?_⟩
    intro j m hm
    obtain ⟨q, -, rfl⟩ := List.mem_map.1 (List.mem_of_getElem? hm)
    rw [ite_self]
    exact Member.keeps_of_rest rfl
  exact leaves.quiet ((Ensemble.moves_proceed rfl).trans Ensemble.moves_conclude)

/-- A round in which the performance is given up or the token is fired makes no calls. -/
theorem round_of_intervene {p : Performance σ}
    (h : p.intervene.dropped = true ∨ p.intervene.stage.cancelled = true) :
    p.round.stage.calls = p.stage.calls ∧ p.round.IsStill := by
  have intervened : p.intervene.stage.calls = p.stage.calls := (intervene_spec p).2.2.calls
  rw [round]
  by_cases dropped : p.intervene.dropped = true
  · rw [if_pos dropped]
    exact ⟨intervened, .inl (isOver_of_dropped dropped)⟩
  · rw [if_neg dropped]
    obtain ⟨calls, fired⟩ := proceed_of_cancelled (h.resolve_left dropped)
    exact ⟨calls.trans intervened, .inr fired⟩

/-- Once the token is fired, a round makes no calls. -/
theorem round_of_cancelled {p : Performance σ} (fired : p.stage.cancelled = true) :
    p.round.stage.calls = p.stage.calls ∧ p.round.IsStill :=
  round_of_intervene (foldl_undergo_still _ (.inr fired))

end Performance

/-! ### Stopping -/

/-- With one more intervention. -/
def Setup.stoppedAt (setup : Setup σ) (T : Nat) (stop : Intervention) : Setup σ :=
  { setup with interventions := (T, stop) :: setup.interventions }

namespace Performance

/-- With one more intervention to come. -/
def stoppedAt (p : Performance σ) (T : Nat) (stop : Intervention) : Performance σ :=
  { p with setup := p.setup.stoppedAt T stop, interventions := (T, stop) :: p.interventions }

variable {p q : Performance σ} {T : Nat} {stop : Intervention}

theorem foldl_undergo_stoppedAt (due : List (Nat × Intervention)) (p : Performance σ) :
    due.foldl (fun p d => p.undergo d.2) (p.stoppedAt T stop) =
      (due.foldl (fun p d => p.undergo d.2) p).stoppedAt T stop := by
  induction due generalizing p with
  | nil => rfl
  | cons d due ih =>
      have here : (p.stoppedAt T stop).undergo d.2 = (p.undergo d.2).stoppedAt T stop := by
        cases d.2 <;> rfl
      rw [List.foldl_cons, List.foldl_cons, here, ih]

theorem intervene_eq (p : Performance σ) :
    p.intervene = (p.interventions.filter (·.1 ≤ p.stage.now)).foldl (fun p d => p.undergo d.2)
      { p with interventions := p.interventions.filter (p.stage.now < ·.1) } := rfl

/-- Before its instant, a stop is not due. -/
theorem intervene_stoppedAt (before : p.stage.now < T) :
    (p.stoppedAt T stop).intervene = p.intervene.stoppedAt T stop := by
  have due : (p.stoppedAt T stop).interventions.filter (·.1 ≤ (p.stoppedAt T stop).stage.now) =
      p.interventions.filter (·.1 ≤ p.stage.now) :=
    List.filter_cons_of_neg fun due => Nat.not_le_of_lt before (of_decide_eq_true due)
  have later : (p.stoppedAt T stop).interventions.filter ((p.stoppedAt T stop).stage.now < ·.1) =
      (T, stop) :: p.interventions.filter (p.stage.now < ·.1) :=
    List.filter_cons_of_pos (decide_eq_true before)
  rw [intervene_eq, intervene_eq, due, later]
  exact foldl_undergo_stoppedAt _ { p with
    interventions := p.interventions.filter (p.stage.now < ·.1) }

theorem conclude_stoppedAt : (p.stoppedAt T stop).conclude = p.conclude.stoppedAt T stop := by
  rw [conclude, conclude]
  by_cases complete : p.isComplete
  · rw [if_pos complete, if_pos (show (p.stoppedAt T stop).isComplete from complete)]
    rfl
  · rw [if_neg complete, if_neg (show ¬ (p.stoppedAt T stop).isComplete from complete)]

/-- Before the instant of a stop, a round is what it is without. -/
theorem round_stoppedAt (before : p.stage.now < T) :
    (p.stoppedAt T stop).round = p.round.stoppedAt T stop := by
  rw [round, round, intervene_stoppedAt before]
  by_cases dropped : p.intervene.dropped
  · rw [if_pos dropped, if_pos (show (p.intervene.stoppedAt T stop).dropped from dropped)]
  · rw [if_neg dropped, if_neg (show ¬ (p.intervene.stoppedAt T stop).dropped from dropped)]
    exact conclude_stoppedAt (p := p.intervene.proceed)

/-- In its instant, a stop is the first intervention that is due. -/
theorem due_stoppedAt (here : p.stage.now = T) :
    (p.stoppedAt T stop).interventions.filter (·.1 ≤ (p.stoppedAt T stop).stage.now) =
      (T, stop) :: p.interventions.filter (·.1 ≤ p.stage.now) :=
  List.filter_cons_of_pos (decide_eq_true (Nat.le_of_eq here.symm))

/-- In the instant of a stop the performance asks for nothing, and falls still. -/
theorem round_of_stop (here : p.stage.now = T) (stops : stop = .cancel ∨ stop = .drop) :
    (p.stoppedAt T stop).round.stage.calls = p.stage.calls ∧
      (p.stoppedAt T stop).round.IsStill := by
  apply round_of_intervene
  rw [intervene_eq, due_stoppedAt here, List.foldl_cons]
  apply foldl_undergo_still
  rcases stops with rfl | rfl
  · exact .inr rfl
  · exact .inl rfl

/-- What comes next: the same as without the stop if that lies before it, nothing in
both cases, or the stop. -/
theorem next?_stoppedAt (before : p.stage.now < T) (stop : Intervention) :
    (∃ t, t < T ∧ p.next? = some t ∧ (p.stoppedAt T stop).next? = some t) ∨
    (p.next? = none ∧ (p.stoppedAt T stop).next? = none) ∨
    ((p.stoppedAt T stop).next? = some T ∧ ∀ t, p.next? = some t → T ≤ t) := by
  have due : (p.stoppedAt T stop).dueTimes = T :: p.dueTimes := rfl
  by_cases woken : p.stage.cancelled && p.players.any (·.isThrottled)
  · -- players are woken by the token, in the present instant
    refine .inl ⟨p.stage.now, before, ?_, ?_⟩
    · rw [next?, if_pos woken]
    · rw [next?]
      exact if_pos woken
  · have next : p.next? = p.dueTimes.min?.filter (p.stage.now < ·) := by
      rw [next?, if_neg woken]
    have next' : (p.stoppedAt T stop).next? = (T :: p.dueTimes).min?.filter (p.stage.now < ·) := by
      rw [next?, ← due]
      exact if_neg woken
    rw [next, next', List.min?_cons]
    rcases p.dueTimes.min? with - | t
    · exact .inr (.inr ⟨by simp [before], fun t ht => by cases ht⟩)
    · by_cases soon : t < T
      · by_cases ahead : p.stage.now < t
        · exact .inl ⟨t, soon, by simp [ahead],
            by simp [Nat.min_eq_right (Nat.le_of_lt soon), ahead]⟩
        · -- a player waits for an instant that is past, and both stand still
          have past : t ≤ p.stage.now := Nat.le_of_not_lt ahead
          exact .inr (.inl ⟨by simp [past], by simp [Nat.min_eq_right (Nat.le_of_lt soon), past]⟩)
      · have late : T ≤ t := Nat.le_of_not_lt soon
        refine .inr (.inr ⟨by simp [Nat.min_eq_left late, before], fun u hu => ?_⟩)
        obtain ⟨rfl, -⟩ : t = u ∧ _ := by simpa using hu
        exact late

/-! ### Two performances -/

/-- Plays the next instant, if there is one. -/
def goOn (p : Performance σ) : Performance σ := p.advance.getD p

theorem run_succ (n : Nat) (p : Performance σ) : p.run (n + 1) = (p.run n).goOn := by
  rw [run_add, goOn]
  cases h : (p.run n).advance with
  | none => rw [run, h]; rfl
  | some q => rw [run, h]; rfl

theorem goOn_of_isOver (h : p.isOver = true) : p.goOn = p := by
  rw [goOn, advance, if_pos h]
  rfl

/-- A performance that is over stays as it is. -/
theorem run_of_isOver (ended : p.isOver = true) (n : Nat) : p.run n = p := by
  induction n with
  | zero => rfl
  | succ n ih => rw [run_succ, ih, goOn_of_isOver ended]

/-- So a run is the same from there on. -/
theorem run_eq_of_isOver {m n : Nat} (ended : (p.run m).isOver = true) (later : m ≤ n) :
    p.run n = p.run m := by
  rw [← Nat.add_sub_cancel' later, run_add, run_of_isOver ended]

theorem goOn_of_next?_eq_none (h : p.next? = none) : p.goOn = p := by
  rw [goOn, advance, h]
  split <;> rfl

theorem goOn_of_next?_eq_some {t : Nat} (going : ¬ p.isOver = true) (h : p.next? = some t) :
    p.goOn = (p.jumpTo t).round := by
  rw [goOn, advance, if_neg going, h]
  rfl

/-- The next instant, if there is one, and what is played in it. -/
theorem goOn_cases (p : Performance σ) :
    p.goOn = p ∨ ∃ t, p.next? = some t ∧ p.goOn = (p.jumpTo t).round := by
  by_cases ended : p.isOver = true
  · exact .inl (goOn_of_isOver ended)
  · rcases h : p.next? with - | t
    · exact .inl (goOn_of_next?_eq_none h)
    · exact .inr ⟨t, rfl, goOn_of_next?_eq_some ended h⟩

/-- A still performance asks for nothing and stays still. -/
theorem IsStill.goOn (h : p.IsStill) : p.goOn.stage.calls = p.stage.calls ∧ p.goOn.IsStill := by
  rcases goOn_cases p with same | ⟨t, -, eq⟩
  · rw [same]
    exact ⟨rfl, h⟩
  · rcases h with ended | fired
    · rw [goOn_of_isOver ended]
      exact ⟨rfl, .inl ended⟩
    · rw [eq]
      exact round_of_cancelled (p := p.jumpTo t) fired

/-- What a performance asks for in its next instant is asked for in that instant. -/
theorem exists_calls_goOn (p : Performance σ) :
    ∃ new, p.goOn.stage.calls = new ++ p.stage.calls ∧
      (∀ call ∈ new, p.goOn.stage.now = call.instant) ∧ p.stage.now ≤ p.goOn.stage.now ∧
      (p.goOn = p ∨ p.next? = some p.goOn.stage.now) := by
  rcases goOn_cases p with same | ⟨t, next, eq⟩
  · rw [same]
    exact ⟨[], rfl, nofun, Nat.le_refl _, .inl rfl⟩
  · obtain ⟨new, calls, instants⟩ := exists_calls_round (p.jumpTo t)
    have now : p.goOn.stage.now = t := by rw [eq, now_round, jumpTo]
    refine ⟨new, eq ▸ calls, fun call hc => now.trans (instants call hc).symm, ?_, ?_⟩
    · rw [now]
      exact now_le_of_next? next
    · exact .inr (now ▸ next)

/-- A performance, and what becomes of it with a stop: up to the stop they are the same, and
from then on the stopped one has called for what the other called for before. -/
inductive IsCutAt (T : Nat) (stop : Intervention) : Performance σ → Performance σ → Prop
  | before {p : Performance σ} : p.stage.now < T → (∀ call ∈ p.stage.calls, call.instant < T) →
      IsCutAt T stop p (p.stoppedAt T stop)
  | after {p q : Performance σ} : q.stage.calls = p.stage.calls.filter (·.instant < T) →
      q.IsStill → T ≤ p.stage.now ∨ p.goOn = p → IsCutAt T stop p q

theorem IsCutAt.calls (h : IsCutAt T stop p q) :
    q.stage.calls = p.stage.calls.filter (·.instant < T) := by
  cases h with
  | before _ earlier =>
      exact (List.filter_eq_self.2 fun call hc => decide_eq_true (earlier call hc)).symm
  | after calls => exact calls

/-- Calls that are made later do not count. -/
theorem filter_append_of_late {new : List Call} (calls : List Call)
    (late : ∀ call ∈ new, T ≤ call.instant) :
    (new ++ calls).filter (·.instant < T) = calls.filter (·.instant < T) := by
  have none : new.filter (·.instant < T) = [] :=
    List.filter_eq_nil_iff.2 fun call hc soon =>
      Nat.not_lt_of_le (late call hc) (of_decide_eq_true soon)
  rw [List.filter_append, none, List.nil_append]

/-- The instant that comes next leaves two performances related that were the same. -/
theorem isCutAt_goOn_of_before (stops : stop = .cancel ∨ stop = .drop) (before : p.stage.now < T)
    (earlier : ∀ call ∈ p.stage.calls, call.instant < T) :
    IsCutAt T stop p.goOn (p.stoppedAt T stop).goOn := by
  obtain ⟨new, calls, instants, -, moved⟩ := p.exists_calls_goOn
  by_cases ended : p.isOver = true
  · rw [goOn_of_isOver ended, goOn_of_isOver (p := p.stoppedAt T stop) ended]
    exact .before before earlier
  rcases next?_stoppedAt before stop with ⟨t, soon, next, next'⟩ | ⟨next, next'⟩ | ⟨next', late⟩
  · -- both play an instant before the stop
    have eq : p.goOn = (p.jumpTo t).round := goOn_of_next?_eq_some ended next
    have eq' : (p.stoppedAt T stop).goOn = (p.jumpTo t).round.stoppedAt T stop :=
      (goOn_of_next?_eq_some (p := p.stoppedAt T stop) ended next').trans
        (round_stoppedAt (p := p.jumpTo t) soon)
    have now : p.goOn.stage.now = t := by rw [eq, now_round, jumpTo]
    rw [eq', ← eq]
    refine .before (now ▸ soon) ?_
    intro call hc
    rw [calls] at hc
    rcases List.mem_append.1 hc with hc | hc
    · rw [← instants call hc, now]
      exact soon
    · exact earlier call hc
  · rw [goOn_of_next?_eq_none next, goOn_of_next?_eq_none next']
    exact .before before earlier
  · -- one is stopped, and the other goes on later, if at all
    have eq' : (p.stoppedAt T stop).goOn = ((p.jumpTo T).stoppedAt T stop).round :=
      goOn_of_next?_eq_some (p := p.stoppedAt T stop) ended next'
    obtain ⟨calls', still⟩ := round_of_stop (p := p.jumpTo T) rfl stops
    have all : p.stage.calls.filter (·.instant < T) = p.stage.calls :=
      List.filter_eq_self.2 fun call hc => decide_eq_true (earlier call hc)
    rw [eq']
    rcases moved with same | next
    · refine .after ?_ still (.inr (by rw [same, same]))
      rw [same, all]
      exact calls'
    · refine .after ?_ still (.inl (late _ next))
      rw [calls, filter_append_of_late _ fun call hc => instants call hc ▸ late _ next, all]
      exact calls'

/-- Two performances stay related. -/
theorem IsCutAt.goOn (stops : stop = .cancel ∨ stop = .drop) (h : IsCutAt T stop p q) :
    IsCutAt T stop p.goOn q.goOn := by
  cases h with
  | before before earlier => exact isCutAt_goOn_of_before stops before earlier
  | after cut still later =>
      obtain ⟨calls', still'⟩ := still.goOn
      obtain ⟨new, calls, instants, onward, -⟩ := p.exists_calls_goOn
      -- the stopped one asks for nothing, the other one for nothing, or late
      rcases later with late | same
      · refine .after ?_ still' (.inl (Nat.le_trans late onward))
        rw [calls', cut, calls, filter_append_of_late _ fun call hc =>
          Nat.le_trans late (instants call hc ▸ onward)]
      · refine .after ?_ still' (.inr (by rw [same, same]))
        rw [calls', cut, same]

/-- Two performances are related after their first instant. -/
theorem isCutAt_start (stops : stop = .cancel ∨ stop = .drop) (calls : p.stage.calls = [])
    (now : p.stage.now = 0) : IsCutAt T stop p.start (p.stoppedAt T stop).start := by
  rw [start, start]
  by_cases complete : p.isComplete = true
  · -- without tracks nothing is played, stopped or not
    rw [if_pos complete, if_pos (show (p.stoppedAt T stop).isComplete = true from complete),
      conclude_stoppedAt]
    have ended := isOver_conclude complete
    have none : p.conclude.stage.calls = [] := p.during_conclude.calls.trans calls
    refine .after ?_ (.inl ended) (.inr (goOn_of_isOver ended))
    show p.conclude.stage.calls = _
    rw [none]
    rfl
  · rw [if_neg complete, if_neg (show ¬ (p.stoppedAt T stop).isComplete = true from complete)]
    obtain ⟨new, calls', instants⟩ := exists_calls_round p
    rw [calls, List.append_nil] at calls'
    rcases Nat.eq_zero_or_pos T with rfl | later
    · -- stopped before it could ask for anything
      obtain ⟨none, still⟩ := round_of_stop now stops
      refine .after ?_ still (.inl (Nat.zero_le _))
      rw [none, calls]
      exact (List.filter_eq_nil_iff.2 fun call _ => by simp).symm
    · have before : p.stage.now < T := now ▸ later
      rw [round_stoppedAt before]
      refine .before (by rwa [now_round]) ?_
      intro call hc
      rw [instants call (calls' ▸ hc)]
      exact before

/-- The run with a stop is the run without, cut at the stop. -/
theorem isCutAt_run (setup : Setup σ) (sheet : Sheet) (stops : stop = .cancel ∨ stop = .drop)
    (n : Nat) :
    IsCutAt T stop ((ofSheet setup sheet).start.run n)
      ((ofSheet (setup.stoppedAt T stop) sheet).start.run n) := by
  induction n with
  | zero => exact isCutAt_start (p := ofSheet setup sheet) stops rfl rfl
  | succ n ih =>
      rw [run_succ, run_succ]
      exact ih.goOn stops

end Performance

open Performance Ensemble

/-- To stop is to cut off.  A playback that is stopped from outside, by the token or by giving
it up, asks for what the same playback asks for before that instant when it is not stopped.
When a call fires the token, and tracks take turns, the calls after it are for the rest
of its note: all of it, unless the track breaks down on the way. -/
theorem stop_cuts_off (setup : Setup σ) (sheet : Sheet) :
    (∀ T stop, stop = .cancel ∨ stop = .drop → ∀ n,
      ((ofSheet (setup.stoppedAt T stop) sheet).start.run n).stage.calls =
        ((ofSheet setup sheet).start.run n).stage.calls.filter (·.instant < T)) ∧
    (∀ c, Reached setup sheet inTurn c → ∀ before call after,
      c.stage.calls.reverse = before ++ call :: after → call.cancels = true →
      ∃ left m, Within sheet before call after left ∧ c.members[call.track]? = some m ∧
        (m.place = .rest → left = [] ∨ m.player.phase = .crashed)) ∧
    ∀ n, Reached setup sheet inTurn (ofPerformance ((ofSheet setup sheet).start.run n)) := by
  refine ⟨?_, ?_, reached_run setup sheet⟩
  · intro T stop stops n
    exact (isCutAt_run setup sheet stops n).calls
  intro c reached before call after calls cancels
  obtain ⟨left, within, leaves⟩ := leaves_of_reached reached calls cancels
  obtain ⟨t, -, -, -, track, -⟩ := id within
  have bound : call.track < c.members.length :=
    length_of_reached reached ▸ (List.getElem?_eq_some_iff.1 track).1
  have found := List.getElem?_eq_getElem bound
  have keeps := leaves.keeps _ _ found
  rw [if_pos rfl] at keeps
  exact ⟨left, _, within, found, keeps.of_rest⟩

/-- The duet, with a first call that fires the token. -/
def struck : Setup Nat :=
  { staged with renderer := Rehearsal.renderer ⟨.timed, [], [], [], some 1⟩ }

/-- The call for a pitch of the chord that the melody starts with. -/
def chordCall (pitch : Nat) (cancels : Bool) : Call where
  track := 0
  instant := 0
  request := ⟨.ofNat pitch, 250 * Clock.millisecond, .triangle, .ofNat 0, .ofNat 1, 0⟩
  gain := MasterBus.initial.gain
  cancels := cancels

/-- The duet given up after a tenth of a second; and the duet in which the lower pitch of the
chord fires the token, so that only the upper one is still called for. -/
theorem stop_cuts_off_duet :
    ((ofSheet (staged.stoppedAt (100 * Clock.millisecond) .drop) duet).start.run 8).stage.calls =
      ((ofSheet staged duet).start.run 8).stage.calls.filter (·.instant < 100 * Clock.millisecond) ∧
    ((ofSheet struck duet).start.run 8).stage.calls.reverse =
      [] ++ chordCall 440 true :: [chordCall 550 false] ∧
    Within duet [] (chordCall 440 true) [chordCall 550 false] [] := by
  obtain ⟨cuts, -, -⟩ := stop_cuts_off staged duet
  obtain ⟨-, fires, reached⟩ := stop_cuts_off struck duet
  have calls : ((ofSheet struck duet).start.run 8).stage.calls.reverse =
      [] ++ chordCall 440 true :: [chordCall 550 false] := by decide +kernel
  refine ⟨cuts _ .drop (.inr rfl) 8, calls, ?_⟩
  obtain ⟨left, m, within, found, rest⟩ :=
    fires _ (reached 8) [] (chordCall 440 true) [chordCall 550 false]
      (by rw [stage_ofPerformance, calls]) rfl
  have place : m.place = .rest := eq_of_map_member found (by decide +kernel)
  have phase : m.player.phase = .finished :=
    eq_of_map_member (f := (·.player.phase)) found (by decide +kernel)
  rcases rest place with rfl | crashed
  · exact within
  · rw [phase] at crashed
    cases crashed

end SongSheet.Playback
