/-
SongSheet/Proofs/Playback/RoundLimit.lean

How many instants a performance has left.

A performance goes on at an instant for one of four reasons: somebody intervenes, a player has
waited for a throttle tick, a tone has waited for a deadline, or the token wakes players that
wait.  Each of them comes up so many times only, and `Performance.left` adds up how often that
can still be: the interventions, the waits that players have left, and one for the token.  When
the clock jumps, one of them is used up, and a round brings about no others
(`Performance.left_goOn_lt`).

So no performance has more instants to be played than it is given (`Performance.goOn_roundLimit`),
and `perform` gives what comes of a performance whenever that comes to an end
(`perform_eq_some_iff`).
-/
import SongSheet.Proofs.Playback.Accord
import SongSheet.Proofs.Playback.Countdown
import SongSheet.Proofs.Playback.Throttle

namespace SongSheet.Playback

open Clock

variable {σ : Type}

namespace Performance

open Player

variable {config : Config} {renderer : Renderer σ} {setup : Setup σ} {sheet : Sheet}
  {p : Performance σ} {s : Stage σ} {ps : List Player} {now later n : Nat}

/-! ### Rounds -/

/-- All players together wait at most so often, and tones are as the renderer says. -/
structure KeepTo (config : Config) (renderer : Renderer σ) (now n : Nat) (ps : List Player) :
    Prop where
  tones : ∀ q ∈ ps, ∀ v ∈ q.ringing, v.tone.WaitsAtMost renderer.waits
  left : (ps.map (·.left config renderer now)).sum ≤ n

theorem keepTo_cons {q : Player} :
    KeepTo config renderer now n (q :: ps) ↔
      ∃ k m, q.KeepsTo config renderer now k ∧ KeepTo config renderer now m ps ∧ k + m ≤ n := by
  constructor
  · rintro ⟨tones, left⟩
    obtain ⟨first, others⟩ := List.forall_mem_cons.1 tones
    exact ⟨_, _, ⟨first, Nat.le_refl _⟩, ⟨others, Nat.le_refl _⟩, left⟩
  · rintro ⟨k, m, first, others, le⟩
    exact ⟨List.forall_mem_cons.2 ⟨first.tones, others.tones⟩,
      Nat.le_trans (Nat.add_le_add first.left others.left) le⟩

/-- A visit in which each player keeps to its number. -/
theorem KeepTo.visit {act : Stage σ → Player → Stage σ × Player} {quiet : Prop}
    (moment : ∀ (s : Stage σ) q, s.SameMoment quiet (act s q).1)
    (keeps : ∀ {s : Stage σ} {q k}, q.KeepsTo config renderer s.now k →
      (act s q).2.KeepsTo config renderer s.now k)
    (h : KeepTo config renderer s.now n ps) :
    KeepTo config renderer (visit act s ps).1.now n (visit act s ps).2 := by
  rw [(sameMoment_visit moment s ps).now]
  induction ps generalizing s n with
  | nil => exact h
  | cons q ps ih =>
      obtain ⟨k, m, first, others, le⟩ := keepTo_cons.1 h
      rw [← (moment s q).now] at others
      have others := ih others
      rw [(moment s q).now] at others
      exact keepTo_cons.2 ⟨k, m, keeps first, others, le⟩

theorem KeepTo.proceed (h : KeepTo p.setup.config p.setup.renderer p.stage.now n p.players) :
    KeepTo p.setup.config p.setup.renderer p.stage.now n p.proceed.players := by
  have older := h.visit (fun s q => q.sameMoment_soundOlder s) fun keeps => keeps.soundOlder
  have played := older.visit (fun s q => q.sameMoment_play p.setup s) fun keeps => keeps.play
  have all := played.visit (fun s q => q.sameMoment_soundAll s) fun keeps => keeps.soundAll
  rw [← (sameMoment_proceed p).now]
  exact all

/-- A round brings about no waits but those that are left. -/
theorem KeepTo.round (h : KeepTo p.setup.config p.setup.renderer p.stage.now n p.players) :
    KeepTo p.setup.config p.setup.renderer p.stage.now n p.round.players := by
  obtain ⟨players, setup, -⟩ := intervene_spec p
  have now : p.intervene.stage.now = p.stage.now := now_foldl_undergo _ _
  rw [← players, ← setup, ← now] at h
  rw [← setup, ← now, Performance.round]
  split
  · exact h
  · rw [players_conclude]
    exact h.proceed

/-- With the token fired, a round leaves nothing to be scheduled. -/
theorem isScheduled_proceed (fired : p.stage.cancelled = true) : p.proceed.IsScheduled := by
  let older := visit (fun s q => q.soundOlder s) p.stage p.players
  let played := visit (fun s q => q.play p.setup.config p.setup.renderer s) older.1 older.2
  have heard : p.stage.SameMoment True older.1 :=
    sameMoment_visit (fun s q => q.sameMoment_soundOlder s) _ _
  obtain ⟨-, idle⟩ : played.1.cancelled = true ∧
      ∀ q ∈ played.2, ∀ now cancelled, q.IsIdle now cancelled :=
    visit_spec (·.cancelled = true) (fun _ => True) _ (fun s q fired _ => play_of_fired fired)
      ((heard.cancelled trivial).trans fired) fun _ _ => trivial
  exact (visit_spec (fun _ => True) _ _
    (fun s q _ idle => ⟨trivial, isIdle_soundAll idle⟩) trivial idle).2

/-! ### Instants -/

/-- How often players and tones may still wait. -/
noncomputable def waitsLeft (p : Performance σ) : Nat :=
  (p.players.map (·.left p.setup.config p.setup.renderer p.stage.now)).sum

open Classical in
/-- How many instants a performance has left, at most. -/
noncomputable def left (p : Performance σ) : Nat :=
  p.interventions.length + p.waitsLeft + if p.IsScheduled then 0 else 1

/-- All tones are as the renderer says. -/
def IsBounded (p : Performance σ) : Prop :=
  ∀ q ∈ p.players, ∀ v ∈ q.ringing, v.tone.WaitsAtMost p.setup.renderer.waits

theorem IsBounded.keepTo (h : p.IsBounded) :
    KeepTo p.setup.config p.setup.renderer p.stage.now p.waitsLeft p.players :=
  ⟨h, Nat.le_refl _⟩

theorem IsBounded.round (h : p.IsBounded) : p.round.IsBounded := by
  rw [IsBounded, setup_round]
  exact h.keepTo.round.tones

theorem IsBounded.waitsLeft_round_le (h : p.IsBounded) : p.round.waitsLeft ≤ p.waitsLeft := by
  rw [waitsLeft, setup_round, now_round]
  exact h.keepTo.round.left

theorem waitsLeft_jumpTo_le {t : Nat} (onward : p.stage.now ≤ t) :
    (p.jumpTo t).waitsLeft ≤ p.waitsLeft :=
  List.sum_le_sum fun q _ => left_mono onward q

theorem waitsLeft_jumpTo_lt (h : p.IsBounded) {q : Player} (hq : q ∈ p.players) {w t : Nat}
    (wake : w ∈ q.wakes) (ticks : q.phase = .throttled w → p.setup.config.throttleTick ≠ 0)
    (before : p.stage.now < w) (due : w ≤ t) : (p.jumpTo t).waitsLeft < p.waitsLeft :=
  List.sum_lt_sum _ _ (fun q _ => left_mono (Nat.le_trans (Nat.le_of_lt before) due) q)
    ⟨q, hq, left_lt (h q hq) wake ticks before due⟩

/-- What is scheduled stays so, and so the token has no more to do than before. -/
theorem left_round_lt {t : Nat} (eq : p.goOn = (p.jumpTo t).round)
    (fewer : (p.jumpTo t).round.interventions.length + (p.jumpTo t).round.waitsLeft <
      p.interventions.length + p.waitsLeft) : p.goOn.left < p.left := by
  have scheduled : p.IsScheduled → p.goOn.IsScheduled := fun h => h.of_outlines h.goOn.2
  rw [← eq] at fewer
  rw [left, left]
  by_cases h : p.IsScheduled
  · rw [if_pos h, if_pos (scheduled h)]
    exact fewer
  · rw [if_neg h]
    split <;> omega

/-- With the token fired, a player that waits for its turn is woken, and with it the last. -/
theorem left_goOn_lt_of_fired (h : p.IsBounded) (played : p.IsPlayed) (going : ¬ p.isOver = true)
    (fired : p.stage.cancelled = true) (waits : p.players.any (·.isThrottled) = true) :
    p.goOn.left < p.left := by
  have kept : ¬ p.dropped = true := fun dropped => going (isOver_of_dropped dropped)
  have next : p.next? = some p.stage.now := by rw [next?, fired, waits]; rfl
  have none := intervene_of_lt played.interventions
  have eq : p.goOn = p.round := goOn_of_next?_eq_some going next
  have before : ¬ p.IsScheduled := by
    intro scheduled
    obtain ⟨q, hq, waits⟩ := List.any_eq_true.1 waits
    rw [isThrottled] at waits
    split at waits
    case h_1 w waiting => exact scheduled.phase_ne hq w waiting
    case h_2 => cases waits
  have after : p.round.IsScheduled := by
    rw [round, none, if_neg kept]
    intro q hq
    rw [players_conclude] at hq
    exact isScheduled_proceed fired q hq
  have interventions : p.round.interventions.length ≤ p.interventions.length := by
    rw [interventions_round]
    exact List.length_filter_le _ _
  have waitsLeft := h.waitsLeft_round_le
  rw [eq, left, left, if_pos after, if_neg before]
  omega

/-- With each instant that is played there is one less. -/
theorem left_goOn_lt (h : p.IsBounded) (played : p.isOver = true ∨ p.IsPlayed)
    (ticks : p.setup.config.throttleTick = 0 →
      ∀ q ∈ p.players, ∀ w, q.phase = .throttled w → w ≤ p.stage.now)
    (moves : p.goOn ≠ p) : p.goOn.left < p.left := by
  have going : ¬ p.isOver = true := fun ended => moves (goOn_of_isOver ended)
  have played := played.resolve_left going
  rcases goOn_cases p with same | ⟨t, next, eq⟩
  · exact absurd same moves
  rw [next?] at next
  split at next
  case isTrue woken =>
    obtain ⟨fired, waits⟩ := Bool.and_eq_true_iff.1 woken
    exact left_goOn_lt_of_fired h played going fired waits
  case isFalse =>
    obtain ⟨least, ahead⟩ := Option.filter_eq_some_iff.1 next
    have ahead : p.stage.now < t := of_decide_eq_true ahead
    have jumped : (p.jumpTo t).IsBounded := h
    have round := jumped.waitsLeft_round_le
    have jump := waitsLeft_jumpTo_le (Nat.le_of_lt ahead)
    have interventions : (p.jumpTo t).round.interventions = p.interventions.filter (t < ·.1) :=
      interventions_round _
    refine left_round_lt eq ?_
    rw [interventions]
    -- something is due at the instant: an intervention, or what somebody waits for
    rcases List.mem_append.1 (List.min?_mem least) with intervention | wake
    · obtain ⟨d, hd, rfl⟩ := List.mem_map.1 intervention
      have fewer : (p.interventions.filter (d.1 < ·.1)).length < p.interventions.length :=
        List.length_filter_lt_length_iff_exists.2 ⟨d, hd, by simp⟩
      omega
    · obtain ⟨q, hq, wake⟩ := List.mem_flatMap.1 wake
      have fewer := waitsLeft_jumpTo_lt h hq wake
        (fun waiting none => absurd (ticks none q hq t waiting) (Nat.not_le_of_lt ahead)) ahead
        (Nat.le_refl t)
      have all := List.length_filter_le (t < ·.1) p.interventions
      omega

/-! ### Whole performances -/

theorem isBounded_ofSheet (setup : Setup σ) (sheet : Sheet) : (ofSheet setup sheet).IsBounded := by
  intro q hq
  obtain ⟨i, bound, rfl⟩ := List.mem_mapIdx.1 hq
  exact nofun

/-- A sheet is given as many instants as it has at the start. -/
theorem left_ofSheet_lt (setup : Setup σ) (sheet : Sheet) :
    setup.interventions.length + (ofSheet setup sheet).waitsLeft + 1 < roundLimit setup sheet := by
  have one (i : Nat) (t : Track) : (Player.ofTrack i t).left setup.config setup.renderer 0 ≤
      lengthOf t / millisecond + 2 + setup.renderer.waits * t.pitchCount := by
    have ticks : (Player.ofTrack i t).waitsLeft setup.config 0 ≤ lengthOf t / millisecond + 1 := by
      rw [Player.waitsLeft]
      split
      · exact Nat.zero_le _
      · show (0 + lengthOf t) / millisecond + 1 - 0 / millisecond ≤ _
        rw [Nat.zero_add]
        exact Nat.sub_le _ _
    exact Nat.add_le_add_right (Nat.le_succ_of_le ticks) _
  have all (ts : List Track) (f : Nat → Track → Player) (n : Nat)
      (one : ∀ i t, (f i t).left setup.config setup.renderer 0 ≤
        lengthOf t / millisecond + 2 + setup.renderer.waits * t.pitchCount) :
      n + ((ts.mapIdx f).map (·.left setup.config setup.renderer 0)).sum ≤
        ts.foldr (fun t n => lengthOf t / millisecond + 2 +
          setup.renderer.waits * t.pitchCount + n) n := by
    induction ts generalizing f with
    | nil => exact Nat.le_refl _
    | cons t ts ih =>
        have first := one 0 t
        have others := ih (fun i => f (i + 1)) fun i => one (i + 1)
        rw [List.mapIdx_cons, List.map_cons, List.sum_cons, List.foldr_cons]
        omega
  have whole : setup.interventions.length + 2 + (ofSheet setup sheet).waitsLeft ≤
      roundLimit setup sheet := all sheet.tracks _ (setup.interventions.length + 2) one
  omega

/-- At first there are fewer left than it is given. -/
theorem left_start_lt (setup : Setup σ) (sheet : Sheet) :
    (ofSheet setup sheet).start.IsBounded ∧
      (ofSheet setup sheet).start.left < roundLimit setup sheet := by
  have bounded := isBounded_ofSheet setup sheet
  have le : (ofSheet setup sheet).start.IsBounded ∧
      (ofSheet setup sheet).start.interventions.length ≤ setup.interventions.length ∧
      (ofSheet setup sheet).start.waitsLeft ≤ (ofSheet setup sheet).waitsLeft := by
    rw [start]
    split
    · have same := (during_conclude (ofSheet setup sheet)).now
      rw [IsBounded, waitsLeft, setup_conclude, players_conclude, interventions_conclude, same]
      exact ⟨bounded, Nat.le_refl _, Nat.le_refl _⟩
    · refine ⟨bounded.round, ?_, bounded.waitsLeft_round_le⟩
      rw [interventions_round]
      exact List.length_filter_le _ _
  have given := left_ofSheet_lt setup sheet
  refine ⟨le.1, ?_⟩
  rw [left]
  split <;> omega

theorem isBounded_run (setup : Setup σ) (sheet : Sheet) (n : Nat) :
    ((ofSheet setup sheet).start.run n).IsBounded := by
  induction n with
  | zero => exact (left_start_lt setup sheet).1
  | succ n ih =>
      rw [run_succ]
      rcases goOn_cases ((ofSheet setup sheet).start.run n) with same | ⟨t, -, eq⟩
      · rwa [same]
      · rw [eq]
        exact IsBounded.round (p := ((ofSheet setup sheet).start.run n).jumpTo t) ih

/-- A performance stands still, or has one instant less left than before. -/
theorem goOn_eq_or_left_lt (setup : Setup σ) (sheet : Sheet) (n : Nat) :
    ((ofSheet setup sheet).start.run n).goOn = (ofSheet setup sheet).start.run n ∨
      ((ofSheet setup sheet).start.run (n + 1)).left <
        ((ofSheet setup sheet).start.run n).left := by
  obtain ⟨same, played⟩ := isPlayed_run setup sheet n
  refine or_iff_not_imp_left.2 fun moves => ?_
  rw [run_succ]
  refine left_goOn_lt (isBounded_run setup sheet n) played (fun none q hq w waiting => ?_) moves
  obtain ⟨i, found⟩ := List.mem_iff_getElem?.1 hq
  obtain ⟨found, waits⟩ := waits_ofPerformance found waiting
  rw [same] at none
  obtain ⟨-, origin⟩ := (reachedOnTime_run setup sheet n).waits_of_no_tick none ⟨_, found, waits⟩
  rw [origin]
  exact Nat.zero_le _

/-- A performance that is given its instants comes to stand still. -/
theorem goOn_roundLimit (setup : Setup σ) (sheet : Sheet) :
    ((ofSheet setup sheet).start.run (roundLimit setup sheet)).goOn =
      (ofSheet setup sheet).start.run (roundLimit setup sheet) := by
  have bound (n : Nat) :
      ((ofSheet setup sheet).start.run n).goOn = (ofSheet setup sheet).start.run n ∨
        n + ((ofSheet setup sheet).start.run n).left ≤ (ofSheet setup sheet).start.left := by
    induction n with
    | zero => exact .inr (Nat.le_of_eq (Nat.zero_add _))
    | succ n ih =>
        rcases goOn_eq_or_left_lt setup sheet n with still | fewer
        · rw [run_succ, still]
          exact .inl still
        · rcases ih with still | le
          · rw [run_succ, still]
            exact .inl still
          · exact .inr (by omega)
  have given := (left_start_lt setup sheet).2
  exact (bound _).resolve_right (by omega)

end Performance

open Performance

/-- A sheet is performed with a result if its performance comes to that after any number of
instants; the number that it is given suffices. -/
theorem perform_eq_some_iff {setup : Setup σ} {sheet : Sheet} {r : Result} :
    perform setup sheet = some r ↔
      ∃ n, ((ofSheet setup sheet).start.run n).result? = some r := by
  refine ⟨fun result => ⟨_, result⟩, ?_⟩
  rintro ⟨n, result⟩
  have limit := run_of_goOn_eq (goOn_roundLimit setup sheet)
  obtain ⟨ended, -⟩ := isOver_of_result? result
  rw [perform, ← limit n, ← run_add, Nat.add_comm, run_add, run_of_isOver ended]
  exact result

end SongSheet.Playback
