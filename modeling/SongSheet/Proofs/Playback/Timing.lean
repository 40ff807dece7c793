/-
SongSheet/Proofs/Playback/Timing.lean

Ensembles on a clock that stands still while a player can go on.

In an ensemble the clock may go on at any time.  Here it does not: time passes only
while all members let it, each up to the instant of its next turn
(`Ensemble.Move.OnTime`).  The order in which members act within an instant stays
open.  Performances keep time in this sense (`reachedOnTime_run`), and so what is proved
of all ensembles that keep time holds of them (`TimedInvariant.all_of_reached`).
-/
import SongSheet.Proofs.Playback.Waiting

namespace SongSheet.Playback

open Clock Relation

variable {σ : Type}

/-! ### Moves that keep time -/

/-- A member has nothing to do before an instant. -/
structure Member.LetsPass (later : Nat) (m : Member) : Prop where
  rests : m.place = .rest
  started : m.player.phase ≠ .ready
  waits : ∀ w, m.player.phase = .throttled w → later ≤ w

/-- A step takes no time, and leaves a token fired. -/
theorem Member.Step.onward {config : Config} {renderer : Renderer σ} {s s' : Stage σ}
    {m m' : Member} (step : m.Step config renderer s s' m') :
    s'.now = s.now ∧ (s.cancelled = true → s'.cancelled = true) := by
  rcases step.call_or_quiet with ⟨during, -⟩ | ⟨call, -, during, -⟩
  all_goals
    refine ⟨during.now, fun fired => ?_⟩
    rw [during.cancelled, fired, Bool.true_or]

/-- Neither do the ends of tones take time, and they leave the token alone. -/
theorem Player.Sounds.onward {p p' : Player} {s s' : Stage σ} (sounds : p.Sounds s s' p') :
    s'.now = s.now ∧ (s.cancelled = true → s'.cancelled = true) := by
  obtain ⟨endings, older, fresh, -, -, rfl, -⟩ := sounds
  exact ⟨rfl, id⟩

namespace Ensemble

/-- A move takes time only if all members let it pass. -/
def OnTime (c c' : Ensemble σ) : Prop :=
  c'.stage.now = c.stage.now ∨ ∀ m ∈ c.members, m.LetsPass c'.stage.now

/-- What an ensemble that keeps time can get to from the start of a sheet. -/
def ReachedOnTime (setup : Setup σ) (sheet : Sheet) (may : Ensemble σ → Nat → Prop) :
    Ensemble σ → Prop :=
  ReflTransGen (fun c c' => Move setup may c c' ∧ c.OnTime c')
    (ofPerformance (.ofSheet setup sheet))

variable {setup : Setup σ} {sheet : Sheet} {may : Ensemble σ → Nat → Prop} {c c' : Ensemble σ}

/-- To keep time is one way to go on. -/
theorem ReachedOnTime.reached (h : ReachedOnTime setup sheet may c) :
    Reached setup sheet may c := ReflTransGen.mono (fun _ _ move => move.1) _ _ h

/-- What keeps time in turn keeps time in some order. -/
theorem ReachedOnTime.free (h : ReachedOnTime setup sheet inTurn c) :
    ReachedOnTime setup sheet anyone c :=
  ReflTransGen.mono (fun _ _ move => ⟨move.1.free, move.2⟩) _ _ h

/-- The clock does not go back, and a token that is fired stays fired. -/
theorem Move.monotone (h : Move setup may c c') :
    c.stage.now ≤ c'.stage.now ∧ (c.stage.cancelled = true → c'.stage.cancelled = true) := by
  cases h with
  | step _ _ step => exact ⟨Nat.le_of_eq step.onward.1.symm, step.onward.2⟩
  | sound _ sounds => exact ⟨Nat.le_of_eq sounds.onward.1.symm, sounds.onward.2⟩
  | meanwhile meanwhile => exact ⟨meanwhile.now_le, meanwhile.cancelled⟩

/-- Moves that take no time in all take none each. -/
theorem onTime_of_moves (h : ReflTransGen (Move setup may) c c')
    (same : c'.stage.now = c.stage.now) :
    ReflTransGen (fun c c' => Move setup may c c' ∧ c.OnTime c') c c' := by
  have later {a b : Ensemble σ} (h : ReflTransGen (Move setup may) a b) :
      a.stage.now ≤ b.stage.now := by
    induction h with
    | refl => exact Nat.le_refl _
    | tail _ move ih => exact Nat.le_trans ih move.monotone.1
  induction h with
  | refl => exact .refl
  | @tail b d moves move ih =>
      have before : b.stage.now = c.stage.now :=
        Nat.le_antisymm (same ▸ move.monotone.1) (later moves)
      exact (ih before).tail ⟨move, .inl (same.trans before.symm)⟩

end Ensemble

/-! ### Performances keep time -/

namespace Performance

open Ensemble

variable {p : Performance σ}

/-- The next instant is not after the turn of a player. -/
theorem next?_le_of_throttled {q : Player} (hq : q ∈ p.players) {w : Nat}
    (waiting : q.phase = .throttled w) {t : Nat} (next : p.next? = some t) :
    t = p.stage.now ∨ t ≤ w := by
  rw [next?] at next
  split at next
  · exact .inl (Option.some.inj next).symm
  · obtain ⟨first, -⟩ := Option.filter_eq_some_iff.1 next
    exact .inr ((List.min?_eq_some_iff.1 first).2 w (mem_dueTimes_of_throttled hq waiting))

/-- A performance keeps time when the clock goes on. -/
theorem onTime_jumpTo (played : p.IsPlayed) {t : Nat} (next : p.next? = some t) :
    (ofPerformance p).OnTime (ofPerformance (p.jumpTo t)) := by
  by_cases now : t = p.stage.now
  · exact .inl now
  · refine .inr fun m hm => ?_
    obtain ⟨q, hq, rfl⟩ := List.mem_map.1 hm
    refine ⟨rfl, (played.players q hq).started, fun w waiting => ?_⟩
    exact (next?_le_of_throttled hq waiting next).resolve_left now

/-- A performance stands, after any number of instants, where an ensemble in turn that keeps
time can get to. -/
theorem reachedOnTime_run (setup : Setup σ) (sheet : Sheet) (n : Nat) :
    ReachedOnTime setup sheet inTurn
      (ofPerformance ((Performance.ofSheet setup sheet).start.run n)) := by
  induction n with
  | zero =>
      show ReachedOnTime setup sheet inTurn (ofPerformance (Performance.ofSheet setup sheet).start)
      rw [start]
      split
      · exact onTime_of_moves moves_conclude (during_conclude _).now
      · exact onTime_of_moves (moves_round rfl) (now_round _)
  | succ n ih =>
      obtain ⟨same, played⟩ := isPlayed_run setup sheet n
      rw [run_succ]
      generalize (Performance.ofSheet setup sheet).start.run n = p at ih same played ⊢
      by_cases ended : p.isOver = true
      · rw [goOn_of_isOver ended]
        exact ih
      rcases next : p.next? with - | t
      · rw [goOn_of_next?_eq_none next]
        exact ih
      · rw [goOn_of_next?_eq_some ended next]
        have meanwhile : p.stage.Meanwhile (p.jumpTo t).stage :=
          ⟨now_le_of_next? next, id, rfl, rfl⟩
        have jump : Move setup inTurn (ofPerformance p) (ofPerformance (p.jumpTo t)) :=
          .meanwhile (c := ofPerformance p) meanwhile
        -- the jump is the one move that takes time; a round takes none
        have onTime := onTime_jumpTo (played.resolve_left ended) next
        exact (ih.tail ⟨jump, onTime⟩).trans
          (onTime_of_moves (moves_round (p := p.jumpTo t) same) (now_round _))

end Performance

/-! ### Invariants -/

/-- A property of a member, its track and the stage that is kept by what the member does, by
what others do in the meantime, and by time that the member lets pass. -/
structure TimedInvariant (setup : Setup σ) (P : Track → Stage σ → Member → Prop) : Prop where
  initial : ∀ {i t s}, s.now = 0 → s.callsOf i = [] → P t s ⟨.ofTrack i t, .rest⟩
  step : ∀ {t s s' m m'}, m.Step setup.config setup.renderer s s' m' → P t s m → P t s' m'
  sound : ∀ {t s s' m p'}, m.player.Sounds s s' p' → P t s m → P t s' ⟨p', m.place⟩
  frame : ∀ {t s s' m}, s.SameFor m.player.index s' →
    s'.now = s.now ∨ m.LetsPass s'.now → (s.cancelled = true → s'.cancelled = true) →
    P t s m → P t s' m

namespace TimedInvariant

open Ensemble

variable {setup : Setup σ} {P : Track → Stage σ → Member → Prop}

/-- A property that is kept until the token is fired. -/
theorem untilFired
    (initial : ∀ {i t s}, s.now = 0 → s.callsOf i = [] → P t s ⟨.ofTrack i t, .rest⟩)
    (step : ∀ {t s s' m m'}, m.Step setup.config setup.renderer s s' m' → s.cancelled = false →
      P t s m → P t s' m')
    (sound : ∀ {t s s' m p'}, m.player.Sounds s s' p' → P t s m → P t s' ⟨p', m.place⟩)
    (frame : ∀ {t s s' m}, s.SameFor m.player.index s' → s'.now = s.now ∨ m.LetsPass s'.now →
      P t s m → P t s' m) :
    TimedInvariant setup fun t s m => s.cancelled = true ∨ P t s m where
  initial now calls := .inr (initial now calls)
  step {t s s' m m'} taken h := by
    rcases Bool.eq_false_or_eq_true s.cancelled with fired | unfired
    · exact .inl (taken.onward.2 fired)
    · have unbroken : ¬ s.cancelled = true := Bool.eq_false_iff.1 unfired
      exact .inr (step taken unfired (h.resolve_left unbroken))
  sound sounds h := h.imp sounds.onward.2 (sound sounds)
  frame same time fired h := h.imp fired (frame same time)

/-- A move that keeps time keeps an invariant of all members. -/
theorem all_move (inv : TimedInvariant setup P) {may : Ensemble σ → Nat → Prop} {sheet : Sheet}
    {c c' : Ensemble σ} (h : Move setup may c c') (time : c.OnTime c')
    (all : MemberInvariant.All P sheet c) : MemberInvariant.All P sheet c' := by
  have fired := h.monotone.2
  cases h with
  | step _ found step =>
      exact all.set found step.index (fun t => inv.step step) fun t q hq =>
        inv.frame (step.sameFor hq) (.inl step.onward.1) fired
  | sound found sounds =>
      have own (t : Track) := inv.sound (t := t) sounds
      have now := sounds.onward.1
      obtain ⟨endings, older, fresh, track, -, rfl, rfl⟩ := sounds
      exact all.set found rfl own fun t q hq =>
        inv.frame (Stage.sameFor_settle _ track hq) (.inl now) fired
  | meanwhile h =>
      intro i m hm
      obtain ⟨rfl, holds⟩ := all i m hm
      have passes := time.imp_right fun lets => lets m (List.mem_of_getElem? hm)
      exact ⟨rfl, fun t ht => inv.frame (Stage.sameFor_of_eq h.calls h.endings _) passes
        h.cancelled (holds t ht)⟩

/-- An invariant holds of all members of an ensemble that keeps time. -/
theorem all_of_reached (inv : TimedInvariant setup P) {may : Ensemble σ → Nat → Prop}
    {sheet : Sheet} {c : Ensemble σ} (h : ReachedOnTime setup sheet may c) :
    MemberInvariant.All P sheet c := by
  induction h with
  | refl => exact .start setup sheet fun i t => inv.initial rfl rfl
  | tail _ move ih => exact inv.all_move move.1 move.2 ih

/-- An invariant holds of the member of a track. -/
theorem member (inv : TimedInvariant setup P) {may : Ensemble σ → Nat → Prop} {sheet : Sheet}
    {c : Ensemble σ} (h : ReachedOnTime setup sheet may c) {i : Nat} {t : Track}
    (track : sheet.tracks[i]? = some t) :
    ∃ m, c.members[i]? = some m ∧ m.player.index = i ∧ P t c.stage m :=
  (inv.all_of_reached h).member (length_of_reached h.reached) track

end TimedInvariant

end SongSheet.Playback
