/-
SongSheet/Proofs/Playback/Outside.lean

What was done to a performance from outside by an instant.

The interventions of a setup stand in any order, and a performance comes to all of them in the
order of their instants.  So in an instant that is played, the token is fired if one of those that
are not later fires it (`Setup.IsOpenAt`), and the bus is as the last of them that sets the volume
has left it (`Setup.busAt`).  This is what `Performance.IsCurrent` says; it holds after the
interventions of each instant (`IsCurrent.intervene_jumpTo`).
-/
import SongSheet.Proofs.Playback.Waiting

namespace SongSheet

open Playback

/-- The bus after an intervention. -/
def MasterBus.undergo (b : MasterBus) : Intervention → MasterBus
  | .setVolume x => .withVolume x
  | .cancel | .drop => b

namespace Playback

variable {σ : Type}

/-! ### The interventions by an instant -/

namespace Setup

/-- The token is not fired by an instant, neither before the performance nor from outside. -/
def IsOpenAt (setup : Setup σ) (w : Nat) : Prop :=
  setup.cancelled = false ∧ ∀ d ∈ setup.interventions, d.2 = .cancel → w < d.1

instance (setup : Setup σ) (w : Nat) : Decidable (setup.IsOpenAt w) :=
  inferInstanceAs (Decidable (_ ∧ _))

/-- The later one of two changes of the volume, if it is one by the instant `w`. -/
def laterChange (w : Nat) (last : Nat × MasterBus) : Nat × Intervention → Nat × MasterBus
  | (t, .setVolume x) => if last.1 ≤ t ∧ t ≤ w then (t, .withVolume x) else last
  | _ => last

/-- The bus as it was set last by an instant.  Of the changes of one instant, the last one in the
list counts. -/
def busAt (setup : Setup σ) (w : Nat) : MasterBus :=
  (setup.interventions.foldl (laterChange w) (0, setup.bus)).2

/-- A token that is fired stays fired. -/
theorem IsOpenAt.mono {setup : Setup σ} {v w : Nat} (h : setup.IsOpenAt w) (earlier : v ≤ w) :
    setup.IsOpenAt v :=
  ⟨h.1, fun d hd fires => Nat.lt_of_le_of_lt earlier (h.2 d hd fires)⟩

variable {t : Nat}

/-- After a change at an instant, others count that are made at the same instant. -/
theorem foldl_laterChange_self (l : List (Nat × Intervention)) (b : MasterBus) :
    (l.foldl (laterChange t) (t, b)).2 =
      (l.filter (·.1 = t)).foldl (fun b d => b.undergo d.2) b := by
  induction l generalizing b with
  | nil => rfl
  | cons d l ih =>
      obtain ⟨s, i⟩ := d
      rw [List.foldl_cons]
      by_cases here : s = t
      · rw [List.filter_cons_of_pos (by simpa using here), List.foldl_cons]
        cases i with
        | setVolume x =>
            rw [laterChange, if_pos ⟨Nat.le_of_eq here.symm, Nat.le_of_eq here⟩, here]
            exact ih _
        | cancel | drop => exact ih b
      · rw [List.filter_cons_of_neg (by simpa using here)]
        cases i with
        | setVolume x =>
            rw [laterChange, if_neg fun h => here (Nat.le_antisymm h.2 h.1), ih]
        | cancel | drop => exact ih b

/-- From an instant to a later one, when there are no interventions in between: the bus is changed
by those at the later one. -/
theorem foldl_laterChange {now : Nat} (later : now < t) {l : List (Nat × Intervention)}
    (apart : ∀ d ∈ l, now < d.1 → t ≤ d.1) {last : Nat × MasterBus} (before : last.1 ≤ now) :
    (l.foldl (laterChange t) last).2 =
      (l.filter (·.1 = t)).foldl (fun b d => b.undergo d.2) (l.foldl (laterChange now) last).2 := by
  induction l generalizing last with
  | nil => rfl
  | cons d l ih =>
      obtain ⟨first, others⟩ := List.forall_mem_cons.1 apart
      obtain ⟨s, i⟩ := d
      rw [List.foldl_cons, List.foldl_cons]
      cases i with
      | cancel | drop =>
          by_cases here : s = t
          · rw [List.filter_cons_of_pos (by simpa using here)]
            exact ih others before
          · rw [List.filter_cons_of_neg (by simpa using here)]
            exact ih others before
      | setVolume x =>
          rw [laterChange, laterChange]
          rcases Nat.lt_trichotomy s t with past | rfl | ahead
          · -- both take a change into account that is not later than the first instant
            have early : s ≤ now := Nat.le_of_not_lt fun h => Nat.not_le_of_lt past (first h)
            rw [List.filter_cons_of_neg (by simpa using Nat.ne_of_lt past)]
            by_cases next : last.1 ≤ s
            · rw [if_pos ⟨next, Nat.le_of_lt past⟩, if_pos ⟨next, early⟩]
              exact ih others early
            · rw [if_neg fun h => next h.1, if_neg fun h => next h.1]
              exact ih others before
          · -- a change at the later instant replaces all before
            rw [if_pos ⟨Nat.le_trans before (Nat.le_of_lt later), Nat.le_refl s⟩,
              if_neg fun h => Nat.not_le_of_lt later h.2, foldl_laterChange_self,
              List.filter_cons_of_pos (by simp)]
            rfl
          · rw [if_neg fun h => Nat.not_le_of_lt ahead h.2,
              if_neg fun h => Nat.not_le_of_lt (Nat.lt_trans later ahead) h.2,
              List.filter_cons_of_neg (by simpa using Nat.ne_of_gt ahead)]
            exact ih others before

end Setup

/-! ### Performances and their interventions -/

namespace Performance

/-- What interventions do to the stage. -/
theorem stage_foldl_undergo (due : List (Nat × Intervention)) (p : Performance σ) :
    (due.foldl (fun p d => p.undergo d.2) p).stage =
      { p.stage with
        cancelled := p.stage.cancelled || due.any (·.2 = .cancel)
        bus := due.foldl (fun b d => b.undergo d.2) p.stage.bus } := by
  induction due generalizing p with
  | nil => rw [List.foldl_nil, List.any_nil, Bool.or_false, List.foldl_nil]
  | cons d due ih =>
      rw [List.foldl_cons, ih, List.any_cons, List.foldl_cons, ← Bool.or_assoc]
      cases d.2 with
      | cancel => rw [decide_eq_true rfl, Bool.or_true]; rfl
      | setVolume | drop => rw [decide_eq_false nofun, Bool.or_false]; rfl

/-- What was done from outside to a performance is what its setup says for the present instant. -/
structure IsCurrent (setup : Setup σ) (p : Performance σ) : Prop where
  plays : p.setup = setup
  coming : p.interventions = setup.interventions.filter (p.stage.now < ·.1)
  token : p.stage.cancelled = false ↔ setup.IsOpenAt p.stage.now
  bus : p.stage.bus = setup.busAt p.stage.now

variable {setup : Setup σ} {p p' : Performance σ} {t : Nat}

/-- None of the interventions that are due fires the token. -/
theorem any_cancel_eq_false_iff {l : List (Nat × Intervention)} :
    ((l.filter (·.1 ≤ t)).any (·.2 = .cancel)) = false ↔ ∀ d ∈ l, d.2 = .cancel → t < d.1 := by
  simp only [List.any_eq_false, List.mem_filter, decide_eq_true_eq, and_imp]
  exact forall₂_congr fun d _ => by rw [imp_not_comm, Nat.not_le]

/-- It is so after the interventions of the first instant. -/
theorem isCurrent_intervene_ofSheet (setup : Setup σ) (sheet : Sheet) :
    (ofSheet setup sheet).intervene.IsCurrent setup where
  plays := (intervene_spec _).2.1
  coming := by
    rw [intervene_eq, interventions_foldl_undergo, now_foldl_undergo]
    rfl
  token := by
    rw [intervene_eq, stage_foldl_undergo, Bool.or_eq_false_iff, any_cancel_eq_false_iff]
    rfl
  bus := by
    have due : setup.interventions.filter (·.1 ≤ 0) = setup.interventions.filter (·.1 = 0) :=
      List.filter_congr fun d _ => decide_eq_decide.2 Nat.le_zero
    rw [intervene_eq, stage_foldl_undergo, Setup.busAt]
    show ((setup.interventions.filter (·.1 ≤ 0)).foldl (fun b d => b.undergo d.2) setup.bus) = _
    rw [due]
    exact (Setup.foldl_laterChange_self setup.interventions setup.bus).symm

namespace IsCurrent

/-- And after those of an instant that comes next. -/
theorem intervene_jumpTo (h : p.IsCurrent setup) (later : p.stage.now < t)
    (first : ∀ d ∈ p.interventions, t ≤ d.1) : (p.jumpTo t).intervene.IsCurrent setup where
  plays := (intervene_spec _).2.1.trans h.plays
  coming := by
    rw [intervene_eq, interventions_foldl_undergo, now_foldl_undergo]
    show p.interventions.filter (t < ·.1) = setup.interventions.filter (t < ·.1)
    rw [h.coming, List.filter_filter]
    refine List.filter_congr fun d _ => ?_
    by_cases ahead : t < d.1
    · simp [ahead, Nat.lt_trans later ahead]
    · simp [ahead]
  token := by
    rw [intervene_eq, stage_foldl_undergo, Bool.or_eq_false_iff, any_cancel_eq_false_iff]
    show p.stage.cancelled = false ∧ (∀ d ∈ p.interventions, d.2 = .cancel → t < d.1) ↔
      setup.IsOpenAt t
    rw [h.token, h.coming]
    constructor
    · rintro ⟨unfired, next⟩
      exact ⟨unfired.1, fun d hd fires =>
        next d (List.mem_filter.2 ⟨hd, decide_eq_true (unfired.2 d hd fires)⟩) fires⟩
    · exact fun unfired => ⟨unfired.mono (Nat.le_of_lt later),
        fun d hd => unfired.2 d (List.mem_of_mem_filter hd)⟩
  bus := by
    have apart : ∀ d ∈ setup.interventions, p.stage.now < d.1 → t ≤ d.1 := fun d hd ahead =>
      first d (h.coming ▸ List.mem_filter.2 ⟨hd, decide_eq_true ahead⟩)
    have due : p.interventions.filter (·.1 ≤ t) = setup.interventions.filter (·.1 = t) := by
      rw [h.coming, List.filter_filter]
      refine List.filter_congr fun d hd => ?_
      rw [← Bool.decide_and]
      refine decide_eq_decide.2 ⟨fun due => Nat.le_antisymm due.1 (apart d hd due.2), ?_⟩
      rintro rfl
      exact ⟨Nat.le_refl _, later⟩
    -- the interventions that are due are those at `t`
    rw [intervene_eq, stage_foldl_undergo, Setup.busAt]
    show ((p.interventions.filter (·.1 ≤ t)).foldl (fun b d => b.undergo d.2) p.stage.bus) = _
    rw [due, h.bus]
    exact (Setup.foldl_laterChange later apart (Nat.zero_le _)).symm

/-- What takes no time, and leaves the token and the bus, leaves it so. -/
theorem of_sameMoment (h : p.IsCurrent setup) (moment : p.stage.SameMoment True p'.stage)
    (same : p'.setup = p.setup) (coming : p'.interventions = p.interventions)
    (bus : p'.stage.bus = p.stage.bus) : p'.IsCurrent setup where
  plays := same.trans h.plays
  coming := by rw [coming, h.coming, moment.now]
  token := by rw [moment.cancelled trivial, moment.now, h.token]
  bus := by rw [bus, moment.now, h.bus]

theorem conclude (h : p.IsCurrent setup) : p.conclude.IsCurrent setup := by
  rw [Performance.conclude]
  split
  · exact ⟨h.plays, h.coming, h.token, h.bus⟩
  · exact h

end IsCurrent

end Performance

end Playback

end SongSheet
