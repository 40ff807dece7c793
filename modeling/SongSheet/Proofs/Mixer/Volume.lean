/-
SongSheet/Proofs/Mixer/Volume.lean

What a bus makes of the volumes that are set.

The volume that is kept is the number asked for, bit for bit, where it lies between 0 and 1, the
nearer end of that range where it does not, an infinity included, and 0 for what is not a number
(`MasterBus.IsKept`).  So a volume always lies in the range, and the gain, its tenth rounded
once, between 0 and the gain of a bus that is as it came (`MasterBus.isGain_gain`).  Together with
the owners of the handles that says what every handle shows after any run
(`Mixer.volume_of_last_set`).
-/
import SongSheet.Proofs.Binary.Nearest
import SongSheet.Proofs.Mixer.Roster
import SongSheet.Proofs.Sheet.Playable

namespace SongSheet

namespace MasterBus

open Binary

/-- `v` is the volume that is kept of `x`. -/
inductive IsKept (x : Single) : Single → Prop
  | silent : x.isNaN = true → IsKept x (.zero false)
  | raised : x = .infinite true ∨ x.isFinite = true ∧ x.value < 0 → IsKept x (.zero false)
  | lowered : x = .infinite false ∨ x.isFinite = true ∧ 1 < x.value → IsKept x (.ofNat 1)
  | asAsked : x.isFinite = true → 0 ≤ x.value → x.value ≤ 1 → IsKept x x

variable {x v : Single} {b : MasterBus}

/-- Less than, for finite values. -/
theorem lt_iff_value_lt {y : Single} (hx : x.isFinite = true) (hy : y.isFinite = true) :
    x.lt y = true ↔ x.value < y.value := by
  rw [value_lt_iff, Binary.lt, isNaN_of_isFinite hx, isNaN_of_isFinite hy]
  simp

/-- A value that is neither finite nor an infinity is not a number. -/
theorem finite_or_infinite_or_isNaN (x : Single) :
    x.isFinite = true ∨ x = .infinite x.negative ∨ x.isNaN = true := by
  obtain ⟨negative, magnitude, small⟩ := x
  rcases Nat.lt_trichotomy magnitude Format.single.infinity with less | rfl | more
  · exact .inl (decide_eq_true less)
  · exact .inr (.inl rfl)
  · exact .inr (.inr (decide_eq_true more))

/-- What is kept. -/
theorem isKept_kept (x : Single) : IsKept x (kept x) := by
  have zero : (Binary.zero false : Single).isFinite = true := by decide +kernel
  have one : (Binary.ofNat 1 : Single).isFinite = true := by decide +kernel
  rcases finite_or_infinite_or_isNaN x with finite | infinite | silent
  · have number := isNaN_of_isFinite finite
    have low := lt_iff_value_lt finite zero
    have high := lt_iff_value_lt one finite
    rw [Settings.value_zero] at low
    rw [Settings.value_one] at high
    rw [kept, if_neg (by simp [number]), clamp]
    split
    case isTrue below => exact .raised (.inr ⟨finite, low.1 below⟩)
    case isFalse above =>
      have nonneg : 0 ≤ x.value := not_lt.1 fun less => above (low.2 less)
      split
      case isTrue above => exact .lowered (.inr ⟨finite, high.1 above⟩)
      case isFalse below => exact .asAsked finite nonneg (not_lt.1 fun more => below (high.2 more))
  · rw [infinite]
    cases x.negative with
    | false =>
        have top : kept (.infinite false) = .ofNat 1 := by decide +kernel
        rw [top]
        exact .lowered (.inl rfl)
    | true =>
        have bottom : kept (.infinite true) = .zero false := by decide +kernel
        rw [bottom]
        exact .raised (.inl rfl)
  · rw [kept, if_pos silent]
    exact .silent silent

/-- A volume in the range that a bus has. -/
structure IsVolume (v : Single) : Prop where
  finite : v.isFinite = true
  nonneg : 0 ≤ v.value
  le_one : v.value ≤ 1

theorem isVolume_zero : IsVolume (.zero false) where
  finite := by decide +kernel
  nonneg := Settings.value_zero.ge
  le_one := by
    rw [Settings.value_zero]
    norm_num

theorem isVolume_one : IsVolume (.ofNat 1) where
  finite := by decide +kernel
  nonneg := by
    rw [Settings.value_one]
    norm_num
  le_one := Settings.value_one.le

/-- What is kept is in the range. -/
theorem IsKept.isVolume (h : IsKept x v) : IsVolume v := by
  cases h with
  | silent => exact isVolume_zero
  | raised => exact isVolume_zero
  | lowered => exact isVolume_one
  | asAsked finite nonneg le_one => exact ⟨finite, nonneg, le_one⟩

/-! ### The gain -/

/-- The gain of a volume in the range. -/
structure IsGain (v g : Single) : Prop where
  /-- It is the tenth of the volume, rounded once. -/
  closest : Binary.IsClosest (v.value / 10) g
  sign : g.negative = v.negative
  between : 0 ≤ g.value ∧ g.value ≤ MasterBus.initial.gain.value

/-- A volume in the range that has a minus sign is zero. -/
theorem IsVolume.units_eq_zero (h : IsVolume v) (minus : v.negative = true) : v.units = 0 := by
  have pos := cast_oneUnits_pos Format.single
  have nonneg := h.nonneg
  rw [value_eq, minus, if_pos rfl] at nonneg
  by_contra some
  have units : (0 : ℚ) < v.units / Format.single.oneUnits :=
    div_pos (Nat.cast_pos.2 (Nat.pos_of_ne_zero some)) pos
  linarith

/-- Its units are no more than those of one. -/
theorem IsVolume.units_le (h : IsVolume v) : v.units ≤ Format.single.oneUnits := by
  have pos := cast_oneUnits_pos Format.single
  cases minus : v.negative with
  | true =>
      rw [h.units_eq_zero minus]
      exact Nat.zero_le _
  | false =>
      have le_one := h.le_one
      rw [value_eq, minus, if_neg Bool.false_ne_true, one_mul, div_le_one pos] at le_one
      exact_mod_cast le_one

/-- The gain of a bus that is as it came is a tenth, rounded up. -/
theorem oneUnits_le_initial_gain :
    Format.single.oneUnits ≤ MasterBus.initial.gain.units * attenuation := by
  decide +kernel

theorem gain_eq (h : IsVolume b.volume) :
    b.gain = .round b.volume.negative b.volume.units attenuation := if_pos h.finite

/-- No tenth of a volume is rounded to more than that gain. -/
theorem IsVolume.nearest_le (h : IsVolume v) :
    Format.single.nearest v.units attenuation ≤ MasterBus.initial.gain.magnitude :=
  Format.nearest_le (by decide) (Nat.le_trans h.units_le oneUnits_le_initial_gain)

/-- The sign makes no difference to the gain. -/
theorem value_gain (h : IsVolume b.volume) :
    b.gain.value = Format.single.units (Format.single.nearest b.volume.units attenuation) /
      Format.single.oneUnits := by
  rw [value_eq, gain_eq h, negative_round, units_round]
  cases minus : b.volume.negative with
  | false => rw [if_neg Bool.false_ne_true, one_mul]
  | true =>
      -- zero, and its tenth
      have zero : Format.single.nearest b.volume.units attenuation ≤ 0 := by
        apply Format.nearest_le (by decide)
        rw [h.units_eq_zero minus]
        exact Nat.zero_le _
      rw [Nat.le_zero.1 zero, Format.units_zero]
      simp

/-- The gain of a volume in the range is one. -/
theorem isGain_gain (h : IsVolume b.volume) : IsGain b.volume b.gain := by
  refine ⟨?_, ?_, ?_⟩
  · have finite : Format.single.nearest b.volume.units attenuation < Format.single.infinity :=
      Nat.lt_of_le_of_lt h.nearest_le (by decide +kernel)
    have closest := isClosest_round b.volume.negative (by decide : 0 < attenuation)
      (by decide +kernel) finite
    have ten : (attenuation : ℚ) = 10 := by norm_num [attenuation]
    have quotient : b.volume.value / 10 = (if b.volume.negative then -1 else 1) *
        ((b.volume.units : ℚ) / attenuation / Format.single.oneUnits) := by
      rw [value_eq, mul_div_assoc, div_right_comm, ten]
    rw [gain_eq h, quotient]
    exact closest
  · rw [gain_eq h, negative_round]
  · have units : (Format.single.units (Format.single.nearest b.volume.units attenuation) : ℚ) ≤
        MasterBus.initial.gain.units := Format.single.cast_units_strictMono.monotone h.nearest_le
    have whole : MasterBus.initial.gain.value =
        MasterBus.initial.gain.units / Format.single.oneUnits := by
      rw [value_eq, if_neg (by decide +kernel), one_mul]
    rw [value_gain h, whole]
    constructor
    · exact div_nonneg (Nat.cast_nonneg _) (cast_oneUnits_pos _).le
    · exact div_le_div_of_nonneg_right units (cast_oneUnits_pos _).le

end MasterBus

/-! ### Runs -/

namespace Mixer

open MasterBus

/-- The volume that a bus shows when volumes were set: what is kept of the last one, or the one
it came with. -/
theorem volume_busAfter (volumes : List Single) :
    match volumes.getLast? with
    | none => (Roster.busAfter .initial volumes).volume = .ofNat 1
    | some x => IsKept x (Roster.busAfter .initial volumes).volume := by
  rw [Roster.busAfter]
  cases volumes.getLast? with
  | none => rfl
  | some x =>
      show IsKept x (MasterBus.withVolume x).volume
      rw [volume_withVolume]
      exact isKept_kept x

/-- So it is in the range. -/
theorem isVolume_busAfter (volumes : List Single) :
    IsVolume (Roster.busAfter .initial volumes).volume := by
  have volume := volume_busAfter volumes
  cases last : volumes.getLast? with
  | none =>
      rw [last] at volume
      rw [volume]
      exact isVolume_one
  | some x =>
      rw [last] at volume
      exact volume.isVolume

/-- What every handle shows after any run.  There is a bus behind it just if the roster has an
owner for it.  The volume of the bus is what is kept of the last volume that was set through any
handle of that owner, or 1 if none was; it is a number between 0 and 1; its gain is a tenth of it
in single precision, and no larger than that of a bus that is as it came.  A volume that is set
next through a handle of another owner, or of none, leaves the bus as it is, bit for bit; through
a handle of the same owner, it is the one that is kept. -/
theorem volume_of_last_set (actions : List Action) (h : Handle) :
    ((initial.run actions).bus? h = none ↔ (Roster.initial.run actions).owner? h = none) ∧
    ∀ o, (Roster.initial.run actions).owner? h = some o →
      ∃ b, (initial.run actions).bus? h = some b ∧
        (match (Roster.initial.volumesSet o actions).getLast? with
          | none => b.volume = .ofNat 1
          | some x => IsKept x b.volume) ∧
        b.volume.isNaN = false ∧ 0 ≤ b.volume.value ∧ b.volume.value ≤ 1 ∧
        IsGain b.volume b.gain ∧
        ∀ g x, (initial.run (actions ++ [.set g x])).bus? h =
          if (Roster.initial.run actions).owner? g = some o then some (.withVolume x)
          else some b := by
  constructor
  · rw [bus?_run, Option.map_eq_none_iff]
  · intro o owner
    have shown : (initial.run actions).bus? h =
        some (Roster.busAfter .initial (Roster.initial.volumesSet o actions)) := by
      rw [bus?_run, owner, Option.map_some]
    have range := isVolume_busAfter (Roster.initial.volumesSet o actions)
    refine ⟨_, shown, volume_busAfter _, Binary.isNaN_of_isFinite range.finite, range.nonneg,
      range.le_one, isGain_gain range, ?_⟩
    intro g x
    have same : (Roster.initial.run (actions ++ [.set g x])).owner? h = some o := by
      rw [Roster.run_append]
      exact owner
    rw [bus?_run, same, Option.map_some, Roster.volumesSet_append, Roster.busAfter_append]
    show some (Roster.busAfter _ (Option.toList (if _ then _ else _) ++ [])) = _
    split
    case isTrue => rfl
    case isFalse => rfl

/-- The bus of the first session, seen through a handle that was handed out: what was set for the
second session does not reach it, and minus zero, set through the session, is kept as it is. -/
theorem volume_of_last_set_shared :
    let actions := [.share 0, .openSession, .set (.bus 0) (.infinite false),
      .set (.session 0) (.zero true), .set (.session 1) .notANumber]
    (Roster.initial.run actions).owner? (.bus 0) = some (.session 0) ∧
      ∃ b, (initial.run actions).bus? (.bus 0) = some b ∧ IsKept (.zero true) b.volume ∧
        IsGain b.volume b.gain := by
  intro actions
  have owner : (Roster.initial.run actions).owner? (.bus 0) = some (.session 0) := by decide
  obtain ⟨b, shown, last, -, -, -, gain, -⟩ :=
    (volume_of_last_set actions (.bus 0)).2 (.session 0) owner
  exact ⟨owner, b, shown, last, gain⟩

end Mixer

end SongSheet
