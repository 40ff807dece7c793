/-
SongSheet/Proofs/Binary/Nearest.lean

Rounding goes to the closest number of the format.

A quotient is rounded in steps, so what comes out is at most half a step away
(`Format.abs_units_nearest_sub_le`).  The numbers of the format around the quotient are at
least such a step apart (`Format.roundingStep_le_step`), so no other one is closer
(`Format.isNoCloser`), and one that is equally close makes it a tie, which goes to the
even code.  For the values of the format that is `Binary.IsClosest`.
-/
import Mathlib.Algebra.Order.Field.Basic
import Mathlib.Tactic.FieldSimp
import Mathlib.Tactic.Linarith
import Mathlib.Tactic.NormNum
import SongSheet.Proofs.Binary.Seconds

namespace SongSheet

/-! ### Codes -/

namespace Format

variable {f : Format} {num den c m : Nat}

/-- A code is at most a whole binade of its steps, with the next one. -/
theorem units_succ_le (m : Nat) : f.units (m + 1) ≤ f.binade * 2 ^ (f.step m + 1) := by
  obtain ⟨k, units⟩ := f.exists_units_eq (Nat.le_refl (f.step m))
  have below := f.units_lt m
  rw [units] at below
  have inside : k + 1 ≤ 2 * f.binade := Nat.lt_of_mul_lt_mul_right below
  calc f.units (m + 1) = (k + 1) * 2 ^ f.step m := by
        rw [f.units_succ, units, Nat.add_mul, Nat.one_mul]
    _ ≤ 2 * f.binade * 2 ^ f.step m := Nat.mul_le_mul_right _ inside
    _ = f.binade * 2 ^ (f.step m + 1) := by
        rw [Nat.pow_succ]
        ring

/-- The numbers around a quotient are no closer to each other than the step in which it is
rounded. -/
theorem roundingStep_le_step (below : num < f.units (m + 1) * den) :
    f.roundingStep num den ≤ f.step m := by
  by_contra finer
  have finer : f.step m + 1 ≤ f.roundingStep num den := Nat.lt_of_not_le finer
  have fills : f.binade * (den * 2 ^ f.roundingStep num den) ≤ num :=
    binade_le_quotient (by omega)
  have : f.units (m + 1) * den ≤ num := by
    calc f.units (m + 1) * den ≤ f.binade * 2 ^ (f.step m + 1) * den :=
          Nat.mul_le_mul_right den (units_succ_le m)
      _ ≤ f.binade * 2 ^ f.roundingStep num den * den :=
          Nat.mul_le_mul_right den
            (Nat.mul_le_mul_left _ (Nat.pow_le_pow_right Nat.two_pos finer))
      _ = f.binade * (den * 2 ^ f.roundingStep num den) := by ring
      _ ≤ num := fills
  omega

/-- A code that is not capped, by its steps. -/
theorem nearest_eq (finite : f.nearest num den < f.infinity) :
    f.nearest num den = f.roundingStep num den * f.binade + f.roundedSteps num den := by
  have capped : f.nearest num den =
      min f.infinity (f.roundingStep num den * f.binade + f.roundedSteps num den) := rfl
  omega

/-- The units of a code that is not capped. -/
theorem units_nearest (hd : 0 < den) (finite : f.nearest num den < f.infinity) :
    f.units (f.nearest num den) = f.roundedSteps num den * 2 ^ f.roundingStep num den := by
  rw [nearest_eq finite, units_rounded hd]

/-- How far the code is off, in the steps in which the quotient was rounded. -/
theorem abs_units_nearest_sub (hd : 0 < den) (finite : f.nearest num den < f.infinity) :
    |(f.units (f.nearest num den) : ℚ) - num / den| =
      |(num : ℚ) / (den * 2 ^ f.roundingStep num den : Nat) - f.roundedSteps num den| *
        2 ^ f.roundingStep num den := by
  have positive : (0 : ℚ) < 2 ^ f.roundingStep num den := by positivity
  have quotient : (num : ℚ) / den =
      num / (den * 2 ^ f.roundingStep num den : Nat) * 2 ^ f.roundingStep num den := by
    have nonzero : (den : ℚ) ≠ 0 := Nat.cast_ne_zero.2 hd.ne'
    rw [Nat.cast_mul, Nat.cast_pow, Nat.cast_two]
    field_simp
  rw [units_nearest hd finite, quotient, Nat.cast_mul, Nat.cast_pow, Nat.cast_two, ← sub_mul,
    abs_mul, abs_of_pos positive, abs_sub_comm]

/-- The steps are the nearest whole number of steps. -/
theorem isNearest_roundedSteps (hd : 0 < den) :
    IsNearest ((num : ℚ) / (den * 2 ^ f.roundingStep num den : Nat)) (f.roundedSteps num den) :=
  isNearest_roundHalfEven num (Nat.mul_pos hd (Nat.two_pow_pos _))

/-- What a quotient is rounded to is at most half a step away. -/
theorem abs_units_nearest_sub_le (hd : 0 < den) (finite : f.nearest num den < f.infinity) :
    |(f.units (f.nearest num den) : ℚ) - num / den| ≤ 1 / 2 * 2 ^ f.roundingStep num den := by
  rw [abs_units_nearest_sub hd finite]
  apply mul_le_mul_of_nonneg_right (isNearest_roundedSteps hd).close
  positivity

/-- A quotient below a power of two is rounded in steps that are small for it. -/
theorem roundingStep_le {s : Nat} (hd : 0 < den) (small : num < 2 ^ (f.fractionBits + s + 1) * den) :
    f.roundingStep num den ≤ s := by
  have quotient : num / den < 2 ^ (f.fractionBits + s + 1) := (Nat.div_lt_iff_lt_mul hd).2 small
  rw [roundingStep]
  rcases Nat.eq_zero_or_pos (num / den) with zero | pos
  · rw [zero, Nat.log2_zero]
    omega
  · have leading := (Nat.log2_lt pos.ne').2 quotient
    omega

/-- Half a step away, the code is even. -/
theorem even_nearest (hd : 0 < den) (binade : Even f.binade)
    (finite : f.nearest num den < f.infinity)
    (half : |(f.units (f.nearest num den) : ℚ) - num / den| =
      1 / 2 * 2 ^ f.roundingStep num den) : Even (f.nearest num den) := by
  rw [abs_units_nearest_sub hd finite] at half
  rw [nearest_eq finite]
  apply Even.add (binade.mul_left _)
  apply (isNearest_roundedSteps hd).even
  apply mul_right_cancel₀ _ half
  positivity

/-- A code up to the quotient, in rationals and as the rounding has it. -/
theorem cast_units_le_iff (hd : 0 < den) : (f.units c : ℚ) ≤ num / den ↔ f.units c * den ≤ num := by
  rw [le_div_iff₀ (Nat.cast_pos.2 hd)]
  exact_mod_cast Iff.rfl

/-- And one from the quotient on. -/
theorem le_cast_units_iff (hd : 0 < den) : num / den ≤ (f.units c : ℚ) ↔ num ≤ f.units c * den := by
  rw [div_le_iff₀ (Nat.cast_pos.2 hd)]
  exact_mod_cast Iff.rfl

theorem cast_units_strictMono (f : Format) : StrictMono fun c => (f.units c : ℚ) := fun _ _ h =>
  Nat.cast_lt.2 (f.units_strictMono h)

/-- Next to a quotient or above it, the numbers are a rounding step apart. -/
theorem cast_units_add_le (hd : 0 < den) (below : num / den < (f.units (m + 1) : ℚ)) :
    (f.units m : ℚ) + 2 ^ f.roundingStep num den ≤ f.units (m + 1) := by
  have below : num < f.units (m + 1) * den :=
    Nat.lt_of_not_le fun h => not_le.2 below ((cast_units_le_iff hd).2 h)
  have step : (2 : ℚ) ^ f.roundingStep num den ≤ 2 ^ f.step m :=
    pow_le_pow_right₀ (by norm_num) (roundingStep_le_step below)
  have next : (f.units (m + 1) : ℚ) = f.units m + 2 ^ f.step m := by
    exact_mod_cast f.units_succ m
  linarith

/-- A code is no closer to the quotient than the one that it is rounded to, and one that is
equally close makes it a tie. -/
def IsNoCloser (f : Format) (num den c : Nat) : Prop :=
  |(f.units (f.nearest num den) : ℚ) - num / den| ≤ |(f.units c : ℚ) - num / den| ∧
    (|(f.units (f.nearest num den) : ℚ) - num / den| = |(f.units c : ℚ) - num / den| →
      c = f.nearest num den ∨
        |(f.units (f.nearest num den) : ℚ) - num / den| = 1 / 2 * 2 ^ f.roundingStep num den)

/-- So it is with the codes up to the quotient. -/
theorem isNoCloser_of_le (hd : 0 < den) (finite : f.nearest num den < f.infinity)
    (hc : c < f.infinity) (low : (f.units c : ℚ) ≤ num / den) : f.IsNoCloser num den c := by
  have half := abs_units_nearest_sub_le hd finite
  have order : c ≤ f.nearest num den := le_nearest hd hc.le ((cast_units_le_iff hd).1 low)
  have mono := f.cast_units_strictMono.monotone
  rw [IsNoCloser, abs_of_nonpos (sub_nonpos.2 low)]
  generalize f.nearest num den = n at *
  rcases le_or_gt (f.units n : ℚ) (num / den) with low' | high
  · -- both are on one side
    rw [abs_of_nonpos (sub_nonpos.2 low')]
    have between : (f.units c : ℚ) ≤ f.units n := mono order
    exact ⟨by linarith, fun same => .inl (f.cast_units_strictMono.injective (by linarith))⟩
  · rw [abs_of_pos (sub_pos.2 high)] at half ⊢
    -- the code before the rounded one is on the other side, and `c` is no closer than that
    have lower : c < n := f.cast_units_strictMono.lt_iff_lt.1 (low.trans_lt high)
    obtain ⟨m, rfl⟩ := Nat.exists_eq_succ_of_ne_zero (Nat.ne_zero_of_lt lower)
    have gap := cast_units_add_le hd high
    have between : (f.units c : ℚ) ≤ f.units m := mono (Nat.le_of_lt_succ lower)
    rw [Nat.succ_eq_add_one] at half ⊢
    exact ⟨by linarith, fun same => .inr (by linarith)⟩

/-- And with the codes from the quotient on. -/
theorem isNoCloser_of_ge (hd : 0 < den) (finite : f.nearest num den < f.infinity)
    (high : num / den ≤ (f.units c : ℚ)) : f.IsNoCloser num den c := by
  have half := abs_units_nearest_sub_le hd finite
  have order : f.nearest num den ≤ c := nearest_le hd ((le_cast_units_iff hd).1 high)
  -- a code that follows the rounded one is beyond the quotient, or that would be rounded to it
  have beyond : num / den < (f.units (f.nearest num den + 1) : ℚ) := by
    by_contra passed
    have := le_nearest hd finite ((cast_units_le_iff hd).1 (not_lt.1 passed))
    omega
  have mono := f.cast_units_strictMono.monotone
  rw [IsNoCloser, abs_of_nonneg (sub_nonneg.2 high)]
  generalize f.nearest num den = n at *
  rcases le_or_gt ((num : ℚ) / den) (f.units n) with high' | low
  · rw [abs_of_nonneg (sub_nonneg.2 high')]
    have between : (f.units n : ℚ) ≤ f.units c := mono order
    exact ⟨by linarith, fun same => .inl (f.cast_units_strictMono.injective (by linarith))⟩
  · rw [abs_of_neg (sub_neg.2 low)] at half ⊢
    have higher : n < c := f.cast_units_strictMono.lt_iff_lt.1 (low.trans_le high)
    have gap := cast_units_add_le hd beyond
    have between : (f.units (n + 1) : ℚ) ≤ f.units c := mono higher
    exact ⟨by linarith, fun same => .inr (by linarith)⟩

/-- No number of the format is closer to a quotient than the one that it is rounded to. -/
theorem isNoCloser (hd : 0 < den) (finite : f.nearest num den < f.infinity)
    (hc : c < f.infinity) : f.IsNoCloser num den c :=
  (le_total (f.units c : ℚ) (num / den)).elim (isNoCloser_of_le hd finite hc)
    (isNoCloser_of_ge hd finite)

end Format

/-! ### Values -/

namespace Binary

variable {f : Format} {x y : Binary f} {num den : Nat}

/-- `x` is the finite value closest to `q`; of two that are equally close, the one with the even
code. -/
structure IsClosest (q : ℚ) (x : Binary f) : Prop where
  finite : x.isFinite = true
  close : ∀ y : Binary f, y.isFinite = true → |x.value - q| ≤ |y.value - q|
  even : ∀ y : Binary f, y.isFinite = true → y.value ≠ x.value →
    |x.value - q| = |y.value - q| → Even x.magnitude

theorem negative_round (negative : Bool) (num den : Nat) :
    (round negative num den : Binary f).negative = negative := rfl

theorem units_round (negative : Bool) (num den : Nat) :
    (round negative num den : Binary f).units = f.units (f.nearest num den) := rfl

/-- A value is its units with its sign. -/
theorem value_eq (x : Binary f) :
    x.value = (if x.negative then -1 else 1) * (x.units / f.oneUnits) := by
  rw [value, signedUnits]
  cases x.negative with
  | false => simp
  | true => simp [neg_div]

/-- How far a value is from a number, in units, when they have one sign. -/
theorem abs_value_sub {negative : Bool} (sign : x.negative = negative) (q : ℚ) :
    |x.value - (if negative then -1 else 1) * (q / f.oneUnits)| =
      |(x.units : ℚ) - q| / f.oneUnits := by
  have pos := cast_oneUnits_pos f
  have unit : |if negative then (-1 : ℚ) else 1| = 1 := by
    cases negative with
    | false => simp
    | true => simp
  rw [value_eq, sign, ← mul_sub, abs_mul, unit, one_mul, ← sub_div, abs_div, abs_of_pos pos]

/-- And when they have not. -/
theorem abs_value_sub_of_ne {negative : Bool} (sign : y.negative ≠ negative) {q : ℚ}
    (nonneg : 0 ≤ q) :
    |y.value - (if negative then -1 else 1) * (q / f.oneUnits)| = (y.units + q) / f.oneUnits := by
  have pos := cast_oneUnits_pos f
  have size : (0 : ℚ) ≤ y.units / f.oneUnits + q / f.oneUnits := by positivity
  rw [value_eq, add_div]
  cases negative with
  | false =>
      have minus : -1 * ((y.units : ℚ) / f.oneUnits) - 1 * (q / f.oneUnits) =
          -(y.units / f.oneUnits + q / f.oneUnits) := by ring
      rw [if_pos (by simpa using sign), if_neg Bool.false_ne_true, minus, abs_neg,
        abs_of_nonneg size]
  | true =>
      have plus : 1 * ((y.units : ℚ) / f.oneUnits) - -1 * (q / f.oneUnits) =
          y.units / f.oneUnits + q / f.oneUnits := by ring
      rw [if_neg (by simpa using sign), if_pos rfl, plus, abs_of_nonneg size]

/-- Then it is no closer. -/
theorem abs_sub_le_abs_value_sub (negative : Bool) {q : ℚ} (nonneg : 0 ≤ q) (y : Binary f) :
    |(y.units : ℚ) - q| / f.oneUnits ≤
      |y.value - (if negative then -1 else 1) * (q / f.oneUnits)| := by
  by_cases sign : y.negative = negative
  · rw [abs_value_sub sign]
  · rw [abs_value_sub_of_ne sign nonneg]
    apply div_le_div_of_nonneg_right _ (cast_oneUnits_pos f).le
    have units : (0 : ℚ) ≤ y.units := Nat.cast_nonneg _
    exact abs_le.2 ⟨by linarith, by linarith⟩

/-- Rounding goes to the closest value, unless that is beyond all finite ones. -/
theorem isClosest_round (negative : Bool) (hd : 0 < den) (binade : Even f.binade)
    (finite : f.nearest num den < f.infinity) :
    IsClosest ((if negative then -1 else 1) * ((num : ℚ) / den / f.oneUnits))
      (round negative num den : Binary f) := by
  have pos := cast_oneUnits_pos f
  have nonneg : (0 : ℚ) ≤ num / den := by positivity
  have off : |(round negative num den : Binary f).value -
      (if negative then -1 else 1) * ((num : ℚ) / den / f.oneUnits)| =
        |(f.units (f.nearest num den) : ℚ) - num / den| / f.oneUnits :=
    abs_value_sub (negative_round negative num den) _
  have closest (y : Binary f) (hy : y.isFinite = true) :=
    Format.isNoCloser (c := y.magnitude) hd finite (of_decide_eq_true hy)
  refine ⟨decide_eq_true finite, ?_, ?_⟩
  · intro y hy
    rw [off]
    apply le_trans (div_le_div_of_nonneg_right (closest y hy).1 pos.le)
    exact abs_sub_le_abs_value_sub negative nonneg y
  · intro y hy other same
    rw [off] at same
    have between := abs_sub_le_abs_value_sub negative nonneg y
    have equal : |(f.units (f.nearest num den) : ℚ) - num / den| = |(y.units : ℚ) - num / den| := by
      apply le_antisymm (closest y hy).1
      rw [← same] at between
      exact (div_le_div_iff_of_pos_right pos).1 between
    rcases (closest y hy).2 equal with code | half
    · -- a value of the same code differs in sign, and only zeros are then equally close
      exfalso
      have units : y.units = f.units (f.nearest num den) := congrArg f.units code
      by_cases sign : y.negative = negative
      · apply other
        rw [value_eq, value_eq, sign, units, negative_round, units_round]
      · rw [abs_value_sub_of_ne sign nonneg, div_left_inj' pos.ne'] at same
        have zero := (Format.isNoCloser hd finite (Nat.zero_lt_of_lt finite)).1
        rw [f.units_zero, Nat.cast_zero, zero_sub, abs_neg, abs_of_nonneg nonneg, same] at zero
        have none : (y.units : ℚ) = 0 := by
          apply le_antisymm _ (Nat.cast_nonneg _)
          linarith
        apply other
        rw [value_eq, value_eq, units_round, ← units, none]
        simp
    · exact Format.even_nearest hd binade finite half

/-- How far off a quotient is when it is rounded in steps of at most `2 ^ s` units. -/
theorem abs_value_ofQuotient_sub_le {s : Nat} (hd : 0 < den)
    (finite : (ofQuotient false num den : Binary f).isFinite = true)
    (small : num * f.oneUnits < 2 ^ (f.fractionBits + s + 1) * den) :
    |(ofQuotient false num den : Binary f).value - num / den| ≤ 1 / 2 * 2 ^ s / f.oneUnits := by
  have pos := cast_oneUnits_pos f
  have finite : f.nearest (num * f.oneUnits) den < f.infinity := of_decide_eq_true finite
  have sign : (ofQuotient false num den : Binary f).negative = false := negative_round ..
  have units : (ofQuotient false num den : Binary f).units =
      f.units (f.nearest (num * f.oneUnits) den) := units_round ..
  have exact : (num : ℚ) / den = ((num * f.oneUnits : Nat) : ℚ) / den / f.oneUnits := by
    rw [Nat.cast_mul, mul_div_right_comm, mul_div_cancel_right₀ _ pos.ne']
  have step : (2 : ℚ) ^ f.roundingStep (num * f.oneUnits) den ≤ 2 ^ s :=
    pow_le_pow_right₀ (by norm_num) (Format.roundingStep_le hd small)
  have off := abs_value_sub sign (((num * f.oneUnits : Nat) : ℚ) / den)
  rw [if_neg Bool.false_ne_true, one_mul, ← exact, units] at off
  rw [off]
  apply div_le_div_of_nonneg_right _ pos.le
  apply (Format.abs_units_nearest_sub_le hd finite).trans
  linarith

end Binary

end SongSheet
