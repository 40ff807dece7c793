/-
SongSheet/Proofs/Binary/Rounding.lean

Rounding does not pass a number of the format.

The units of the codes of a format grow from one code to the next by the step of the first
one (`Format.units_succ`).  A quotient is rounded in a step that is no larger than those of
the codes around it, so a finite number of the format on one side of the quotient stays there
(`Format.nearest_le`, `Format.le_nearest`).  In particular a bound that is a number of the
format is kept, however the quotient lies; bounds on results of the arithmetic rest on that,
and not on how far they are off.
-/
import Mathlib.Algebra.Order.Field.Rat
import Mathlib.Tactic.Ring
import SongSheet.Binary.Value

namespace SongSheet

/-! ### Whole numbers -/

/-- Rounding a quotient does not pass a whole number above it. -/
theorem roundHalfEven_le {num den n : Nat} (hd : 0 < den) (h : num ≤ n * den) :
    roundHalfEven num den ≤ n := by
  have close := (roundHalfEven_close num hd).1
  by_contra above
  have next : (n + 1) * den ≤ roundHalfEven num den * den :=
    Nat.mul_le_mul_right den (Nat.lt_of_not_le above)
  rw [Nat.add_mul] at next
  omega

/-- Nor one below it. -/
theorem le_roundHalfEven {num den n : Nat} (hd : 0 < den) (h : n * den ≤ num) :
    n ≤ roundHalfEven num den := by
  have close := (roundHalfEven_close num hd).2
  by_contra below
  have next : (roundHalfEven num den + 1) * den ≤ n * den :=
    Nat.mul_le_mul_right den (Nat.lt_of_not_le below)
  rw [Nat.add_mul] at next
  omega

namespace Format

variable (f : Format)

/-! ### Units -/

theorem oneUnits_pos : 0 < f.oneUnits := powTwo_pos _

/-- The units of a code, by its binade and its place there. -/
theorem units_binade {k t : Nat} (ht : t < f.binade) :
    f.units (k * f.binade + t) = if k = 0 then t else (t + f.binade) * 2 ^ (k - 1) := by
  have split : (k * f.binade + t) / f.binade = k ∧ (k * f.binade + t) % f.binade = t :=
    (Nat.div_mod_unique f.binade_pos).2 ⟨by rw [Nat.mul_comm k, Nat.add_comm], ht⟩
  rw [units, significand, step, split.1, split.2]
  by_cases first : k = 0
  · subst first
    rw [Nat.zero_mul, Nat.zero_add, if_pos ht]
    exact Nat.mul_one t
  · have large : ¬ k * f.binade + t < f.binade := by
      have := Nat.mul_le_mul_right f.binade (Nat.pos_of_ne_zero first)
      omega
    rw [if_neg large, if_neg first]
    rfl

/-- One code more is one step more. -/
theorem units_succ (c : Nat) : f.units (c + 1) = f.units c + 2 ^ f.step c := by
  have place : c % f.binade < f.binade := Nat.mod_lt _ f.binade_pos
  have eq : c / f.binade * f.binade + c % f.binade = c := by
    rw [Nat.mul_comm]
    exact Nat.div_add_mod c f.binade
  rw [step]
  generalize c / f.binade = k at *
  generalize c % f.binade = t at *
  subst eq
  rw [f.units_binade place]
  have next : t + 1 ≤ f.binade := place
  rcases Nat.lt_or_eq_of_le next with inside | last
  · rw [Nat.add_assoc, f.units_binade inside]
    split
    case isTrue first =>
      rw [first]
      rfl
    case isFalse => ring
  · -- the next code is the first one of the next binade
    have next : k * f.binade + t + 1 = (k + 1) * f.binade + 0 := by
      rw [Nat.add_assoc, last, Nat.add_mul, Nat.one_mul, Nat.add_zero]
    rw [next, f.units_binade f.binade_pos, if_neg (Nat.succ_ne_zero k), ← last,
      Nat.add_sub_cancel]
    split
    case isTrue first =>
      rw [first]
      ring
    case isFalse later =>
      obtain ⟨j, rfl⟩ := Nat.exists_eq_succ_of_ne_zero later
      rw [Nat.succ_sub_one, Nat.pow_succ]
      ring

theorem units_strictMono : StrictMono f.units :=
  strictMono_nat_of_lt_succ fun c => by
    rw [f.units_succ]
    exact Nat.lt_add_of_pos_right (Nat.two_pow_pos _)

@[simp] theorem units_zero : f.units 0 = 0 := by
  have first := f.units_binade (k := 0) f.binade_pos
  simpa using first

/-- The units of a code, in its own steps. -/
theorem units_lt (c : Nat) : f.units c < 2 * f.binade * 2 ^ f.step c := by
  have place : c % f.binade < f.binade := Nat.mod_lt _ f.binade_pos
  refine Nat.mul_lt_mul_of_pos_right ?_ (Nat.two_pow_pos _)
  rw [significand]
  split <;> omega

/-- A number is below all that have larger steps. -/
theorem units_lt_of_step_lt {c s : Nat} (h : f.step c < s) : f.units c < f.binade * 2 ^ s := by
  calc f.units c < 2 * f.binade * 2 ^ f.step c := f.units_lt c
    _ = f.binade * 2 ^ (f.step c + 1) := by rw [Nat.pow_succ]; ring
    _ ≤ f.binade * 2 ^ s := Nat.mul_le_mul_left _ (Nat.pow_le_pow_right Nat.two_pos h)

/-- A number of steps is a whole number of smaller steps. -/
theorem exists_units_eq {c s : Nat} (h : s ≤ f.step c) : ∃ m, f.units c = m * 2 ^ s := by
  refine ⟨f.significand c * 2 ^ (f.step c - s), ?_⟩
  rw [Nat.mul_assoc, ← Nat.pow_add, Nat.sub_add_cancel h]
  rfl

/-! ### Rounding -/

/-- The step in which a quotient is rounded. -/
def roundingStep (num den : Nat) : Nat := Nat.log2 (num / den) - f.fractionBits

/-- The quotient in steps, rounded. -/
def roundedSteps (num den : Nat) : Nat :=
  roundHalfEven num (den * 2 ^ f.roundingStep num den)

variable {f} {num den c : Nat}

/-- A quotient fills the step in which it is rounded, unless that is the least one. -/
theorem binade_le_quotient (large : f.roundingStep num den ≠ 0) :
    f.binade * (den * 2 ^ f.roundingStep num den) ≤ num := by
  have positive : num / den ≠ 0 := by
    intro zero
    apply large
    rw [roundingStep, zero]
    exact Nat.zero_sub _
  have exponent : Nat.log2 (num / den) = f.fractionBits + f.roundingStep num den := by
    rw [roundingStep] at large ⊢
    omega
  have leading : 2 ^ Nat.log2 (num / den) ≤ num / den := Nat.log2_self_le positive
  calc f.binade * (den * 2 ^ f.roundingStep num den)
      = 2 ^ Nat.log2 (num / den) * den := by
        rw [exponent, Nat.pow_add, binade]
        show 2 ^ f.fractionBits * _ = _
        ring
    _ ≤ num / den * den := Nat.mul_le_mul_right den leading
    _ ≤ num := Nat.div_mul_le_self num den

theorem quotient_lt_binade (hd : 0 < den) :
    num < 2 * f.binade * (den * 2 ^ f.roundingStep num den) := by
  have leading : num / den < 2 ^ (Nat.log2 (num / den) + 1) := Nat.lt_log2_self
  have exponent : Nat.log2 (num / den) + 1 ≤ f.fractionBits + f.roundingStep num den + 1 := by
    rw [roundingStep]
    omega
  have below := Nat.lt_of_lt_of_le leading (Nat.pow_le_pow_right Nat.two_pos exponent)
  calc num < 2 ^ (f.fractionBits + f.roundingStep num den + 1) * den :=
        (Nat.div_lt_iff_lt_mul hd).1 below
    _ = 2 * f.binade * (den * 2 ^ f.roundingStep num den) := by
        rw [Nat.pow_succ, Nat.pow_add, binade]
        show _ = 2 * 2 ^ f.fractionBits * _
        ring

/-- The rounded quotient fills the step, too. -/
theorem binade_le_roundedSteps (hd : 0 < den) (large : f.roundingStep num den ≠ 0) :
    f.binade ≤ f.roundedSteps num den :=
  le_roundHalfEven (Nat.mul_pos hd (Nat.two_pow_pos _)) (binade_le_quotient large)

/-- The units of the code of a rounded quotient, before it is capped. -/
theorem units_rounded (hd : 0 < den) :
    f.units (f.roundingStep num den * f.binade + f.roundedSteps num den) =
      f.roundedSteps num den * 2 ^ f.roundingStep num den := by
  have low := @binade_le_roundedSteps f num den hd
  have high : f.roundedSteps num den ≤ 2 * f.binade :=
    roundHalfEven_le (Nat.mul_pos hd (Nat.two_pow_pos _)) (Nat.le_of_lt (quotient_lt_binade hd))
  generalize f.roundingStep num den = s at *
  generalize f.roundedSteps num den = r at *
  rcases Nat.lt_or_ge r f.binade with small | large
  · -- below the first binade
    obtain rfl : s = 0 := by
      by_contra positive
      exact absurd (low positive) (Nat.not_le_of_lt small)
    rw [f.units_binade small, if_pos rfl, Nat.pow_zero, Nat.mul_one]
  rcases Nat.lt_or_eq_of_le high with inside | top
  · have code : s * f.binade + r = (s + 1) * f.binade + (r - f.binade) := by
      rw [Nat.add_mul]
      omega
    rw [code, f.units_binade (by omega), if_neg (Nat.succ_ne_zero s), Nat.sub_add_cancel large,
      Nat.add_sub_cancel]
  · -- rounded up to the next binade
    have code : s * f.binade + r = (s + 2) * f.binade + 0 := by
      rw [top]
      ring
    rw [code, f.units_binade f.binade_pos, if_neg (Nat.succ_ne_zero (s + 1)), top]
    show (0 + f.binade) * 2 ^ (s + 1) = _
    ring

/-- Rounding a quotient does not pass a number above it. -/
theorem nearest_le (hd : 0 < den) (h : num ≤ f.units c * den) : f.nearest num den ≤ c := by
  refine Nat.le_trans (Nat.min_le_right _ _) (f.units_strictMono.le_iff_le.1 ?_)
  show f.units (f.roundingStep num den * f.binade + f.roundedSteps num den) ≤ f.units c
  rw [units_rounded hd]
  rcases Nat.lt_or_ge (f.step c) (f.roundingStep num den) with finer | coarser
  · -- the quotient would be larger than all numbers of the finer step
    exfalso
    have low := binade_le_quotient (Nat.ne_of_gt (Nat.zero_lt_of_lt finer))
    have above : f.units c * den < f.binade * (den * 2 ^ f.roundingStep num den) := by
      calc f.units c * den < f.binade * 2 ^ f.roundingStep num den * den :=
            Nat.mul_lt_mul_of_pos_right (f.units_lt_of_step_lt finer) hd
        _ = f.binade * (den * 2 ^ f.roundingStep num den) := by ring
    omega
  · obtain ⟨m, units⟩ := f.exists_units_eq coarser
    rw [units, Nat.mul_assoc, Nat.mul_comm _ den] at h
    rw [units]
    exact Nat.mul_le_mul_right _ (roundHalfEven_le (Nat.mul_pos hd (Nat.two_pow_pos _)) h)

/-- Nor one below it. -/
theorem le_nearest (hd : 0 < den) (finite : c ≤ f.infinity) (h : f.units c * den ≤ num) :
    c ≤ f.nearest num den := by
  refine Nat.le_min.2 ⟨finite, f.units_strictMono.le_iff_le.1 ?_⟩
  show f.units c ≤ f.units (f.roundingStep num den * f.binade + f.roundedSteps num den)
  rw [units_rounded hd]
  rcases Nat.lt_or_ge (f.step c) (f.roundingStep num den) with finer | coarser
  · have low := binade_le_roundedSteps hd (Nat.ne_of_gt (Nat.zero_lt_of_lt finer))
    calc f.units c ≤ f.binade * 2 ^ f.roundingStep num den :=
          Nat.le_of_lt (f.units_lt_of_step_lt finer)
      _ ≤ _ := Nat.mul_le_mul_right _ low
  · obtain ⟨m, units⟩ := f.exists_units_eq coarser
    rw [units, Nat.mul_assoc, Nat.mul_comm _ den] at h
    rw [units]
    exact Nat.mul_le_mul_right _ (le_roundHalfEven (Nat.mul_pos hd (Nat.two_pow_pos _)) h)

end Format

/-! ### Values -/

namespace Binary

variable {f : Format} {x y lo hi : Binary f} {num den : Nat}

/-- The number that a finite value stands for. -/
def value (x : Binary f) : ℚ := x.signedUnits / f.oneUnits

theorem cast_oneUnits_pos (f : Format) : (0 : ℚ) < f.oneUnits := Nat.cast_pos.2 f.oneUnits_pos

/-- The order by rank is that of the numbers. -/
theorem signedUnits_mono (h : x.rank ≤ y.rank) : x.signedUnits ≤ y.signedUnits := by
  have mono {a b : Nat} (h : a ≤ b) : f.units a ≤ f.units b := f.units_strictMono.monotone h
  obtain ⟨negative, a, _⟩ := x
  obtain ⟨negative', b, _⟩ := y
  simp only [rank] at h
  simp only [signedUnits, units]
  cases negative with
  | false =>
      cases negative' with
      | false =>
          have := mono (show a ≤ b by simpa using h)
          simpa using this
      | true =>
          -- only the two zeros are in this order
          obtain ⟨rfl, rfl⟩ : a = 0 ∧ b = 0 := by
            simp only [Bool.false_eq_true, if_false, if_true] at h
            omega
          simp
  | true =>
      cases negative' with
      | false =>
          simp only [Bool.false_eq_true, if_false, if_true]
          omega
      | true =>
          have := mono (show b ≤ a by simpa using h)
          simpa using this

theorem value_mono (h : x.rank ≤ y.rank) : x.value ≤ y.value := by
  have units : (x.signedUnits : ℚ) ≤ y.signedUnits := by exact_mod_cast signedUnits_mono h
  exact div_le_div_of_nonneg_right units (cast_oneUnits_pos f).le

/-- Different numbers, too, are in the order of their ranks. -/
theorem value_lt (h : x.rank < y.rank) : x.value < y.value := by
  have pos := cast_oneUnits_pos f
  have strict {a b : Nat} : f.units a < f.units b ↔ a < b := f.units_strictMono.lt_iff_lt
  have units : x.signedUnits < y.signedUnits := by
    obtain ⟨negative, a, _⟩ := x
    obtain ⟨negative', b, _⟩ := y
    have above := @strict a b
    have below := @strict b a
    have left := @strict 0 a
    have right := @strict 0 b
    rw [f.units_zero] at left right
    cases negative with
    | false =>
        cases negative' with
        | false =>
            simp only [rank, signedUnits, Binary.units, Bool.false_eq_true, if_false] at h ⊢
            omega
        | true =>
            simp only [rank, Bool.false_eq_true, if_false, if_true] at h
            omega
    | true =>
        cases negative' with
        | false =>
            simp only [rank, signedUnits, Binary.units, Bool.false_eq_true, if_false, if_true]
              at h ⊢
            omega
        | true =>
            simp only [rank, signedUnits, Binary.units, if_true] at h ⊢
            omega
  have units : (x.signedUnits : ℚ) < y.signedUnits := by exact_mod_cast units
  exact (div_lt_div_iff_of_pos_right pos).2 units

theorem value_lt_iff : x.value < y.value ↔ x.rank < y.rank := by
  refine ⟨fun less => ?_, value_lt⟩
  by_contra order
  exact absurd less (not_lt_of_ge (value_mono (Int.not_lt.1 order)))

theorem isNaN_of_isFinite (h : x.isFinite = true) : x.isNaN = false := by
  rw [isFinite, decide_eq_true_eq] at h
  rw [isNaN, decide_eq_false_iff_not]
  omega

/-- A finite value that is moved into a range is in it. -/
theorem clamp_spec (finite : x.isFinite = true) (hlo : lo.isFinite = true)
    (hhi : hi.isFinite = true) (le : lo.rank ≤ hi.rank) :
    (x.clamp lo hi).isFinite = true ∧ lo.value ≤ (x.clamp lo hi).value ∧
      (x.clamp lo hi).value ≤ hi.value := by
  have below : x.lt lo = decide (x.rank < lo.rank) := by
    simp [lt, isNaN_of_isFinite finite, isNaN_of_isFinite hlo]
  have above : hi.lt x = decide (hi.rank < x.rank) := by
    simp [lt, isNaN_of_isFinite finite, isNaN_of_isFinite hhi]
  rw [clamp, below, above]
  by_cases low : x.rank < lo.rank
  · rw [if_pos (decide_eq_true low)]
    exact ⟨hlo, le_refl _, value_mono le⟩
  rw [if_neg (by simpa using low)]
  by_cases high : hi.rank < x.rank
  · rw [if_pos (decide_eq_true high)]
    exact ⟨hhi, value_mono le, le_refl _⟩
  · rw [if_neg (by simpa using high)]
    exact ⟨finite, value_mono (Int.not_lt.1 low), value_mono (Int.not_lt.1 high)⟩

/-- A quotient that is at most a finite value is rounded to at most that. -/
theorem magnitude_ofQuotient_le (negative : Bool) (hd : 0 < den)
    (h : num * f.oneUnits ≤ y.units * den) :
    (ofQuotient negative num den : Binary f).magnitude ≤ y.magnitude :=
  Format.nearest_le hd h

/-- A quotient that is at least a finite value is rounded to at least that. -/
theorem le_magnitude_ofQuotient (negative : Bool) (hd : 0 < den) (finite : y.isFinite = true)
    (h : y.units * den ≤ num * f.oneUnits) :
    y.magnitude ≤ (ofQuotient negative num den : Binary f).magnitude :=
  Format.le_nearest hd (Nat.le_of_lt (of_decide_eq_true finite)) h

theorem units_mono (h : x.magnitude ≤ y.magnitude) : x.units ≤ y.units :=
  f.units_strictMono.monotone h

end Binary

end SongSheet
