/-
SongSheet/Proofs/Binary/Seconds.lean

Numbers of seconds, as lengths of time.

A positive number of seconds becomes the whole number of nanoseconds nearest to it
(`Clock.isNearest_of_nanoseconds`), or none, if that is a number for `2 ^ 64` seconds or more.
The rounding could lift a smaller number of seconds up to that bound; but the largest 64-bit
number below it is so far below, 2048 seconds, that none is lifted
(`Clock.isSome_nanoseconds`).
-/
import Mathlib.Algebra.Order.Field.Basic
import Mathlib.Tactic.Linarith
import Mathlib.Tactic.NormNum
import SongSheet.Clock
import SongSheet.Proofs.Binary.Rounding

namespace SongSheet

/-! ### The nearest whole number -/

/-- `n` is the whole number nearest to `q`; of two that are equally near, the even one. -/
structure IsNearest (q : ℚ) (n : Nat) : Prop where
  close : |q - n| ≤ 1 / 2
  even : |q - n| = 1 / 2 → Even n

variable {q : ℚ} {n m num den : Nat}

/-- There is no other one. -/
theorem IsNearest.unique (h : IsNearest q n) (h' : IsNearest q m) : n = m := by
  wlog le : n ≤ m generalizing n m
  · exact (this h' h (Nat.le_of_not_le le)).symm
  by_contra ne
  have next : (n : ℚ) + 1 ≤ m := by exact_mod_cast Nat.lt_of_le_of_ne le ne
  have up := (abs_le.1 h.close).2
  have down := (abs_le.1 h'.close).1
  -- both are half a unit away, and next to each other
  have half : q - n = 1 / 2 := by linarith
  have half' : q - m = -(1 / 2) := by linarith
  have even : Even n := h.even (by rw [half]; norm_num)
  have even' : Even m := h'.even (by rw [half']; norm_num)
  have succ : m = n + 1 := by
    have : (m : ℚ) = (n + 1 : Nat) := by push_cast; linarith
    exact_mod_cast this
  rw [succ, Nat.even_add_one] at even'
  exact even' even

/-- What is nearest to at most a half is zero. -/
theorem IsNearest.pos_iff (h : IsNearest q n) : 0 < n ↔ 1 / 2 < q := by
  constructor
  · intro some
    by_contra small
    have one : (1 : ℚ) ≤ n := by exact_mod_cast some
    have low := (abs_le.1 h.close).1
    have half : q - n = -(1 / 2) := by linarith
    have even : Even n := h.even (by rw [half]; norm_num)
    have last : n = 1 := by
      have : (n : ℚ) = (1 : Nat) := by push_cast; linarith
      exact_mod_cast this
    rw [last] at even
    exact absurd even (by decide)
  · intro large
    by_contra none
    have high := (abs_le.1 h.close).2
    rw [Nat.eq_zero_of_not_pos none] at high
    push_cast at high
    linarith

/-- A half goes to the even number. -/
theorem roundHalfEven_even (hd : 0 < den)
    (tie : 2 * num + den = 2 * (roundHalfEven num den * den) ∨
      2 * num = 2 * (roundHalfEven num den * den) + den) : Even (roundHalfEven num den) := by
  have split : num / den * den + num % den = num := Nat.div_add_mod' num den
  have rest : num % den < den := Nat.mod_lt _ hd
  rw [Nat.even_iff]
  simp only [roundHalfEven] at tie ⊢
  split at tie
  · omega
  · split at tie
    · rw [Nat.add_mul] at tie
      omega
    · rename_i below above
      rw [if_neg below, if_neg above]
      omega

/-- A quotient is rounded to the nearest whole number. -/
theorem isNearest_roundHalfEven (num : Nat) (hd : 0 < den) :
    IsNearest (num / den) (roundHalfEven num den) := by
  obtain ⟨above, below⟩ := roundHalfEven_close num hd
  have pos : (0 : ℚ) < den := Nat.cast_pos.2 hd
  generalize hn : roundHalfEven num den = n at *
  have off : (num : ℚ) / den - n = (num - n * den) / den := by
    rw [sub_div, mul_div_cancel_right₀ _ pos.ne']
  have above : 2 * ((n : ℚ) * den) ≤ 2 * num + den := by exact_mod_cast above
  have below : 2 * (num : ℚ) ≤ 2 * (n * den) + den := by exact_mod_cast below
  constructor
  · rw [off, abs_le]
    constructor
    · rw [le_div_iff₀ pos]
      linarith
    · rw [div_le_iff₀ pos]
      linarith
  · intro half
    rw [off, abs_eq (by norm_num), div_eq_iff pos.ne', div_eq_iff pos.ne'] at half
    rw [← hn]
    apply roundHalfEven_even hd
    rw [hn]
    rcases half with up | down
    · right
      have : 2 * (num : ℚ) = 2 * (n * den) + den := by linarith
      exact_mod_cast this
    · left
      have : 2 * (num : ℚ) + den = 2 * (n * den) := by linarith
      exact_mod_cast this

/-! ### Positive numbers -/

namespace Binary

variable {f : Format} {x : Binary f}

/-- A finite number above zero. -/
structure IsPositive (x : Binary f) : Prop where
  finite : x.isFinite = true
  pos : 0 < x.value

theorem units_pos : 0 < x.units ↔ 0 < x.magnitude := by
  have mono : f.units 0 < f.units x.magnitude ↔ 0 < x.magnitude := f.units_strictMono.lt_iff_lt
  rwa [f.units_zero] at mono

theorem value_pos : 0 < x.value ↔ x.negative = false ∧ 0 < x.magnitude := by
  have pos := cast_oneUnits_pos f
  rw [value, div_pos_iff_of_pos_right pos, Int.cast_pos, signedUnits, ← units_pos]
  cases x.negative with
  | false => simp
  | true => simp

/-- The number of a positive value, in units. -/
theorem IsPositive.value_eq (h : x.IsPositive) : x.value = x.units / f.oneUnits := by
  have sign := (value_pos.1 h.pos).1
  simp [value, signedUnits, sign]

theorem IsPositive.value_lt_iff (h : x.IsPositive) {n : Nat} :
    x.value < n ↔ x.units < n * f.oneUnits := by
  rw [h.value_eq, div_lt_iff₀ (cast_oneUnits_pos f), ← Nat.cast_mul, Nat.cast_lt]

/-- What the order says of zero and a finite value. -/
theorem isPositive_iff : x.IsPositive ↔ (x.isFinite && (zero false).lt x) = true := by
  rw [Bool.and_eq_true]
  constructor
  · rintro ⟨finite, pos⟩
    obtain ⟨sign, some⟩ := value_pos.1 pos
    have number := isNaN_of_isFinite finite
    refine ⟨finite, ?_⟩
    rw [lt, number]
    simp [rank, zero, isNaN, sign, some]
  · rintro ⟨finite, above⟩
    refine ⟨finite, value_pos.2 ?_⟩
    simp only [lt, Bool.and_eq_true, decide_eq_true_eq] at above
    have rank := above.2
    obtain ⟨negative, magnitude, _⟩ := x
    cases negative with
    | false => exact ⟨rfl, by simpa [Binary.rank, zero] using rank⟩
    | true =>
        simp [Binary.rank, zero] at rank
        omega

end Binary

/-! ### Nanoseconds -/

namespace Clock

open Binary

variable {x : Double}

/-- A positive number of seconds is rounded once, and refused where it comes to `2 ^ 64`. -/
theorem nanoseconds_eq (h : x.IsPositive) :
    nanoseconds x =
      if roundHalfEven (x.units * second) Format.double.oneUnits < 2 ^ 64 * second then
        some (roundHalfEven (x.units * second) Format.double.oneUnits)
      else none := by
  have sign := (value_pos.1 h.pos).1
  simp only [nanoseconds, h.finite, sign, Bool.not_true, Bool.false_and, Bool.or_self,
    Bool.false_eq_true, if_false]
  rfl

/-- A length of time is the nearest whole number of nanoseconds. -/
theorem isNearest_of_nanoseconds (h : x.IsPositive) (length : nanoseconds x = some n) :
    IsNearest (x.value * second) n := by
  have nearest := isNearest_roundHalfEven (x.units * second) Format.double.oneUnits_pos
  rw [Nat.cast_mul, ← div_mul_eq_mul_div, ← h.value_eq] at nearest
  rw [nanoseconds_eq h] at length
  split at length
  · rwa [← Option.some.inj length]
  · cases length

/-- The code of `2 ^ 64`. -/
def boundCode : Nat := (1023 + 64) * 2 ^ 52

theorem units_boundCode : Format.double.units boundCode = 2 ^ 64 * Format.double.oneUnits := by
  decide +kernel

/-- The number before it is more than half a nanosecond below. -/
theorem units_before_boundCode :
    Format.double.units (boundCode - 1) * second ≤
      (2 ^ 64 * second - 1) * Format.double.oneUnits := by
  decide +kernel

/-- Positive numbers of seconds are lengths of time below `2 ^ 64`, and not from there on. -/
theorem isSome_nanoseconds (h : x.IsPositive) :
    (nanoseconds x).isSome ↔ x.value < 2 ^ 64 := by
  have bound : (2 : ℚ) ^ 64 = (2 ^ 64 : Nat) := by norm_num
  rw [bound, h.value_lt_iff, nanoseconds_eq h]
  rcases Nat.lt_or_ge x.units (2 ^ 64 * Format.double.oneUnits) with small | large
  · have code : x.magnitude < boundCode := by
      rw [← units_boundCode] at small
      exact Format.double.units_strictMono.lt_iff_lt.1 small
    have units : x.units ≤ Format.double.units (boundCode - 1) :=
      Format.double.units_strictMono.monotone (Nat.le_sub_one_of_lt code)
    have rounded : roundHalfEven (x.units * second) Format.double.oneUnits ≤
        2 ^ 64 * second - 1 :=
      roundHalfEven_le Format.double.oneUnits_pos
        (Nat.le_trans (Nat.mul_le_mul_right _ units) units_before_boundCode)
    have positive : 0 < 2 ^ 64 * second := by decide
    rw [if_pos (Nat.lt_of_le_sub_one positive rounded)]
    exact ⟨fun _ => small, fun _ => rfl⟩
  · have rounded : 2 ^ 64 * second ≤
        roundHalfEven (x.units * second) Format.double.oneUnits := by
      apply le_roundHalfEven Format.double.oneUnits_pos
      rw [Nat.mul_right_comm]
      exact Nat.mul_le_mul_right _ large
    rw [if_neg (Nat.not_lt_of_le rounded)]
    exact ⟨fun none => absurd none (by simp), fun small => absurd small (Nat.not_lt_of_le large)⟩

/-- So the nanoseconds are found from the number. -/
theorem nanoseconds_eq_some_iff (h : x.IsPositive) :
    nanoseconds x = some n ↔ x.value < 2 ^ 64 ∧ IsNearest (x.value * second) n := by
  rw [← isSome_nanoseconds h]
  constructor
  · intro length
    exact ⟨Option.isSome_of_eq_some length, isNearest_of_nanoseconds h length⟩
  · rintro ⟨some, nearest⟩
    obtain ⟨m, length⟩ := Option.isSome_iff_exists.1 some
    rw [length, (isNearest_of_nanoseconds h length).unique nearest]

/-- And so is that there are none. -/
theorem nanoseconds_eq_none_iff (h : x.IsPositive) :
    nanoseconds x = none ↔ 2 ^ 64 ≤ x.value := by
  rw [← Option.not_isSome_iff_eq_none, isSome_nanoseconds h, not_lt]

end Clock

end SongSheet
