/-
SongSheet/Proofs/Binary/Shortest.lean

The fewest digits read back.

A number is read as the code between whose midpoints it lies, and a midpoint as the even one
of its two codes (`Format.ReadsAs`); so no number is read as two codes
(`Format.ReadsAs.unique`).  The digits of a code are found on the first decimal grid that has
a point for it.  There always is one: on the grid with two digits more than the significand
has bits, the next point above a code lies below the midpoint (`Format.readsAs_above`), and no
more digits than that are tried.  So what is printed for a code reads back as the code
(`Format.readsAs_shortest`).
-/
import Mathlib.Algebra.Order.Field.Power
import Mathlib.Data.Nat.Cast.Order.Field
import Mathlib.Tactic.Linarith
import Mathlib.Tactic.NormNum
import Mathlib.Tactic.Positivity
import SongSheet.Binary.Shortest
import SongSheet.Proofs.Binary.Rounding

namespace SongSheet

/-! ### Decimal numbers -/

namespace Decimal

/-- The number that a decimal stands for. -/
def value (d : Decimal) : ℚ := d.coefficient * 10 ^ d.exponent

/-- Zeros at the end of the coefficient do not matter. -/
theorem value_normalize (d : Decimal) : d.normalize.value = d.value := by
  fun_induction normalize d with
  | case1 d h ih =>
      have coefficient : d.coefficient = d.coefficient / 10 * 10 := by omega
      have coefficient : (d.coefficient : ℚ) = (d.coefficient / 10 : Nat) * 10 := by
        exact_mod_cast coefficient
      rw [ih, value, value, zpow_add_one₀ (by norm_num), coefficient]
      ring
  | case2 => rfl

end Decimal

namespace Format

variable {f : Format} {c d code num den : Nat} {v : ℚ} {exponent : Int}

/-! ### Which numbers are read as a code -/

/-- The number `v` is read as the finite magnitude `code`. -/
def ReadsAs (f : Format) (code : Nat) (v : ℚ) : Prop :=
  if code % 2 = 0 then
    f.lowerMidpoint code ≤ 2 * (v * f.oneUnits) ∧ 2 * (v * f.oneUnits) ≤ f.upperMidpoint code
  else f.lowerMidpoint code < 2 * (v * f.oneUnits) ∧ 2 * (v * f.oneUnits) < f.upperMidpoint code

theorem readsBack_iff (hd : 0 < den) :
    f.readsBack code num den = true ↔ f.ReadsAs code (num / den) := by
  have pos : (0 : ℚ) < den := Nat.cast_pos.2 hd
  have twice : 2 * ((num : ℚ) / den * f.oneUnits) = (2 * num * f.oneUnits : Nat) / den := by
    push_cast
    ring
  rw [readsBack, ReadsAs, twice, le_div_iff₀ pos, div_le_iff₀ pos, lt_div_iff₀ pos,
    div_lt_iff₀ pos]
  split
  · simp only [Bool.and_eq_true, decide_eq_true_eq]
    exact_mod_cast Iff.rfl
  · simp only [Bool.and_eq_true, decide_eq_true_eq]
    exact_mod_cast Iff.rfl

theorem ReadsAs.bounds (h : f.ReadsAs c v) :
    f.lowerMidpoint c ≤ 2 * (v * f.oneUnits) ∧ 2 * (v * f.oneUnits) ≤ f.upperMidpoint c := by
  rw [ReadsAs] at h
  split at h
  · exact h
  · exact ⟨h.1.le, h.2.le⟩

/-- No number is read as two codes. -/
theorem ReadsAs.unique (h : f.ReadsAs c v) (h' : f.ReadsAs d v) : c = d := by
  wlog le : c ≤ d generalizing c d
  · exact (this h' h (Nat.le_of_not_le le)).symm
  by_contra ne
  have above := h.bounds.2
  have below := h'.bounds.1
  rcases Nat.lt_or_ge (c + 1) d with apart | next
  · -- there is a code between them
    have order : f.upperMidpoint c < f.lowerMidpoint d := by
      have left : f.units c < f.units (d - 1) := f.units_strictMono (by omega)
      have right : f.units (c + 1) < f.units d := f.units_strictMono apart
      rw [upperMidpoint, lowerMidpoint]
      omega
    have order : (f.upperMidpoint c : ℚ) < f.lowerMidpoint d := Nat.cast_lt.2 order
    linarith
  · -- the number is the midpoint, and one of the two codes is odd
    obtain rfl : d = c + 1 := by omega
    have middle : f.upperMidpoint c = f.lowerMidpoint (c + 1) := rfl
    rw [ReadsAs] at h h'
    rw [← middle] at below h'
    by_cases even : c % 2 = 0
    · rw [if_neg (by omega)] at h'
      linarith [h'.1]
    · rw [if_neg even] at h
      linarith [h.2]

/-- A code is read as itself, and so is what lies above it, up to half a step. -/
theorem readsAs_of_close (pos : 0 < code) (low : f.units code ≤ v * f.oneUnits)
    (high : 2 * (v * f.oneUnits) < 2 * f.units code + 2 ^ f.step code) : f.ReadsAs code v := by
  have below : f.lowerMidpoint code < 2 * f.units code := by
    have := f.units_strictMono (Nat.sub_lt pos Nat.one_pos)
    rw [lowerMidpoint]
    omega
  have below : (f.lowerMidpoint code : ℚ) < 2 * f.units code := by exact_mod_cast below
  have above : (f.upperMidpoint code : ℚ) = 2 * f.units code + 2 ^ f.step code := by
    rw [upperMidpoint, f.units_succ]
    push_cast
    ring
  rw [ReadsAs, above]
  split
  · exact ⟨by linarith, by linarith⟩
  · exact ⟨by linarith, by linarith⟩

/-! ### Grids -/

theorem stepQuotient_pos (n : Nat) (exponent : Int) : 0 < (stepQuotient n exponent).2 := by
  rw [stepQuotient]
  split
  · exact Nat.one_pos
  · exact Nat.pow_pos (by decide)

theorem stepQuotient_eq (n : Nat) (exponent : Int) :
    ((stepQuotient n exponent).1 : ℚ) / (stepQuotient n exponent).2 = n * 10 ^ exponent := by
  rw [stepQuotient]
  split
  case isTrue h =>
    obtain ⟨k, rfl⟩ := Int.eq_ofNat_of_zero_le h
    simp
  case isFalse h =>
    obtain ⟨k, rfl⟩ : ∃ k : Nat, exponent = -k := ⟨exponent.natAbs, by omega⟩
    simp [div_eq_mul_inv]

theorem inSteps_pos (num : Nat) (hd : 0 < den) (exponent : Int) :
    0 < (inSteps num den exponent).2 := by
  rw [inSteps]
  split
  · exact Nat.mul_pos hd (Nat.pow_pos (by decide))
  · exact hd

theorem inSteps_eq (num den : Nat) (exponent : Int) :
    ((inSteps num den exponent).1 : ℚ) / (inSteps num den exponent).2 =
      num / den / 10 ^ exponent := by
  rw [inSteps]
  split
  case isTrue h =>
    obtain ⟨k, rfl⟩ := Int.eq_ofNat_of_zero_le h
    simp [div_div]
  case isFalse h =>
    obtain ⟨k, rfl⟩ : ∃ k : Nat, exponent = -k := ⟨exponent.natAbs, by omega⟩
    simp [div_mul_eq_mul_div]

/-! ### How fine the grids are -/

theorem pow_length_le {n : Nat} (pos : 0 < n) : 10 ^ ((Nat.toDigits 10 n).length - 1) ≤ n := by
  by_contra large
  rcases Nat.eq_zero_or_pos ((Nat.toDigits 10 n).length - 1) with one | more
  · rw [one] at large
    omega
  · have fewer := (Nat.length_toDigits_le_iff (by decide) more).2 (Nat.lt_of_not_le large)
    omega

theorem lt_pow_length (n : Nat) : n < 10 ^ (Nat.toDigits 10 n).length :=
  (Nat.length_toDigits_le_iff (by decide) Nat.length_toDigits_pos).1 (Nat.le_refl _)

/-- A number has as many digits in front of the point as it is said to have. -/
theorem pow_decimalPoint_le (hn : 0 < num) (hd : 0 < den) :
    (10 : ℚ) ^ (decimalPoint num den - 1) ≤ num / den := by
  have pos : (0 : ℚ) < den := Nat.cast_pos.2 hd
  have small {k : Nat} (h : den ≤ num * 10 ^ k) : (10 : ℚ) ^ (-(k : ℤ)) ≤ num / den := by
    have cast : (den : ℚ) ≤ num * 10 ^ k := by exact_mod_cast h
    rw [zpow_neg, zpow_natCast, le_div_iff₀ pos, inv_mul_le_iff₀ (by positivity), mul_comm]
    exact cast
  rw [decimalPoint]
  split
  case isTrue le =>
    have whole : 0 < num / den := Nat.div_pos le hd
    have length := pow_length_le whole
    have exponent : ((Nat.toDigits 10 (num / den)).length : ℤ) - 1 =
        ((Nat.toDigits 10 (num / den)).length - 1 : Nat) := by
      have : 0 < (Nat.toDigits 10 (num / den)).length := Nat.length_toDigits_pos
      omega
    rw [exponent, zpow_natCast]
    calc (10 : ℚ) ^ ((Nat.toDigits 10 (num / den)).length - 1)
        ≤ (num / den : Nat) := by exact_mod_cast length
      _ ≤ num / den := Nat.cast_div_le
  case isFalse less =>
    have length := lt_pow_length (den / num)
    have some : 0 < (Nat.toDigits 10 (den / num)).length := Nat.length_toDigits_pos
    dsimp only
    generalize (Nat.toDigits 10 (den / num)).length = d at *
    split
    case isTrue h =>
      have exponent : (2 - (d : ℤ)) - 1 = -((d - 1 : Nat) : ℤ) := by omega
      rw [exponent]
      exact small h
    case isFalse =>
      have exponent : (1 - (d : ℤ)) - 1 = -(d : ℤ) := by omega
      rw [exponent]
      apply small
      rw [Nat.mul_comm]
      exact Nat.le_of_lt ((Nat.div_lt_iff_lt_mul hn).1 length)

/-- On a grid with two digits more than the significand has bits, a step is less than half a
step of the format. -/
theorem pow_mul_lt_step {point : Int}
    (lead : (10 : ℚ) ^ (point - 1) ≤ f.units code / f.oneUnits) :
    2 * ((10 : ℚ) ^ (point - (f.fractionBits + 2 : Nat)) * f.oneUnits) < 2 ^ f.step code := by
  have one := Binary.cast_oneUnits_pos f
  have grid : (0 : ℚ) ≤ 10 ^ (point - (f.fractionBits + 2 : Nat)) * f.oneUnits := by positivity
  have tens : (0 : ℚ) < 10 ^ f.fractionBits := by positivity
  have more : (2 : ℚ) ^ f.fractionBits ≤ 10 ^ f.fractionBits :=
    pow_le_pow_left₀ (by norm_num) (by norm_num) _
  have split : (10 : ℚ) ^ (point - 1) =
      10 ^ (point - (f.fractionBits + 2 : Nat)) * (10 * 10 ^ f.fractionBits) := by
    rw [← pow_succ', ← zpow_natCast, ← zpow_add₀ (by norm_num)]
    congr 1
    push_cast
    ring
  have units : (f.units code : ℚ) < 2 * 2 ^ f.fractionBits * 2 ^ f.step code := by
    have := f.units_lt code
    exact_mod_cast this
  rw [le_div_iff₀ one, split] at lead
  have fine : 10 * (10 ^ (point - (f.fractionBits + 2 : Nat)) * (f.oneUnits : ℚ)) <
      2 * 2 ^ f.step code := by
    apply lt_of_mul_lt_mul_right _ tens.le
    calc 10 * (10 ^ (point - (f.fractionBits + 2 : Nat)) * (f.oneUnits : ℚ)) * 10 ^ f.fractionBits
        = 10 ^ (point - (f.fractionBits + 2 : Nat)) * (10 * 10 ^ f.fractionBits) * f.oneUnits := by
          ring
      _ ≤ f.units code := lead
      _ < 2 * 2 ^ f.fractionBits * 2 ^ f.step code := units
      _ ≤ 2 * 10 ^ f.fractionBits * 2 ^ f.step code := by gcongr
      _ = 2 * 2 ^ f.step code * 10 ^ f.fractionBits := by ring
  linarith

/-! ### The search -/

variable {tie : DigitTie}

/-- What is taken from a grid reads back. -/
theorem readsAs_of_onGrid {d : Decimal} (h : f.onGrid tie code exponent = some d) :
    f.ReadsAs code d.value := by
  have reads {n : Nat}
      (fits : f.readsBack code (stepQuotient n exponent).1 (stepQuotient n exponent).2 = true) :
      f.ReadsAs code (Decimal.value ⟨n, exponent⟩) := by
    rw [readsBack_iff (stepQuotient_pos n exponent), stepQuotient_eq] at fits
    exact fits
  unfold onGrid at h
  dsimp only at h
  split at h
  case h_1 => cases h
  case h_2 below _ =>
    cases h
    exact reads below
  case h_3 _ above =>
    cases h
    exact reads above
  case h_4 below above =>
    cases h
    split
    · exact reads above
    · exact reads below

/-- A point above the code that reads back is enough. -/
theorem isSome_onGrid
    (reads : f.ReadsAs code (Decimal.value
      ⟨(inSteps (f.units code) f.oneUnits exponent).1 /
        (inSteps (f.units code) f.oneUnits exponent).2 + 1, exponent⟩)) :
    (f.onGrid tie code exponent).isSome = true := by
  rw [Decimal.value, ← stepQuotient_eq, ← readsBack_iff (stepQuotient_pos _ _)] at reads
  unfold onGrid
  dsimp only
  split
  · rename_i none
    exact absurd reads (by rw [none]; decide)
  · rfl
  · rfl
  · rfl

/-- The next point above a code, on a fine grid, reads back. -/
theorem readsAs_above (pos : 0 < code)
    (fine : 2 * ((10 : ℚ) ^ exponent * f.oneUnits) < 2 ^ f.step code) :
    f.ReadsAs code (Decimal.value
      ⟨(inSteps (f.units code) f.oneUnits exponent).1 /
        (inSteps (f.units code) f.oneUnits exponent).2 + 1, exponent⟩) := by
  have one := Binary.cast_oneUnits_pos f
  have quotient := inSteps_eq (f.units code) f.oneUnits exponent
  have some := inSteps_pos (f.units code) f.oneUnits_pos exponent
  generalize (inSteps (f.units code) f.oneUnits exponent).1 = num at *
  generalize (inSteps (f.units code) f.oneUnits exponent).2 = den at *
  have grid : (0 : ℚ) < 10 ^ exponent * f.oneUnits := by positivity
  have units : (f.units code : ℚ) = num / den * (10 ^ exponent * f.oneUnits) := by
    rw [quotient, div_mul_eq_mul_div, mul_comm (10 ^ exponent : ℚ), ← mul_assoc,
      mul_div_cancel_right₀ _ (by positivity), div_mul_cancel₀ _ one.ne']
  have below : (((num / den : Nat) : ℚ)) ≤ num / den := Nat.cast_div_le
  have above : (num : ℚ) / den < (num / den + 1 : Nat) := by
    rw [div_lt_iff₀ (Nat.cast_pos.2 some)]
    exact_mod_cast (Nat.div_lt_iff_lt_mul some).1 (Nat.lt_succ_self _)
  apply readsAs_of_close pos
  · rw [units, Decimal.value, mul_assoc]
    exact mul_le_mul_of_nonneg_right above.le grid.le
  · have next : ((num / den + 1 : Nat) : ℚ) * (10 ^ exponent * f.oneUnits) ≤
        f.units code + 10 ^ exponent * f.oneUnits := by
      rw [units, Nat.cast_succ, add_one_mul]
      gcongr
    rw [Decimal.value, mul_assoc]
    linarith

/-- What is found is a point of some grid. -/
theorem exists_onGrid_of_firstOnGrid {d : Decimal} {point : Int} {fuel digits : Nat}
    (h : f.firstOnGrid tie code point fuel digits = some d) :
    ∃ exponent, f.onGrid tie code exponent = some d := by
  induction fuel generalizing digits with
  | zero => cases h
  | succ fuel ih =>
      rw [firstOnGrid] at h
      split at h
      case h_1 found =>
        cases h
        exact ⟨_, found⟩
      case h_2 => exact ih h

/-- Something is found if there is something on a grid that is tried. -/
theorem isSome_firstOnGrid {point : Int} {fuel digits last : Nat} (first : digits ≤ last)
    (tried : last < digits + fuel) (h : (f.onGrid tie code (point - last)).isSome = true) :
    (f.firstOnGrid tie code point fuel digits).isSome = true := by
  induction fuel generalizing digits with
  | zero => omega
  | succ fuel ih =>
      rw [firstOnGrid]
      split
      case h_1 => rfl
      case h_2 none =>
        have later : digits ≠ last := by
          rintro rfl
          rw [none] at h
          cases h
        exact ih (by omega) (by omega)

/-- The digits of a code read back as the code. -/
theorem readsAs_shortest (tie : DigitTie) (pos : 0 < code) :
    f.ReadsAs code (f.shortest tie code).value := by
  have units : 0 < f.units code := by
    rw [← f.units_zero]
    exact f.units_strictMono pos
  have fine := pow_mul_lt_step (pow_decimalPoint_le units f.oneUnits_pos)
  have last : (f.onGrid tie code _).isSome = true := isSome_onGrid (readsAs_above pos fine)
  have found : (f.firstOnGrid tie code _ (f.fractionBits + 2) 1).isSome = true :=
    isSome_firstOnGrid (by omega) (by omega) last
  obtain ⟨d, found⟩ := Option.isSome_iff_exists.1 found
  obtain ⟨exponent, grid⟩ := exists_onGrid_of_firstOnGrid found
  have shortest : f.shortest tie code = d.normalize := by
    rw [Format.shortest, found]
  rw [shortest, Decimal.value_normalize]
  exact readsAs_of_onGrid grid

/-- Zero is read as zero. -/
theorem readsAs_zero : f.ReadsAs 0 0 := by
  rw [ReadsAs, if_pos rfl, zero_mul, mul_zero, lowerMidpoint, f.units_zero]
  exact ⟨by simp, Nat.cast_nonneg _⟩

end Format

end SongSheet
