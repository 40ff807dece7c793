/-
SongSheet/Binary/Format.lean

Binary floating-point formats, and rounding to one of their numbers.

The magnitudes of a format are numbered in order: code 0 is zero, and `infinity`
is the code after the largest finite one.  Everything is measured in *units*,
one unit being the least positive number of the format, so that each finite
magnitude is a whole number of units (`units`).  Within one binade the units of
consecutive codes grow by a constant step, and the step doubles from one binade
to the next; the codes below the first binade are the subnormal numbers.

    units c = c                                        (c below 2 ^ fractionBits)
    units c = (c % 2 ^ fractionBits + 2 ^ fractionBits) * 2 ^ (c / 2 ^ fractionBits - 1)

`nearest num den` is the code closest to `num / den` units, a half going to the
even code.  The quotient is never computed before the rounding, so a result is
rounded once.
-/

namespace SongSheet

/-! ### Rounding a quotient -/

/-- The whole number nearest to `num / den`; a half goes to the even one. -/
def roundHalfEven (num den : Nat) : Nat :=
  let q := num / den
  let r := num % den
  if 2 * r < den then q
  else if den < 2 * r then q + 1
  else q + q % 2

/-- The result is within half a unit of the quotient. -/
theorem roundHalfEven_close (num : Nat) {den : Nat} (hd : 0 < den) :
    2 * (roundHalfEven num den * den) ≤ 2 * num + den ∧
      2 * num ≤ 2 * (roundHalfEven num den * den) + den := by
  have hq : num / den * den + num % den = num := by
    rw [Nat.mul_comm]; exact Nat.div_add_mod num den
  have hr : num % den < den := Nat.mod_lt _ hd
  simp only [roundHalfEven]
  split
  · omega
  · split
    · rw [Nat.add_mul]; omega
    · rcases Nat.mod_two_eq_zero_or_one (num / den) with h | h
      · rw [h, Nat.add_zero]; omega
      · rw [h, Nat.add_mul]; omega

/-- A common factor does not matter. -/
theorem roundHalfEven_mul_right (num den : Nat) {k : Nat} (hk : 0 < k) :
    roundHalfEven (num * k) (den * k) = roundHalfEven num den := by
  have hd : num * k / (den * k) = num / den := Nat.mul_div_mul_right num den hk
  have hm : num * k % (den * k) = num % den * k := Nat.mul_mod_mul_right k num den
  have below : 2 * (num % den * k) < den * k ↔ 2 * (num % den) < den := by
    rw [← Nat.mul_assoc]; exact Nat.mul_lt_mul_right hk
  have above : den * k < 2 * (num % den * k) ↔ den < 2 * (num % den) := by
    rw [← Nat.mul_assoc]; exact Nat.mul_lt_mul_right hk
  simp only [roundHalfEven, hd, hm, below, above]

/-- A quotient that is a whole number is kept. -/
theorem roundHalfEven_mul (n : Nat) {den : Nat} (hd : 0 < den) :
    roundHalfEven (n * den) den = n := by
  simp [roundHalfEven, Nat.mul_div_cancel n hd, hd]

/-! ### Formats -/

/-- A binary floating-point format. -/
structure Format where
  /-- Bits of the significand behind the point. -/
  fractionBits : Nat
  /-- Bits of the exponent. -/
  exponentBits : Nat
  deriving DecidableEq, Repr

namespace Format

/-- The 32-bit format. -/
def single : Format := ⟨23, 8⟩

/-- The 64-bit format. -/
def double : Format := ⟨52, 11⟩

/-- The number of codes in one binade. -/
def binade (f : Format) : Nat := Nat.pow 2 f.fractionBits

/-- The number of magnitudes, infinity and the not-a-number codes included. -/
def size (f : Format) : Nat := Nat.pow 2 f.exponentBits * f.binade

/-- The code of infinity; the larger codes are not numbers. -/
def infinity (f : Format) : Nat := (Nat.pow 2 f.exponentBits - 1) * f.binade

/-- One is `2 ^ oneExponent` units. -/
def oneExponent (f : Format) : Nat := Nat.pow 2 (f.exponentBits - 1) - 2 + f.fractionBits

/-- The number of units in one. -/
def oneUnits (f : Format) : Nat := Nat.pow 2 f.oneExponent

/-- The units between a code and the next are this power of two. -/
def step (f : Format) (code : Nat) : Nat := code / f.binade - 1

/-- A finite magnitude, in steps. -/
def significand (f : Format) (code : Nat) : Nat :=
  if code < f.binade then code else code % f.binade + f.binade

/-- The number of units of a finite magnitude. -/
def units (f : Format) (code : Nat) : Nat := f.significand code * Nat.pow 2 (f.step code)

/-- The code nearest to `num / den` units; a half goes to the even code, and what
is too large goes to infinity. -/
def nearest (f : Format) (num den : Nat) : Nat :=
  let step := Nat.log2 (num / den) - f.fractionBits
  min f.infinity (step * f.binade + roundHalfEven num (den * Nat.pow 2 step))

/-- The code nearest to `n * 2 ^ shift` units, found without computing that number. -/
def nearestShifted (f : Format) (n shift : Nat) : Nat :=
  let step := Nat.log2 n + shift - f.fractionBits
  min f.infinity (step * f.binade +
    if step ≤ shift then n * Nat.pow 2 (shift - step)
    else roundHalfEven n (Nat.pow 2 (step - shift)))

/-- Powers of two are positive. -/
theorem powTwo_pos (n : Nat) : 0 < Nat.pow 2 n := Nat.two_pow_pos n

/-- A power of two, as a product. -/
theorem powTwo_split {m n : Nat} (h : m ≤ n) : Nat.pow 2 n = Nat.pow 2 (n - m) * Nat.pow 2 m := by
  have := Nat.pow_add 2 (n - m) m
  rwa [Nat.sub_add_cancel h] at this

/-- Multiplying by a power of two moves the leading bit. -/
theorem log2_mul_powTwo {n : Nat} (hn : n ≠ 0) (shift : Nat) :
    Nat.log2 (n * Nat.pow 2 shift) = Nat.log2 n + shift := by
  have hpos := powTwo_pos shift
  have low : Nat.pow 2 (Nat.log2 n) ≤ n := Nat.log2_self_le hn
  have high : n < Nat.pow 2 (Nat.log2 n + 1) := Nat.lt_log2_self
  refine (Nat.log2_eq_iff (Nat.mul_ne_zero hn (Nat.ne_of_gt hpos))).2 ⟨?_, ?_⟩
  · calc Nat.pow 2 (Nat.log2 n + shift)
        = Nat.pow 2 (Nat.log2 n) * Nat.pow 2 shift := Nat.pow_add 2 _ _
      _ ≤ n * Nat.pow 2 shift := Nat.mul_le_mul_right _ low
  · calc n * Nat.pow 2 shift
        < Nat.pow 2 (Nat.log2 n + 1) * Nat.pow 2 shift := Nat.mul_lt_mul_of_pos_right high hpos
      _ = Nat.pow 2 (Nat.log2 n + shift + 1) := by
          rw [Nat.add_right_comm]; exact (Nat.pow_add 2 _ _).symm

/-- The same code as `nearest` gives for the number that is not computed. -/
theorem nearestShifted_eq (f : Format) {n : Nat} (hn : n ≠ 0) (shift : Nat) :
    f.nearestShifted n shift = f.nearest (n * Nat.pow 2 shift) 1 := by
  simp only [nearestShifted, nearest, Nat.div_one, log2_mul_powTwo hn, Nat.one_mul]
  congr 2
  split
  case isTrue h =>
    -- the step divides the number
    rw [powTwo_split h, ← Nat.mul_assoc, roundHalfEven_mul _ (powTwo_pos _)]
  case isFalse h =>
    -- the number and the step share the factor
    rw [powTwo_split (Nat.le_of_not_le h), roundHalfEven_mul_right _ _ (powTwo_pos shift)]

theorem nearestShifted_le_infinity (f : Format) (n shift : Nat) :
    f.nearestShifted n shift ≤ f.infinity :=
  Nat.min_le_left _ _

theorem binade_pos (f : Format) : 0 < f.binade := Nat.two_pow_pos _

theorem infinity_lt_size (f : Format) : f.infinity < f.size := by
  have := f.binade_pos
  have h : 0 < Nat.pow 2 f.exponentBits := Nat.two_pow_pos _
  exact Nat.mul_lt_mul_of_pos_right (Nat.sub_lt h Nat.one_pos) this

theorem size_pos (f : Format) : 0 < f.size := Nat.lt_of_le_of_lt (Nat.zero_le _) f.infinity_lt_size

theorem nearest_le_infinity (f : Format) (num den : Nat) : f.nearest num den ≤ f.infinity :=
  Nat.min_le_left _ _

theorem nearest_lt_size (f : Format) (num den : Nat) : f.nearest num den < f.size :=
  Nat.lt_of_le_of_lt (f.nearest_le_infinity num den) f.infinity_lt_size

end Format

end SongSheet
