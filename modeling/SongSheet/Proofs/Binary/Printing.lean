/-
SongSheet/Proofs/Binary/Printing.lean

Printed numbers read back.

Whatever layout digits are printed in, what is printed has the form of a decimal number
(`Numeral`), and what it says is the number that the digits stand for
(`Layout.exists_numeral_magnitude`).  So reading what was printed for a value gives its sign
and a number that is read as its magnitude (`Layout.exists_read_render`), and no two finite
values are printed alike (`Layout.render_injOn`).
-/
import SongSheet.Binary.Decimal
import SongSheet.Binary.Layout
import SongSheet.Proofs.Binary.Shortest

namespace SongSheet

open Text

variable {ds whole fraction rest cs : List Char} {e : Int} {n : Nat}

/-! ### Digits -/

/-- A run of decimal digits. -/
def IsDigits (ds : List Char) : Prop := ∀ c ∈ ds, isDecimalDigit c = true

theorem isDigits_append : IsDigits (whole ++ fraction) ↔ IsDigits whole ∧ IsDigits fraction :=
  List.forall_mem_append

theorem isDigits_toDigits (n : Nat) : IsDigits (Nat.toDigits 10 n) := by
  intro c hc
  have digit := Nat.isDigit_of_mem_toDigits (by decide) (by decide) hc
  simpa [Char.isDigit, isDecimalDigit, Char.le_def] using digit

theorem isDigits_zeros (n : Nat) : IsDigits (Layout.zeros n) := by
  intro c hc
  rw [List.eq_of_mem_replicate hc]
  decide

theorem toLower_of_isDecimalDigit {c : Char} (h : isDecimalDigit c = true) : c.toLower = c := by
  apply dif_neg
  rintro ⟨upper, -⟩
  simp only [isDecimalDigit, Bool.and_eq_true, decide_eq_true_eq, Char.le_def] at h
  exact absurd (UInt32.le_trans upper h.2) (by decide)

theorem IsDigits.take (h : IsDigits ds) (n : Nat) : IsDigits (ds.take n) :=
  fun c hc => h c (List.mem_of_mem_take hc)

theorem IsDigits.drop (h : IsDigits ds) (n : Nat) : IsDigits (ds.drop n) :=
  fun c hc => h c (List.mem_of_mem_drop hc)

/-- A run of digits ends where something else starts. -/
theorem IsDigits.span (h : IsDigits ds) (next : rest.head?.all (!isDecimalDigit ·) = true) :
    (ds ++ rest).takeWhile isDecimalDigit = ds ∧
      (ds ++ rest).dropWhile isDecimalDigit = rest := by
  rw [List.takeWhile_append_of_pos h, List.dropWhile_append_of_pos h]
  cases rest with
  | nil => exact ⟨List.append_nil ds, rfl⟩
  | cons c rest =>
      have other : ¬ isDecimalDigit c = true := by simpa using next
      rw [List.takeWhile_cons_of_neg other, List.dropWhile_cons_of_neg other]
      exact ⟨List.append_nil ds, rfl⟩

namespace Written

theorem digitsValue_eq (ds : List Char) : digitsValue ds = Nat.ofDigitChars 10 ds 0 := by
  rw [digitsValue, Nat.ofDigitChars]
  congr 1
  funext v c
  rw [Nat.mul_comm]
  rfl

@[simp] theorem digitsValue_toDigits (n : Nat) : digitsValue (Nat.toDigits 10 n) = n := by
  rw [digitsValue_eq, Nat.ofDigitChars_ten_toDigits]

theorem digitsValue_append_zeros (ds : List Char) (n : Nat) :
    digitsValue (ds ++ Layout.zeros n) = digitsValue ds * 10 ^ n := by
  rw [digitsValue_eq, digitsValue_eq, Nat.ofDigitChars_append, Layout.zeros,
    Nat.ofDigitChars_replicate_zero, Nat.mul_comm]

theorem digitsValue_zeros_append (n : Nat) (ds : List Char) :
    digitsValue (Layout.zeros n ++ ds) = digitsValue ds := by
  rw [digitsValue_eq, digitsValue_eq, Nat.ofDigitChars_append, Layout.zeros,
    Nat.ofDigitChars_replicate_zero, Nat.mul_zero]

theorem digitsValue_zeros (n : Nat) : digitsValue (Layout.zeros n) = 0 := by
  have value := digitsValue_zeros_append n []
  rwa [List.append_nil] at value

/-! ### Whole numbers -/

/-- The first digit is no sign. -/
theorem splitSign_of_isDigits (h : IsDigits ds) (some : ds ≠ []) (rest : List Char) :
    splitSign (ds ++ rest) = (false, ds ++ rest) := by
  cases ds with
  | nil => exact absurd rfl some
  | cons c ds =>
      have digit := h c List.mem_cons_self
      rw [List.cons_append]
      unfold splitSign
      split
      case h_1 eq | h_2 eq =>
        cases eq
        exact absurd digit (by decide)
      case h_3 => rfl

theorem splitSign_wholeNumber (e : Int) :
    splitSign (Layout.wholeNumber e) = (decide (e < 0), Nat.toDigits 10 e.natAbs) := by
  rw [Layout.wholeNumber]
  split
  case isTrue negative =>
    rw [decide_eq_true negative]
    rfl
  case isFalse positive =>
    have first := splitSign_of_isDigits (isDigits_toDigits e.natAbs) Nat.toDigits_ne_nil []
    rwa [List.append_nil, ← decide_eq_false positive] at first

/-- An exponent reads back. -/
theorem readExponent_wholeNumber (e : Int) :
    readExponent ('e' :: Layout.wholeNumber e) = some e := by
  have all : (Nat.toDigits 10 e.natAbs).all isDecimalDigit = true :=
    List.all_eq_true.2 (isDigits_toDigits e.natAbs)
  have some : (Nat.toDigits 10 e.natAbs).isEmpty = false := by simp [Nat.toDigits_ne_nil]
  rw [readExponent, if_pos (.inl rfl), splitSign_wholeNumber]
  simp only [all, some, digitsValue_toDigits, decide_eq_true_eq, Bool.not_true,
    Bool.false_eq_true, or_self, if_false, Option.some.injEq]
  split
  · omega
  · omega

end Written

/-! ### Decimal numbers -/

/-- What can stand behind the digits: nothing, or a power of ten. -/
def IsExponent (rest : List Char) (e : Int) : Prop :=
  (rest = [] ∧ e = 0) ∨ rest = 'e' :: Layout.wholeNumber e

theorem isExponent_nil : IsExponent [] 0 := .inl ⟨rfl, rfl⟩

theorem isExponent_wholeNumber (e : Int) : IsExponent ('e' :: Layout.wholeNumber e) e := .inr rfl

/-- A text has the form of a decimal number, and says this one. -/
inductive Numeral : List Char → Decimal → Prop
  | whole {ds rest : List Char} {e : Int} : IsDigits ds → ds ≠ [] → IsExponent rest e →
      Numeral (ds ++ rest) ⟨Written.digitsValue ds, e⟩
  | fraction {whole fraction rest : List Char} {e : Int} : IsDigits whole → whole ≠ [] →
      IsDigits fraction → IsExponent rest e →
      Numeral (whole ++ '.' :: (fraction ++ rest))
        ⟨Written.digitsValue (whole ++ fraction), e - fraction.length⟩

theorem IsExponent.readExponent (h : IsExponent rest e) : Written.readExponent rest = some e := by
  rcases h with ⟨rfl, rfl⟩ | rfl
  · rfl
  · exact Written.readExponent_wholeNumber e

theorem IsExponent.next (h : IsExponent rest e) :
    rest.head?.all (!isDecimalDigit ·) = true := by
  rcases h with ⟨rfl, -⟩ | rfl <;> rfl

namespace Numeral

variable {d : Decimal}

/-- Such a text is read as the number. -/
theorem readUnsigned (h : Numeral cs d) (negative : Bool) :
    Written.readUnsigned negative cs = some (.number negative d.coefficient d.exponent) := by
  cases h with
  | @whole ds rest e digits some exponent =>
      obtain ⟨front, back⟩ := digits.span exponent.next
      have none : ds.isEmpty = false := by simpa using some
      have read := exponent.readExponent
      rw [Written.readUnsigned, front, back]
      rcases exponent with ⟨rfl, rfl⟩ | rfl
      · simp [none, read]
      · simp [none, read]
  | @fraction whole fraction rest e digits some digits' exponent =>
      have next : ('.' :: (fraction ++ rest)).head?.all (!isDecimalDigit ·) = true := rfl
      obtain ⟨front, back⟩ := digits.span next
      obtain ⟨front', back'⟩ := digits'.span exponent.next
      have none : whole.isEmpty = false := by simpa using some
      rw [Written.readUnsigned, front, back]
      simp [front', back', none, exponent.readExponent]

/-- It starts with a digit. -/
theorem exists_cons (h : Numeral cs d) : ∃ c rest, cs = c :: rest ∧ isDecimalDigit c = true := by
  have first {ds rest : List Char} (digits : IsDigits ds) (some : ds ≠ []) :
      ∃ c rest', ds ++ rest = c :: rest' ∧ isDecimalDigit c = true := by
    cases ds with
    | nil => exact absurd rfl some
    | cons c ds => exact ⟨c, ds ++ rest, rfl, digits c List.mem_cons_self⟩
  cases h with
  | whole digits some => exact first digits some
  | fraction digits some => exact first digits some

/-- With a sign in front of it, such a text is read as a number of that sign. -/
theorem read (h : Numeral cs d) (negative : Bool) :
    Written.read ((if negative then ['-'] else []) ++ cs) =
      some (.number negative d.coefficient d.exponent) := by
  obtain ⟨c, rest, rfl, digit⟩ := h.exists_cons
  have sign : Written.splitSign ((if negative then ['-'] else []) ++ c :: rest) =
      (negative, c :: rest) := by
    cases negative with
    | false =>
        have one : IsDigits [c] := by simpa [IsDigits] using digit
        exact Written.splitSign_of_isDigits one (List.cons_ne_nil c []) rest
    | true => rfl
  have first {d : Char} (other : isDecimalDigit d = false) : c.toLower ≠ d := by
    rw [toLower_of_isDecimalDigit digit]
    rintro rfl
    rw [digit] at other
    cases other
  have i : c.toLower ≠ 'i' := first (by decide)
  have n : c.toLower ≠ 'n' := first (by decide)
  simp [Written.read, sign, i, n, h.readUnsigned]

/-- A character of printed numbers. -/
def IsSymbol (c : Char) : Prop := isDecimalDigit c = true ∨ c = '.' ∨ c = 'e' ∨ c = '-'

instance : DecidablePred IsSymbol := fun _ => inferInstanceAs (Decidable (_ ∨ _))

theorem forall_isSymbol (h : Numeral cs d) : ∀ c ∈ cs, IsSymbol c := by
  have exponents {rest : List Char} {e : Int} (h : IsExponent rest e) : ∀ c ∈ rest, IsSymbol c := by
    have digits (c) (hc : c ∈ Nat.toDigits 10 e.natAbs) : IsSymbol c :=
      .inl (isDigits_toDigits e.natAbs c hc)
    rcases h with ⟨rfl, -⟩ | rfl
    · exact nofun
    · rw [Layout.wholeNumber]
      split
      · simpa [IsSymbol] using digits
      · simpa [IsSymbol] using digits
  cases h with
  | whole digits _ exponent =>
      rw [List.forall_mem_append]
      exact ⟨fun c hc => .inl (digits c hc), exponents exponent⟩
  | fraction digits _ digits' exponent =>
      rw [List.forall_mem_append, List.forall_mem_cons, List.forall_mem_append]
      exact ⟨fun c hc => .inl (digits c hc), .inr (.inl rfl), fun c hc => .inl (digits' c hc),
        exponents exponent⟩

end Numeral

/-! ### Layouts -/

namespace Layout

variable {f : Format} {x y : Binary f}

/-- What stands behind a positional whole number says nothing. -/
def IsPlain (l : Layout) : Prop := l.wholeEnd = [] ∨ l.wholeEnd = ['.', '0']

@[simp] theorem length_zeros (n : Nat) : (zeros n).length = n := List.length_replicate

/-- Zeros behind a whole number multiply it, and its end says nothing. -/
theorem exists_numeral_wholeEnd {l : Layout} (plain : l.IsPlain) (digits : IsDigits ds)
    (some : ds ≠ []) (k : Nat) :
    ∃ d, Numeral (ds ++ zeros k ++ l.wholeEnd) d ∧
      d.value = Decimal.value ⟨Written.digitsValue ds, k⟩ := by
  have front : IsDigits (ds ++ zeros k) := isDigits_append.2 ⟨digits, isDigits_zeros k⟩
  have some' : ds ++ zeros k ≠ [] := List.append_ne_nil_of_left_ne_nil some _
  rcases plain with nothing | zero
  · have said := Numeral.whole front some' isExponent_nil
    rw [nothing]
    refine ⟨_, said, ?_⟩
    rw [Decimal.value, Decimal.value, Written.digitsValue_append_zeros]
    simp
  · have said := Numeral.fraction front some' (isDigits_zeros 1) isExponent_nil
    rw [zero]
    refine ⟨_, said, ?_⟩
    rw [Decimal.value, Decimal.value, Written.digitsValue_append_zeros,
      Written.digitsValue_append_zeros]
    simp

/-- Digits with the point in its place say the number. -/
theorem exists_numeral_positional {l : Layout} (plain : l.IsPlain) (digits : IsDigits ds)
    (some : ds ≠ []) (exponent : Int) :
    ∃ d, Numeral (l.positional ds (exponent + ds.length)) d ∧
      d.value = Decimal.value ⟨Written.digitsValue ds, exponent⟩ := by
  have length : 0 < ds.length := List.length_pos_iff.2 some
  rw [positional]
  split
  case isTrue small =>
    -- the digits are behind the point, after zeros
    have behind : IsDigits (zeros (-(exponent + ds.length)).toNat ++ ds) :=
      isDigits_append.2 ⟨isDigits_zeros _, digits⟩
    have said := Numeral.fraction (isDigits_zeros 1) (List.cons_ne_nil '0' []) behind
      isExponent_nil
    rw [List.append_nil, Written.digitsValue_zeros_append, Written.digitsValue_zeros_append,
      List.length_append, length_zeros] at said
    refine ⟨_, said, ?_⟩
    congr 2
    push_cast
    omega
  case isFalse large =>
    split
    case isTrue fits =>
      -- the digits are in front of the point, and zeros after them
      obtain ⟨k, rfl⟩ : ∃ k : Nat, exponent = k := ⟨exponent.toNat, by omega⟩
      have zeros_eq : (k + ds.length : Int).toNat - ds.length = k := by omega
      rw [zeros_eq]
      exact exists_numeral_wholeEnd plain digits some k
    case isFalse between =>
      have front : ds.take (exponent + ds.length).toNat ≠ [] := by
        rw [← List.length_pos_iff, List.length_take]
        omega
      have said := Numeral.fraction (digits.take _) front (digits.drop (exponent + ds.length).toNat)
        isExponent_nil
      rw [List.append_nil, List.take_append_drop, List.length_drop] at said
      refine ⟨_, said, ?_⟩
      congr 2
      omega

/-- So do digits with an exponent. -/
theorem exists_numeral_scientific (digits : IsDigits ds) (some : ds ≠ []) (exponent : Int) :
    ∃ d, Numeral (scientific ds (exponent + ds.length)) d ∧
      d.value = Decimal.value ⟨Written.digitsValue ds, exponent⟩ := by
  have length : 0 < ds.length := List.length_pos_iff.2 some
  have front : ds.take 1 ≠ [] := by
    rw [← List.length_pos_iff, List.length_take]
    omega
  have cut := List.take_append_drop 1 ds
  have exponent' := isExponent_wholeNumber (exponent + ds.length - 1)
  rw [scientific]
  split
  case isTrue one =>
    have said := Numeral.whole (digits.take 1) front exponent'
    have last : ds.length = 1 := by
      have none := congrArg List.length one
      rw [List.length_drop, List.length_nil] at none
      omega
    rw [one, List.append_nil] at cut
    rw [List.append_nil]
    refine ⟨_, said, ?_⟩
    rw [cut]
    congr 2
    omega
  case isFalse more =>
    have said := Numeral.fraction (digits.take 1) front (digits.drop 1) exponent'
    rw [cut, List.length_drop] at said
    refine ⟨_, by simpa using said, ?_⟩
    congr 2
    omega

/-- In every layout, what is printed says the number. -/
theorem exists_numeral_magnitude {l : Layout} (plain : l.IsPlain) (d : Decimal) :
    ∃ d', Numeral (l.magnitude d) d' ∧ d'.value = d.value := by
  have digits := isDigits_toDigits d.coefficient
  have value : Decimal.value ⟨Written.digitsValue (Nat.toDigits 10 d.coefficient), d.exponent⟩ =
      d.value := by
    rw [Written.digitsValue_toDigits]
  rw [magnitude, ← value]
  split
  · exact exists_numeral_positional plain digits Nat.toDigits_ne_nil d.exponent
  · exact exists_numeral_scientific digits Nat.toDigits_ne_nil d.exponent

/-! ### Values -/

/-- A finite value is printed as its sign and the form of a number that is read as its
magnitude. -/
theorem exists_numeral_render {l : Layout} (plain : l.IsPlain) (finite : x.isFinite = true) :
    ∃ cs d, l.render x = (if x.negative then ['-'] else []) ++ cs ∧ Numeral cs d ∧
      f.ReadsAs x.magnitude d.value := by
  have number := Binary.isNaN_of_isFinite finite
  have bounded : x.isInfinite = false := by
    rw [Binary.isFinite, decide_eq_true_eq] at finite
    rw [Binary.isInfinite, beq_eq_false_iff_ne]
    omega
  rw [render, number, if_neg Bool.false_ne_true]
  simp only [bounded, if_neg Bool.false_ne_true]
  split
  case isTrue zero =>
    have zero : x.magnitude = 0 := eq_of_beq zero
    obtain ⟨d, said, value⟩ := exists_numeral_wholeEnd plain (isDigits_zeros 1)
      (List.cons_ne_nil '0' []) 0
    refine ⟨_, d, rfl, said, ?_⟩
    rw [zero, value, Written.digitsValue_zeros, Decimal.value, Nat.cast_zero, zero_mul]
    exact Format.readsAs_zero
  case isFalse some =>
    have pos : 0 < x.magnitude := Nat.pos_of_ne_zero (by simpa [Binary.isZero] using some)
    obtain ⟨d, said, value⟩ := exists_numeral_magnitude plain (f.shortest l.tie x.magnitude)
    refine ⟨_, d, rfl, said, ?_⟩
    rw [value]
    exact Format.readsAs_shortest l.tie pos

/-- What is printed for a finite value is read as its sign, and a number that is read as its
magnitude. -/
theorem exists_read_render {l : Layout} (plain : l.IsPlain) (finite : x.isFinite = true) :
    ∃ d : Decimal, Written.read (l.render x) = some (.number x.negative d.coefficient d.exponent) ∧
      f.ReadsAs x.magnitude d.value := by
  obtain ⟨cs, d, text, said, reads⟩ := exists_numeral_render plain finite
  refine ⟨d, ?_, reads⟩
  rw [text]
  exact said.read x.negative

/-- No two finite values are printed alike. -/
theorem render_injOn {l : Layout} (plain : l.IsPlain) (hx : x.isFinite = true)
    (hy : y.isFinite = true) (same : l.render x = l.render y) : x = y := by
  obtain ⟨d, read, reads⟩ := exists_read_render plain hx
  obtain ⟨d', read', reads'⟩ := exists_read_render plain hy
  rw [same, read', Option.some.injEq, Written.number.injEq] at read
  obtain ⟨sign, coefficient, exponent⟩ := read
  obtain rfl : d' = d := by
    cases d
    cases d'
    simp_all
  have magnitude := reads.unique reads'
  cases x
  cases y
  simp_all

/-- The characters of printed values. -/
theorem isSymbol_of_mem_render {l : Layout} (plain : l.IsPlain) (finite : x.isFinite = true) :
    ∀ c ∈ l.render x, Numeral.IsSymbol c := by
  obtain ⟨cs, d, text, said, -⟩ := exists_numeral_render plain finite
  rw [text, List.forall_mem_append]
  refine ⟨?_, said.forall_isSymbol⟩
  split
  · simp [Numeral.IsSymbol]
  · exact nofun

end Layout

end SongSheet
