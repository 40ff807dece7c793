/-
SongSheet/Proofs/Yaml/Scalar.lean

A scalar tells its text.

A text is written in one of three styles, and its first character tells which
(`Scalar.Style.ofFirst_render`): a plain scalar starts with no quote.  Between double quotes
every escape reads back as the character that it was written for
(`Scalar.exists_escape_eq`), between single quotes a quote stands for itself when it is
doubled; so the text is found again from the scalar (`Scalar.render_injective`).  And
whatever the text is, colons, dashes, brackets and line feeds included, its scalar is one
line and looks like nothing but a scalar (`Scalar.kind_render`, `Scalar.not_mem_render`).
-/
import Mathlib.Algebra.Group.Nat.Defs
import SongSheet.Proofs.Yaml.Block
import SongSheet.Yaml.Scalar
import SongSheet.Yaml.ScalarText

namespace SongSheet

namespace Yaml.Scalar

open ScalarText

variable {c : Char} {cs : List Char}

/-! ### Escapes -/

theorem digitValue_hexDigit {d : Nat} (h : d < 16) :
    Text.digitValue 16 (hexDigit d) = some d ∧ hexDigit d ≠ '\n' := by
  have all : ∀ d < 16, Text.digitValue 16 (hexDigit d) = some d ∧ hexDigit d ≠ '\n' := by decide
  exact all d h

theorem foldlM_hexDigits (width n : Nat) :
    (hexDigits width n).foldlM (fun v c => (Text.digitValue 16 c).map (v * 16 + ·)) 0 =
      some (n % 16 ^ width) := by
  induction width generalizing n with
  | zero => simp [hexDigits, Nat.mod_one]
  | succ width ih =>
      have digit := (digitValue_hexDigit (Nat.mod_lt n (by decide : 0 < 16))).1
      rw [hexDigits, List.foldlM_append, ih, Nat.pow_succ', Nat.mod_mul]
      simp [digit, Nat.mul_comm, Nat.add_comm]

theorem length_hexDigits (width n : Nat) : (hexDigits width n).length = width := by
  induction width generalizing n with
  | zero => rfl
  | succ width ih => rw [hexDigits, List.length_append, ih, List.length_singleton]

/-- Digits of a width read back, up to that width. -/
theorem readDigits_hexDigits {width n : Nat} (pos : 0 < width) (small : n < 16 ^ width) :
    Text.readDigits 16 (hexDigits width n) = some n := by
  have some : hexDigits width n ≠ [] := by
    rw [← List.length_pos_iff, length_hexDigits]
    exact pos
  rw [Text.readDigits, if_neg (by simpa using some), foldlM_hexDigits, Nat.mod_eq_of_lt small]

theorem not_mem_hexDigits (width n : Nat) : '\n' ∉ hexDigits width n := by
  induction width generalizing n with
  | zero => exact List.not_mem_nil
  | succ width ih =>
      have digit := (digitValue_hexDigit (Nat.mod_lt n (by decide : 0 < 16))).2
      simp [hexDigits, ih, Ne.symm digit]

/-- What stands behind the backslash is one line, and reads back as the character. -/
def IsEscape (c : Char) (e : List Char) : Prop :=
  '\n' ∉ e ∧ ∀ rest, readEscape (e ++ rest) = some (c, e.length)

theorem isEscape_hexDigits {w : Char} {width : Nat} (c : Char) (letter : escaped w = none)
    (line : w ≠ '\n') (wide : escapeWidth w = some width) (pos : 0 < width)
    (small : c.toNat < 16 ^ width) : IsEscape c (w :: hexDigits width c.toNat) := by
  refine ⟨?_, ?_⟩
  · simp [Ne.symm line, not_mem_hexDigits]
  · intro rest
    have length := length_hexDigits width c.toNat
    have digits : (hexDigits width c.toNat ++ rest).take width = hexDigits width c.toNat :=
      List.take_left' length
    have enough : width ≤ (hexDigits width c.toNat ++ rest).length := by
      rw [List.length_append, length]
      exact Nat.le_add_right _ _
    have valid : c.toNat.isValidChar := c.valid
    simp only [List.cons_append, readEscape, letter, wide, Option.bind_eq_bind, Option.bind_some,
      if_pos enough, digits, readDigits_hexDigits pos small, if_pos valid, Char.ofNat_toNat,
      List.length_cons, length]

/-- A character is written as it is, or as an escape for it. -/
theorem exists_escape_eq (c : Char) :
    (c ≠ '\\' ∧ isPrintable c = true ∧ escape c = [c]) ∨
      ∃ e, escape c = '\\' :: e ∧ IsEscape c e := by
  have named {n : Nat} {e : Char} (code : c.toNat = n) (letter : escaped e = some (Char.ofNat n))
      (line : e ≠ '\n') : IsEscape c [e] := by
    refine ⟨by simpa using Ne.symm line, fun rest => ?_⟩
    have char : Char.ofNat n = c := by rw [← code, Char.ofNat_toNat]
    simp [readEscape, letter, char]
  by_cases quote : c = '"'
  · subst quote
    exact .inr ⟨_, rfl, named rfl rfl (by decide)⟩
  by_cases backslash : c = '\\'
  · subst backslash
    exact .inr ⟨_, rfl, named rfl rfl (by decide)⟩
  by_cases printable : isPrintable c = true
  · refine .inl ⟨backslash, printable, ?_⟩
    rw [escape, if_neg quote, if_neg backslash, if_pos printable]
  · right
    rw [escape, if_neg quote, if_neg backslash, if_neg printable]
    split
    case h_10 =>
      have top : c.toNat < 16 ^ 8 := c.val.toNat_lt
      split
      · exact ⟨_, rfl, isEscape_hexDigits c rfl (by decide) rfl (by decide) (by omega)⟩
      · split
        · exact ⟨_, rfl, isEscape_hexDigits c rfl (by decide) rfl (by decide) (by omega)⟩
        · exact ⟨_, rfl, isEscape_hexDigits c rfl (by decide) rfl (by decide) top⟩
    all_goals
      rename_i code
      exact ⟨_, rfl, named code rfl (by decide)⟩

/-- Between double quotes, no character is written like the start of another one. -/
theorem escape_append_inj {c d : Char} {s t : List Char} (eq : escape c ++ s = escape d ++ t) :
    c = d := by
  rcases exists_escape_eq c with ⟨plain, -, hc⟩ | ⟨e, hc, -, reads⟩ <;>
    rcases exists_escape_eq d with ⟨plain', -, hd⟩ | ⟨e', hd, -, reads'⟩ <;>
    rw [hc, hd, List.cons_append, List.cons_append, List.cons.injEq] at eq
  · exact eq.1
  · exact absurd eq.1 plain
  · exact absurd eq.1.symm plain'
  · have same := reads s
    rw [eq.2, reads', Option.some.injEq, Prod.mk.injEq] at same
    exact same.1.symm

/-! ### Styles -/

/-- How a scalar is written. -/
inductive Style where
  | double
  | plain
  | single
  deriving DecidableEq

/-- The style that is chosen for a text. -/
def style (cs : List Char) : Style :=
  if !cs.all isPrintable then .double else if isPlain cs then .plain else .single

/-- Writes a text in a style. -/
def Style.write : Style → List Char → List Char
  | double => doubleQuoted
  | plain => id
  | single => singleQuoted

/-- The style of a scalar that starts with this character. -/
def Style.ofFirst : Option Char → Style
  | some '"' => double
  | some '\x27' => single
  | _ => plain

theorem render_eq (cs : List Char) : render cs = (style cs).write cs := by
  rw [render, style]
  split
  · rfl
  · split <;> rfl

/-- In each style the text can be found again. -/
theorem Style.write_injective (s : Style) : Function.Injective s.write := by
  have piece {f : Char → List Char} (some : ∀ c, f c ≠ [])
      (free : ∀ c d s t, f c ++ s = f d ++ t → c = d) (q : Char) :
      Function.Injective fun cs : List Char => q :: cs.flatMap f ++ [q] := by
    intro cs ds eq
    have inside := List.append_cancel_right (List.cons.inj eq).2
    exact flatMap_injective some free inside
  cases s with
  | double =>
      refine piece ?_ (fun _ _ _ _ => escape_append_inj) '"'
      intro c
      rcases exists_escape_eq c with ⟨-, -, eq⟩ | ⟨e, eq, -⟩ <;> simp [eq]
  | plain => exact Function.injective_id
  | single =>
      refine piece ?_ ?_ '\x27'
      · intro c
        split <;> simp
      · intro c d s t eq
        split at eq <;> split at eq <;> exact (List.cons.inj eq).1

theorem isPlainAllowed_of_style (h : style cs = .plain) : isPlainAllowed cs = true := by
  rw [style] at h
  split at h
  · cases h
  · split at h
    case isTrue plain =>
      simp only [isPlain, Bool.and_eq_true] at plain
      exact plain.1.1
    case isFalse => cases h

/-- A scalar shows its style. -/
theorem Style.ofFirst_render (cs : List Char) : Style.ofFirst (render cs).head? = style cs := by
  rw [render_eq]
  cases h : style cs with
  | double => rfl
  | single => rfl
  | plain =>
      have allowed := isPlainAllowed_of_style h
      cases cs with
      | nil => rfl
      | cons c cs =>
          have first : indicators.contains c = false := by
            simp only [isPlainAllowed, Bool.and_eq_true] at allowed
            simpa using allowed.1.1.1.1.2
          show Style.ofFirst (some c) = plain
          unfold Style.ofFirst
          split
          case h_1 eq | h_2 eq =>
            cases eq
            exact absurd first (by decide)
          case h_3 => rfl

/-- A scalar tells its text. -/
theorem render_injective : Function.Injective render := by
  intro cs ds eq
  have styles : style cs = style ds := by
    rw [← Style.ofFirst_render, eq, Style.ofFirst_render]
  rw [render_eq, render_eq, styles] at eq
  exact (style ds).write_injective eq

/-! ### Lines -/

theorem hasInnerIndicator_cons (c : Char) (h : hasInnerIndicator cs = true) :
    hasInnerIndicator (c :: cs) = true := by
  unfold hasInnerIndicator
  split
  case h_1 eq => cases eq
  case h_5 eq =>
    cases eq
    exact h
  all_goals rfl

theorem hasInnerIndicator_append (front : List Char) (h : hasInnerIndicator cs = true) :
    hasInnerIndicator (front ++ cs) = true := by
  induction front with
  | nil => exact h
  | cons c front ih => exact hasInnerIndicator_cons c ih

/-- A colon that ends a key is found. -/
theorem hasInnerIndicator_of_startsWithKey (h : startsWithKey cs = true) :
    hasInnerIndicator cs = true := by
  obtain ⟨key, behind, rfl, apart⟩ := exists_eq_of_startsWithKey h
  apply hasInnerIndicator_append
  rcases apart with rfl | ⟨r, rfl⟩ <;> rfl

/-- A scalar looks like nothing else. -/
theorem kind_render (cs : List Char) : Kind.ofLine (render cs) = .scalar := by
  rw [render_eq]
  cases h : style cs with
  | double => rfl
  | single => rfl
  | plain =>
      have allowed := isPlainAllowed_of_style h
      simp only [isPlainAllowed, Bool.and_eq_true, Bool.not_eq_true'] at allowed
      obtain ⟨⟨⟨⟨⟨-, first⟩, lead⟩, inner⟩, -⟩, -⟩ := allowed
      have noKey : ¬ startsWithKey cs = true := by
        intro key
        rw [hasInnerIndicator_of_startsWithKey key] at inner
        cases inner
      show Kind.ofLine cs = .scalar
      unfold Kind.ofLine
      rw [if_neg noKey]
      split
      · cases lead
      · exact absurd first (by decide)
      · exact absurd first (by decide)
      · rfl

theorem isPrintable_ne {c : Char} (h : isPrintable c = true) : '\n' ≠ c := by
  rintro rfl
  cases h

/-- Only between double quotes are there characters that are not printable. -/
theorem not_mem_of_style (h : style cs ≠ .double) : '\n' ∉ cs := by
  rw [style] at h
  split at h
  · exact absurd rfl h
  · rename_i printable
    rw [Bool.not_eq_true', Bool.not_eq_false, List.all_eq_true] at printable
    exact fun mem => isPrintable_ne (printable _ mem) rfl

/-- A scalar is one line. -/
theorem not_mem_render (cs : List Char) : '\n' ∉ render cs := by
  rw [render_eq]
  cases h : style cs with
  | double =>
      have inside : ∀ c, '\n' ∉ escape c := by
        intro c
        rcases exists_escape_eq c with ⟨-, printable, eq⟩ | ⟨e, eq, line, -⟩
        · simp [eq, isPrintable_ne printable]
        · simp [eq, line]
      simp [Style.write, doubleQuoted, inside]
  | plain =>
      show '\n' ∉ cs
      exact not_mem_of_style (by simp [h])
  | single =>
      have inside : '\n' ∉ cs := not_mem_of_style (by simp [h])
      have piece : ∀ c ∈ cs, '\n' ∉ (if c = '\x27' then [c, c] else [c]) := by
        intro c hc
        have other : '\n' ≠ c := fun eq => inside (eq ▸ hc)
        split <;> simp [other]
      simpa [Style.write, singleQuoted] using piece

end Yaml.Scalar

end SongSheet
