/-
SongSheet/Proofs/Config/Acceptance.lean

Which configurations are accepted.

What a text delivers is a value for each of its two fields, or none, or a refusal
(`Config.valuesOf`).  Whatever the values are, one of three things comes of them
(`Config.Verdict`).  If each is absent or a positive number below `2 ^ 64`, the lengths of time
are the initial ones and these numbers of seconds in whole nanoseconds, the nearest ones.  A
value that is not finite or not positive is refused in the name of its field.  A finite value
of `2 ^ 64` or more passes that check, and then there is no length of time for it, which ends
the program.  The look-ahead is judged first, and the tick only if the look-ahead is accepted.
-/
import SongSheet.Config
import SongSheet.Proofs.Binary.Seconds

namespace SongSheet.Config

open Clock

/-! ### What a text delivers -/

/-- The values of the look-ahead and of the throttle tick in a text, or what is wrong with it. -/
def valuesOf (text : List Char) : Except Refusal (Option Double × Option Double) :=
  if (Text.trim text).isEmpty then .ok (none, none)
  else
    match readRoot (Yaml.Document.ofText text) with
    | .error r => .error r
    | .ok fields =>
        if (Yaml.Document.ofText text).complete then
          .ok ((fields.lookup .lookAhead).bind id, (fields.lookup .throttleTick).bind id)
        else .error .unreadable

/-- A text decides by its values alone. -/
theorem ofYaml_eq (text : List Char) :
    ofYaml text =
      match valuesOf text with
      | .error r => .refused r
      | .ok (lookAhead, throttleTick) => ofValues lookAhead throttleTick := by
  rw [ofYaml, valuesOf]
  by_cases blank : (Text.trim text).isEmpty = true
  · simp only [if_pos blank]
    rfl
  · simp only [if_neg blank]
    cases readRoot (Yaml.Document.ofText text) with
    | error r => rfl
    | ok fields =>
        by_cases whole : (Yaml.Document.ofText text).complete = true
        · simp only [if_pos whole]
          rfl
        · simp only [if_neg whole]

/-- The configuration that is read, if one is. -/
def Reading.config? : Reading → Option Config
  | config c => some c
  | refused _ => none
  | crash => none

theorem Reading.eq_config {r : Reading} {c : Config} (h : r.config? = some c) : r = .config c := by
  cases r with
  | config c' => rw [Option.some.inj h]
  | refused | crash => cases h

/-! ### One value -/

/-- A value that is not there stands for the initial length; one that is there has to be a
positive number below `2 ^ 64`, and stands for the nanoseconds nearest to it. -/
def IsLength (initial : Nat) (value : Option Double) (n : Nat) : Prop :=
  match value with
  | none => n = initial
  | some x => x.IsPositive ∧ x.value < 2 ^ 64 ∧ IsNearest (x.value * second) n

/-- A value that is not a positive number. -/
def IsBad (value : Option Double) (x : Double) : Prop := value = some x ∧ ¬ x.IsPositive

/-- A positive number that is too large. -/
def IsTooLong (value : Option Double) : Prop :=
  ∃ x, value = some x ∧ x.IsPositive ∧ 2 ^ 64 ≤ x.value

section Values

variable {field : Field} {initial n : Nat} {value : Option Double} {x : Double}

/-- A positive number has a length. -/
theorem lengthOf_of_isPositive (h : x.IsPositive) :
    lengthOf field initial (some x) = .ok (nanoseconds x) :=
  if_pos (Binary.isPositive_iff.1 h)

/-- What is not a positive number is refused. -/
theorem lengthOf_of_not_isPositive (h : ¬ x.IsPositive) :
    lengthOf field initial (some x) = .error (.notPositive field x) :=
  if_neg fun accepted => h (Binary.isPositive_iff.2 accepted)

theorem lengthOf_of_isLength (h : IsLength initial value n) :
    lengthOf field initial value = .ok (some n) := by
  cases value with
  | none => rw [show n = initial from h]; rfl
  | some x =>
      obtain ⟨positive, fits⟩ := h
      rw [lengthOf_of_isPositive positive, (nanoseconds_eq_some_iff positive).2 fits]

theorem lengthOf_of_isBad (h : IsBad value x) :
    lengthOf field initial value = .error (.notPositive field x) := by
  obtain ⟨rfl, bad⟩ := h
  exact lengthOf_of_not_isPositive bad

theorem lengthOf_of_isTooLong (h : IsTooLong value) : lengthOf field initial value = .ok none := by
  obtain ⟨x, rfl, positive, large⟩ := h
  rw [lengthOf_of_isPositive positive, (nanoseconds_eq_none_iff positive).2 large]

/-- Every value is in one of three ways. -/
theorem value_cases (initial : Nat) (value : Option Double) :
    (∃ n, IsLength initial value n) ∨ (∃ x, IsBad value x) ∨ IsTooLong value := by
  cases value with
  | none => exact .inl ⟨initial, rfl⟩
  | some x =>
      by_cases positive : x.IsPositive
      · cases length : nanoseconds x with
        | some n => exact .inl ⟨n, positive, (nanoseconds_eq_some_iff positive).1 length⟩
        | none => exact .inr (.inr ⟨x, rfl, positive, (nanoseconds_eq_none_iff positive).1 length⟩)
      · exact .inr (.inl ⟨x, rfl, positive⟩)

/-- These ways exclude each other. -/
theorem IsLength.not_isBad (h : IsLength initial value n) : ¬ IsBad value x := by
  rintro ⟨rfl, bad⟩
  exact bad h.1

theorem IsLength.not_isTooLong (h : IsLength initial value n) : ¬ IsTooLong value := by
  rintro ⟨x, rfl, -, large⟩
  exact not_le.2 h.2.1 large

theorem IsBad.not_isTooLong (h : IsBad value x) : ¬ IsTooLong value := by
  rintro ⟨y, same, positive, -⟩
  obtain ⟨rfl, bad⟩ := h
  cases same
  exact bad positive

end Values

/-! ### Both values -/

/-- What comes of a look-ahead and a throttle tick.  Nothing is asked of the tick where the
look-ahead has no length. -/
inductive Verdict (lookAhead throttleTick : Option Double) : Reading → Prop
  | accepted {a t : Nat} : IsLength initial.lookAhead lookAhead a →
      IsLength initial.throttleTick throttleTick t →
      Verdict lookAhead throttleTick (.config ⟨a, t⟩)
  | badLookAhead {x : Double} : IsBad lookAhead x →
      Verdict lookAhead throttleTick (.refused (.notPositive .lookAhead x))
  | longLookAhead : IsTooLong lookAhead → Verdict lookAhead throttleTick .crash
  | badTick {a : Nat} {x : Double} : IsLength initial.lookAhead lookAhead a →
      IsBad throttleTick x →
      Verdict lookAhead throttleTick (.refused (.notPositive .throttleTick x))
  | longTick {a : Nat} : IsLength initial.lookAhead lookAhead a → IsTooLong throttleTick →
      Verdict lookAhead throttleTick .crash

variable {lookAhead throttleTick : Option Double} {r : Reading}

/-- The reading is what the verdict says. -/
theorem Verdict.ofValues_eq (h : Verdict lookAhead throttleTick r) :
    ofValues lookAhead throttleTick = r := by
  rw [ofValues]
  cases h with
  | accepted a t => rw [lengthOf_of_isLength a, lengthOf_of_isLength t]
  | badLookAhead bad => rw [lengthOf_of_isBad bad]
  | longLookAhead long => rw [lengthOf_of_isTooLong long]
  | badTick a bad => rw [lengthOf_of_isLength a, lengthOf_of_isBad bad]
  | longTick a long => rw [lengthOf_of_isLength a, lengthOf_of_isTooLong long]

/-- Every two values come to a verdict. -/
theorem exists_verdict (lookAhead throttleTick : Option Double) :
    ∃ r, Verdict lookAhead throttleTick r := by
  rcases value_cases initial.lookAhead lookAhead with ⟨a, length⟩ | ⟨x, bad⟩ | long
  · rcases value_cases initial.throttleTick throttleTick with ⟨t, length'⟩ | ⟨x, bad⟩ | long
    · exact ⟨_, .accepted length length'⟩
    · exact ⟨_, .badTick length bad⟩
    · exact ⟨_, .longTick length long⟩
  · exact ⟨_, .badLookAhead bad⟩
  · exact ⟨_, .longLookAhead long⟩

/-- So the verdict is one, and it is the reading. -/
theorem verdict_iff : Verdict lookAhead throttleTick r ↔ ofValues lookAhead throttleTick = r := by
  constructor
  · exact Verdict.ofValues_eq
  · rintro rfl
    obtain ⟨r, h⟩ := exists_verdict lookAhead throttleTick
    rwa [h.ofValues_eq]

/-- A value that is refused is refused in the name of its field. -/
theorem key_of_notPositive (field : Field) (x : Double) :
    ∃ s, (Refusal.notPositive field x).wording = some s ∧ field.key.toList <+: s.toList := by
  refine ⟨_, rfl, ?_⟩
  simp only [toString, String.toList_append, List.append_assoc]
  exact List.prefix_append _ _

/-- A configuration, or a value that is refused, is what comes of two values unless the first of
them that is not accepted is too long. -/
theorem config_or_refused_iff (lookAhead throttleTick : Option Double) :
    (∃ c, ofValues lookAhead throttleTick = .config c) ∨
        (∃ field x, ofValues lookAhead throttleTick = .refused (.notPositive field x)) ↔
      ¬ IsTooLong lookAhead ∧ ((∃ x, IsBad lookAhead x) ∨ ¬ IsTooLong throttleTick) := by
  obtain ⟨r, verdict⟩ := exists_verdict lookAhead throttleTick
  rw [verdict.ofValues_eq]
  have not_crash : ¬ ((∃ c, Reading.crash = .config c) ∨
      ∃ field x, Reading.crash = .refused (.notPositive field x)) := by
    rintro (⟨c, same⟩ | ⟨field, x, same⟩)
    · cases same
    · cases same
  cases verdict with
  | accepted a t =>
      exact iff_of_true (.inl ⟨_, rfl⟩) ⟨a.not_isTooLong, .inr t.not_isTooLong⟩
  | badLookAhead bad =>
      exact iff_of_true (.inr ⟨_, _, rfl⟩) ⟨bad.not_isTooLong, .inl ⟨_, bad⟩⟩
  | longLookAhead long => exact iff_of_false not_crash fun short => short.1 long
  | badTick a bad =>
      exact iff_of_true (.inr ⟨_, _, rfl⟩) ⟨a.not_isTooLong, .inr bad.not_isTooLong⟩
  | longTick a long =>
      refine iff_of_false not_crash ?_
      rintro ⟨-, ⟨x, bad⟩ | short⟩
      · exact a.not_isBad bad
      · exact short long

/-- What comes of a configuration text.  It is refused for what stands in it, or delivers two
values that come to a verdict; and every two values come to one verdict, whatever they are.  It
is a configuration of the nearest nanoseconds, or a refusal, unless a value is a finite number
of `2 ^ 64` or more.  Where both values are bad, the refusal names the look-ahead. -/
theorem ofYaml_by_verdict (text : List Char) (lookAhead throttleTick : Option Double) :
    ((∃ r, valuesOf text = .error r ∧ ofYaml text = .refused r) ∨
      ∃ a t, valuesOf text = .ok (a, t) ∧ Verdict a t (ofYaml text)) ∧
    (∀ r, Verdict lookAhead throttleTick r ↔ ofValues lookAhead throttleTick = r) ∧
    ((∃ c, ofValues lookAhead throttleTick = .config c) ∨
        (∃ field x, ofValues lookAhead throttleTick = .refused (.notPositive field x)) ↔
      ¬ IsTooLong lookAhead ∧ ((∃ x, IsBad lookAhead x) ∨ ¬ IsTooLong throttleTick)) ∧
    ∀ x y, IsBad lookAhead x → IsBad throttleTick y →
      ∃ r s, ofValues lookAhead throttleTick = .refused r ∧ r.wording = some s ∧
        "look-ahead-secs".toList <+: s.toList := by
  refine ⟨?_, fun _ => verdict_iff, config_or_refused_iff lookAhead throttleTick, ?_⟩
  · have reading := ofYaml_eq text
    rcases values : valuesOf text with r | ⟨a, t⟩
    · rw [values] at reading
      exact .inl ⟨r, rfl, reading⟩
    · rw [values] at reading
      exact .inr ⟨a, t, rfl, verdict_iff.2 reading.symm⟩
  · intro x y bad _
    obtain ⟨s, wording, named⟩ := key_of_notPositive .lookAhead x
    exact ⟨_, s, (Verdict.badLookAhead bad).ofValues_eq, wording, named⟩

/-- A finite number of seconds that no length of time can hold ends the program: it is not
refused, and there is no configuration. -/
theorem crash_of_endless :
    ofYaml "look-ahead-secs: 1e300".toList = .crash ∧
      ∃ x, valuesOf "look-ahead-secs: 1e300".toList = .ok (some x, none) ∧ x.IsPositive := by
  have delivered : (valuesOf "look-ahead-secs: 1e300".toList).toOption.any
      (fun values => values.2.isNone && values.1.any fun x =>
        x.isFinite && (Binary.zero false).lt x && (nanoseconds x).isNone) = true := by
    decide +kernel
  have reading := ofYaml_eq "look-ahead-secs: 1e300".toList
  rcases values : valuesOf "look-ahead-secs: 1e300".toList with r | ⟨lookAhead, throttleTick⟩
  · rw [values] at delivered
    cases delivered
  · rw [values] at delivered reading
    obtain ⟨absent, large⟩ := Bool.and_eq_true_iff.1 delivered
    obtain rfl : throttleTick = none := Option.isNone_iff_eq_none.1 absent
    cases lookAhead with
    | none => cases large
    | some x =>
        rw [Option.any_some, Bool.and_eq_true, Option.isNone_iff_eq_none] at large
        have positive := Binary.isPositive_iff.2 large.1
        refine ⟨?_, x, rfl, positive⟩
        rw [reading]
        apply Verdict.ofValues_eq
        exact .longLookAhead ⟨x, rfl, positive, (nanoseconds_eq_none_iff positive).1 large.2⟩

end SongSheet.Config
