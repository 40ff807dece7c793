/-
SongSheet/Proofs/Sheet/NestedLoops.lean

A loop in a loop is one loop.

The inner of two nested loops is closed onto the buffer of the outer one, which is empty, and
the outer one onto the target behind both, which its body may have moved by entering a track.
So the notes are held against the limit twice, on different targets.  But where the outer loop
repeats them at least once and may be closed, the inner one may be closed too, and what the
outer one counts is what one loop with the product of the counts would count
(`Passage.mayClose_nested`).  Where the limit is exceeded, both ways are refused for the same
cause, each at a line of its own.
-/
import SongSheet.Proofs.Sheet.Excerpt

namespace SongSheet

open SheetError

/-! ### Copies of copies -/

/-- Copies of copies are as many as the product of the counts. -/
theorem flatten_replicate_flatten (m n : Nat) (notes : List Note) :
    (List.replicate m (List.replicate n notes).flatten).flatten =
      (List.replicate (m * n) notes).flatten := by
  induction m with
  | zero => simp
  | succ m ih =>
      rw [List.replicate_succ, List.flatten_cons, ih, ← List.flatten_append,
        List.replicate_append_replicate, Nat.succ_mul, Nat.add_comm n]

/-- Both of two nested loops may be closed exactly if one loop with the product of their counts
may. -/
theorem Passage.mayClose_nested {m : Nat} (least : 1 ≤ m) (n onto : Nat) (notes : List Note) :
    (mayClose n notes 0 && mayClose m (List.replicate n notes).flatten onto) =
      mayClose (m * n) notes onto := by
  have all : notes.length * n * m = notes.length * (m * n) := by
    rw [Nat.mul_assoc, Nat.mul_comm n m]
  -- with no repetition outside, the inner loop could exceed the limit alone
  have inner : notes.length * n ≤ notes.length * n * m := Nat.le_mul_of_pos_right _ least
  simp only [mayClose, Builder.length_copies, ← Bool.decide_and, decide_eq_decide]
  omega

/-! ### Two loops and one -/

namespace Builder

variable {b : Builder} {pre body : List Located} {m : Nat}

/-- Two nested loops work exactly if one with the product of their counts does, and then they do
the same. -/
theorem toOption_run_nested (run : initial.run pre = .ok b) (balanced : Balanced body)
    (least : 1 ≤ m) (n line last : Nat) :
    (b.run (enclosed line m (enclosed line n body last) last)).toOption =
      (b.run (enclosed line (m * n) body last)).toOption := by
  obtain ⟨p, rfl⟩ := balanced_iff_exists_passage.1 balanced
  obtain ⟨x, score⟩ := exists_score run
  let inner : Passage := .loop line n p last .nil
  have commands : enclosed line n p.commands last = inner.commands := rfl
  have settings : inner.settings b.settings = p.settings b.settings := rfl
  have entered : inner.entered = p.entered := List.append_nil _
  have notes : inner.expand b.settings = (List.replicate n (p.expand b.settings)).flatten :=
    List.append_nil _
  have fits : inner.fitsIn b.settings 0 =
      (p.fitsIn b.settings 0 && Passage.mayClose n (p.expand b.settings) 0) :=
    Bool.and_true _
  rw [commands, score, x.toOption_run_enclosed inner, x.toOption_run_enclosed p, settings,
    entered, notes, fits, Bool.and_assoc, Passage.mayClose_nested least,
    flatten_replicate_flatten]

/-- Two nested loops do what one does, or are refused as that one is. -/
theorem run_nested (run : initial.run pre = .ok b) (balanced : Balanced body)
    (least : 1 ≤ m) (n line last : Nat) :
    UpToLine Eq (b.run (enclosed line m (enclosed line n body last) last))
      (b.run (enclosed line (m * n) body last)) := by
  have two := (balanced.enclosed line n last).enclosed line m last
  have one := balanced.enclosed line (m * n) last
  apply UpToLine.of_toOption (toOption_run_nested run balanced least n line last)
  · intro e failed
    exact cause_of_run run two failed
  · intro e failed
    exact cause_of_run run one failed

end Builder

/-- On any lines, anywhere among other commands. -/
theorem nested_at_lines {body : List Located} (balanced : Balanced body) (pre suf : List Located)
    {m : Nat} (least : 1 ≤ m) (n line last : Nat) :
    UpToLine Eq
      (Sheet.ofCommands (pre ++ (enclosed line m (enclosed line n body last) last ++ suf)))
      (Sheet.ofCommands (pre ++ (enclosed line (m * n) body last ++ suf))) := by
  rcases run : Builder.initial.run pre with e | b
  · rw [Builder.ofCommands_of_error run, Builder.ofCommands_of_error run]
    exact .refl _
  · rw [Builder.ofCommands_append run, Builder.ofCommands_append run]
    apply (Builder.run_nested run balanced least n line last).bind
    rintro b' _ rfl
    exact .refl _

/-- Nested loops multiply.  Around any commands with their loops paired, and among any others,
two loops and one with the product of their counts give the same sheet; or both lists are
refused for the same cause, each at a line of its own.  The outer of the two loops has to
repeat its body at least once. -/
theorem nested_loops_multiply {body : List Located} (balanced : Balanced body)
    (pre suf : List Located) {m : Nat} (least : 1 ≤ m) (n : Nat) {nested single : List Located}
    (two : commandsOf nested = commandsOf pre ++ [.loop m, .loop n] ++ commandsOf body ++
      [.endLoop, .endLoop] ++ commandsOf suf)
    (one : commandsOf single = commandsOf pre ++ [.loop (m * n)] ++ commandsOf body ++
      [.endLoop] ++ commandsOf suf) :
    (∃ sheet, Sheet.ofCommands nested = .ok sheet ∧ Sheet.ofCommands single = .ok sheet) ∨
    ∃ cause line line', Sheet.ofCommands nested = .error ⟨line, cause⟩ ∧
      Sheet.ofCommands single = .error ⟨line', cause⟩ := by
  have sameTwo : UpToLine Eq (Sheet.ofCommands nested)
      (Sheet.ofCommands (pre ++ (enclosed 0 m (enclosed 0 n body 0) 0 ++ suf))) :=
    ofCommands_upToLine (by simp [two])
  have sameOne : UpToLine Eq (Sheet.ofCommands single)
      (Sheet.ofCommands (pre ++ (enclosed 0 (m * n) body 0 ++ suf))) :=
    ofCommands_upToLine (by simp [one])
  have agree := (sameTwo.trans (nested_at_lines balanced pre suf least n 0 0)).trans sameOne.symm
  rcases first : Sheet.ofCommands nested with ⟨line, cause⟩ | sheet
  · obtain ⟨line', second⟩ := agree.eq_error first
    exact .inr ⟨cause, line, line', rfl, second⟩
  · exact .inl ⟨sheet, rfl, agree.eq_ok first⟩

/-- A row, and a row on a track of its own. -/
def medley : List Located :=
  [⟨4, .notes [⟨[.ofNat 440], ⟨.quarter, false⟩⟩]⟩, ⟨5, .track "bass"⟩,
    ⟨6, .notes [⟨[.ofNat 110], ⟨.half, false⟩⟩]⟩]

/-- Two loops around it, in a loop that is closed last. -/
def medleyNested : List Located :=
  [⟨1, .loop 2⟩, ⟨2, .loop 2⟩, ⟨3, .loop 3⟩] ++ medley ++
    [⟨7, .endLoop⟩, ⟨8, .endLoop⟩, ⟨9, .endLoop⟩]

/-- One loop around it, in the same loop. -/
def medleySingle : List Located :=
  [⟨1, .loop 2⟩, ⟨2, .loop 6⟩] ++ medley ++ [⟨7, .endLoop⟩, ⟨8, .endLoop⟩]

/-- All notes are repeated twelve times, onto the track that is entered last. -/
theorem nested_loops_multiply_medley :
    ∃ sheet, Sheet.ofCommands medleyNested = .ok sheet ∧
      Sheet.ofCommands medleySingle = .ok sheet ∧
      sheet.tracks.map (·.notes.length) = [0, 24] := by
  have read : (Sheet.ofCommands medleyNested).map
      (fun sheet => sheet.tracks.map (·.notes.length)) = .ok [0, 24] := by
    decide +kernel
  have balanced : Balanced medley := by
    apply Balanced.append (balanced_singleton ⟨rfl, rfl⟩)
    exact (balanced_singleton ⟨rfl, rfl⟩).append (balanced_singleton ⟨rfl, rfl⟩)
  have two : commandsOf medleyNested = commandsOf [⟨1, .loop 2⟩] ++ [.loop 2, .loop 3] ++
      commandsOf medley ++ [.endLoop, .endLoop] ++ commandsOf [⟨9, .endLoop⟩] := rfl
  have one : commandsOf medleySingle = commandsOf [⟨1, .loop 2⟩] ++ [.loop (2 * 3)] ++
      commandsOf medley ++ [.endLoop] ++ commandsOf [⟨9, .endLoop⟩] := rfl
  rcases nested_loops_multiply balanced _ _ (by decide) 3 two one with
    ⟨sheet, nested, single⟩ | ⟨cause, line, line', refused, -⟩
  · rw [nested] at read
    exact ⟨sheet, nested, single, Except.ok.inj read⟩
  · rw [refused] at read
    cases read

end SongSheet
