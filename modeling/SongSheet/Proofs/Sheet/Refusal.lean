/-
SongSheet/Proofs/Sheet/Refusal.lean

Which error a text is refused with, and where.

A text is read in full before its first command runs.  So the first line that cannot be
decoded decides the error, whatever stands before it (`readLines_cases`).  If all lines can,
the first command that fails decides, which closes a loop (`Builder.exists_fault`); and if
none fails, a loop is left open.  Commands keep the numbers of their lines, and loops those of
the commands that opened them, so an error is found on a line that says something.
-/
import SongSheet.Proofs.Sheet.Lines
import SongSheet.Proofs.Sheet.Nesting

namespace SongSheet

open SheetError Text

/-! ### Commands -/

/-- In what follows a loop that is not closed, and is balanced, every loop is closed. -/
theorem Balanced.not_closesWithin {cs u v : List Located} {line count : Nat} (h : Balanced cs)
    (eq : cs = u ++ ⟨line, .loop count⟩ :: v) : ¬ ClosesWithin 0 v := by
  intro unclosed
  subst eq
  have before := h.1 u (List.prefix_append ..)
  have after := unclosed v (List.prefix_refl v)
  have all := h.2
  rw [closed_append, opened_append, closed_loop, opened_loop] at all
  omega

namespace Builder

/-- If commands fail, one of them is the first that does. -/
theorem exists_fault {b : Builder} {cs : List Located} {e : SheetError}
    (h : b.run cs = .error e) : ∃ before c after b', cs = before ++ c :: after ∧
      b.run before = .ok b' ∧ b'.step c = .error e := by
  induction cs generalizing b with
  | nil => cases h
  | cons c cs ih =>
      rw [run_cons] at h
      rcases step : b.step c with e' | next
      · rw [step] at h
        cases h
        exact ⟨[], c, cs, b, rfl, rfl, step⟩
      · rw [step] at h
        obtain ⟨before, c', after, b', rfl, ran, failed⟩ := ih h
        exact ⟨c :: before, c', after, b', rfl, by rw [run_cons, step]; exact ran, failed⟩

/-- What fails is the end of a loop that was not opened, or that is too large. -/
theorem fault_of_step {cs : List Located} {b : Builder} {c : Located} {e : SheetError}
    (run : initial.run cs = .ok b) (failed : b.step c = .error e) :
    c.command = .endLoop ∧
      (Balanced cs ∧ e = ⟨c.line, .unmatchedEndLoop⟩ ∨
        ∃ outer line count body, cs = outer ++ ⟨line, .loop count⟩ :: body ∧ Balanced body ∧
          e = ⟨line, .loopTooLarge noteLimit⟩) := by
  obtain ⟨declared, opened⟩ := openedBy_of_run run
  have does := declared.does_step c
  rw [failed] at does
  cases does with
  | unmatched none =>
      rw [openings, none] at opened
      exact ⟨rfl, .inl ⟨opened, rfl⟩⟩
  | tooLarge loops _ _ =>
      rw [openings, loops] at opened
      obtain ⟨outer, body, rfl, inner, -⟩ := opened
      exact ⟨rfl, .inr ⟨outer, _, _, body, rfl, inner, rfl⟩⟩

/-- What is not finished has a loop that is not closed. -/
theorem unclosed_of_finish {cs : List Located} {b : Builder} {e : SheetError}
    (run : initial.run cs = .ok b) (failed : b.finish = .error e) :
    ∃ before line count after, cs = before ++ ⟨line, .loop count⟩ :: after ∧ Balanced after ∧
      e = ⟨line, .unclosedLoop⟩ := by
  obtain ⟨-, opened⟩ := openedBy_of_run run
  rw [finish] at failed
  split at failed
  case h_1 l ls loops =>
    cases failed
    rw [openings, loops] at opened
    obtain ⟨before, after, rfl, inner, -⟩ := opened
    exact ⟨before, l.line, l.count, after, rfl, inner, rfl⟩
  case h_2 => cases failed

/-- Commands that make no sheet: one of them fails, or a loop is left open.  The line of the
error is that of a command. -/
theorem fault_of_ofCommands {cs : List Located} {e : SheetError}
    (h : Sheet.ofCommands cs = .error e) :
    (initial.run cs = .error e ∧
        (∃ before c after b, cs = before ++ c :: after ∧
          initial.run before = .ok b ∧ b.step c = .error e ∧ c.command = .endLoop ∧
          (Balanced before ∧ e = ⟨c.line, .unmatchedEndLoop⟩ ∨
            ∃ outer line count body, before = outer ++ ⟨line, .loop count⟩ :: body ∧
              Balanced body ∧ e = ⟨line, .loopTooLarge noteLimit⟩)) ∨
      (∃ b, initial.run cs = .ok b) ∧
        ∃ before line count after, cs = before ++ ⟨line, .loop count⟩ :: after ∧
          e = ⟨line, .unclosedLoop⟩ ∧ ClosesWithin 0 after ∧
          ∀ u line' count' v, after = u ++ ⟨line', .loop count'⟩ :: v → ¬ ClosesWithin 0 v) ∧
    ∃ c ∈ cs, c.line = e.line := by
  have failed : (initial.run cs).bind (·.finish) = .error e := h
  rcases run : initial.run cs with e' | b
  · -- the first command that fails has the builder of those before it
    rw [run] at failed
    cases failed
    obtain ⟨before, c, after, b, rfl, ran, fault⟩ := exists_fault run
    obtain ⟨ends, why⟩ := fault_of_step ran fault
    refine ⟨.inl ⟨rfl, before, c, after, b, rfl, ran, fault, ends, why⟩, ?_⟩
    rcases why with ⟨-, rfl⟩ | ⟨outer, line, count, body, rfl, -, rfl⟩
    · exact ⟨c, List.mem_append_right _ List.mem_cons_self, rfl⟩
    · exact ⟨⟨line, .loop count⟩, by simp, rfl⟩
  · rw [run] at failed
    obtain ⟨before, line, count, after, rfl, inner, rfl⟩ := unclosed_of_finish run failed
    exact ⟨.inr ⟨⟨b, rfl⟩, before, line, count, after, rfl, rfl, inner.1,
      fun u line' count' v eq => inner.not_closesWithin eq⟩,
      ⟨line, .loop count⟩, by simp, rfl⟩

end Builder

/-! ### Texts -/

/-- The first fault of a text decides.  If a text is refused, then
* either some line cannot be decoded, and the error is that of the first such line, with its
  number, and is the one that the line is refused with alone;
* or all lines can be decoded, and a command fails: the error is that of the first one, which
  ends a loop, and either no loop is open there, and the error has its line, or the loop is too
  large, and the error has the line of the command that opened it;
* or no command fails either, and the error has the line of the last command that opens a loop
  which is not closed.

In any case the line of the error is one of the text, and says something. -/
theorem refused_by_first_fault {text : List Char} {e : SheetError}
    (h : Sheet.ofText text = .error e) :
    ((∃ before l after cause, lines text = before ++ l :: after ∧
        (∀ k ∈ before, Command.Decodes k) ∧ Command.ofLine l = .error cause ∧
        e = ⟨before.length + 1, cause⟩ ∧ Sheet.ofText l = .error ⟨1, cause⟩) ∨
      ∃ cs, (∀ l ∈ lines text, Command.Decodes l) ∧ readCommands text = .ok cs ∧
        (Builder.initial.run cs = .error e ∧
            (∃ before c after b, cs = before ++ c :: after ∧
              Builder.initial.run before = .ok b ∧ b.step c = .error e ∧ c.command = .endLoop ∧
              (Balanced before ∧ e = ⟨c.line, .unmatchedEndLoop⟩ ∨
                ∃ outer line count body, before = outer ++ ⟨line, .loop count⟩ :: body ∧
                  Balanced body ∧ e = ⟨line, .loopTooLarge Builder.noteLimit⟩)) ∨
          (∃ b, Builder.initial.run cs = .ok b) ∧
            ∃ before line count after, cs = before ++ ⟨line, .loop count⟩ :: after ∧
              e = ⟨line, .unclosedLoop⟩ ∧ ClosesWithin 0 after ∧
              ∀ u line' count' v, after = u ++ ⟨line', .loop count'⟩ :: v →
                ¬ ClosesWithin 0 v)) ∧
    ∃ l, 1 ≤ e.line ∧ (lines text)[e.line - 1]? = some l ∧ Command.content l ≠ [] := by
  rcases readLines_cases 1 (lines text) with ⟨before, l, after, cause, eq, all, bad, refused⟩ |
    ⟨cs, all, read, stand⟩
  · -- no command runs, and the line alone is a text that is refused on its first line
    have refused : readCommands text = .error ⟨1 + before.length, cause⟩ := refused
    rw [Sheet.ofText, refused] at h
    cases h
    have here : l ∈ lines text := eq ▸ List.mem_append_right _ List.mem_cons_self
    refine ⟨.inl ⟨before, l, after, cause, eq, all, bad, by rw [Nat.add_comm],
      ofText_of_line (not_mem_of_mem_lines here) bad⟩, l, Nat.le_add_right .., ?_, fun blank => ?_⟩
    · rw [Nat.add_sub_cancel_left, eq, List.getElem?_append_right (Nat.le_refl _), Nat.sub_self]
      rfl
    · rw [Command.ofLine_of_content blank] at bad
      cases bad
  · have read : readCommands text = .ok cs := read
    rw [Sheet.ofText, read] at h
    obtain ⟨fault, c, hc, line⟩ := Builder.fault_of_ofCommands h
    exact ⟨.inr ⟨cs, all, read, fault⟩, line ▸ (stand c hc).exists_line⟩

/-- The loop that is not open on the first line does not matter, since the third cannot be
decoded. -/
theorem refused_by_first_fault_tempo :
    Sheet.ofText "#ENDLOOP\n\n#BPM 0 ; none".toList = .error ⟨3, .invalidArgument .bpm "0"⟩ ∧
      ∃ l, (lines "#ENDLOOP\n\n#BPM 0 ; none".toList)[2]? = some l ∧
        Sheet.ofText l = .error ⟨1, .invalidArgument .bpm "0"⟩ := by
  have refused : Sheet.ofText "#ENDLOOP\n\n#BPM 0 ; none".toList =
      .error ⟨3, .invalidArgument .bpm "0"⟩ := by
    decide +kernel
  refine ⟨refused, ?_⟩
  obtain ⟨first | ⟨cs, -, read, -⟩, -⟩ := refused_by_first_fault refused
  · obtain ⟨before, l, after, cause, eq, -, -, same, alone⟩ := first
    obtain ⟨line, rfl⟩ := SheetError.mk.inj same
    obtain length : before.length = 2 := (Nat.succ.inj line).symm
    refine ⟨l, ?_, alone⟩
    rw [eq, List.getElem?_append_right (Nat.le_of_eq length), length]
    rfl
  · rw [Sheet.ofText, read] at refused
    have other : readCommands "#ENDLOOP\n\n#BPM 0 ; none".toList ≠ .ok cs := by
      have error : (readCommands "#ENDLOOP\n\n#BPM 0 ; none".toList).toOption = none := by
        decide +kernel
      intro eq
      rw [eq] at error
      cases error
    exact absurd read other

end SongSheet
