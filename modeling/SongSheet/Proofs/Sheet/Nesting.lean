/-
SongSheet/Proofs/Sheet/Nesting.lean

Which commands opened the loops that are open.

A builder keeps the line and the count of each open loop.  They are those of a command for a
loop that is not closed: what follows it is balanced, up to the next such command or to the
end (`OpenedBy`).  So the loop that an `ENDLOOP` closes is the one that the brackets say.
-/
import SongSheet.Proofs.Sheet.Step

namespace SongSheet

/-- The commands, the last one first, whose loops are still open after some commands. -/
def OpenedBy : List Located → List Located → Prop
  | [], cs => Balanced cs
  | o :: os, cs => ∃ before between,
      cs = before ++ o :: between ∧ Balanced between ∧ OpenedBy os before

namespace OpenedBy

variable {o c : Located} {os cs ds : List Located}

/-- Balanced commands leave the open loops. -/
theorem append (h : OpenedBy os cs) (balanced : Balanced ds) : OpenedBy os (cs ++ ds) := by
  cases os with
  | nil => exact Balanced.append h balanced
  | cons o os =>
      obtain ⟨before, between, rfl, inner, outer⟩ := h
      exact ⟨before, between ++ ds, by simp, inner.append balanced, outer⟩

/-- A loop is opened. -/
theorem opened (h : OpenedBy os cs) (o : Located) : OpenedBy (o :: os) (cs ++ [o]) :=
  ⟨cs, [], rfl, balanced_nil, h⟩

/-- The innermost loop is closed. -/
theorem closed {line count : Nat} (h : OpenedBy (⟨line, .loop count⟩ :: os) cs) (last : Nat) :
    OpenedBy os (cs ++ [⟨last, .endLoop⟩]) := by
  obtain ⟨before, between, rfl, inner, outer⟩ := h
  -- with its two ends the loop is balanced, and leaves the loops around it
  have whole := outer.append (inner.enclosed line count last)
  simpa using whole

/-- Each open loop was opened by one of the commands. -/
theorem mem (h : OpenedBy os cs) : ∀ o ∈ os, o ∈ cs := by
  induction os generalizing cs with
  | nil => exact nofun
  | cons o os ih =>
      obtain ⟨before, between, rfl, -, outer⟩ := h
      refine List.forall_mem_cons.2 ⟨List.mem_append_right _ List.mem_cons_self, fun c hc => ?_⟩
      exact List.mem_append_left _ (ih outer c hc)

end OpenedBy

namespace Builder

variable {b b' : Builder}

/-- A command opens and closes loops as the brackets say. -/
theorem Does.openedBy {c : Located} {cs : List Located} (h : b.Does c (.ok b'))
    (opened : OpenedBy b.openings cs) : OpenedBy b'.openings (cs ++ [c]) := by
  cases h with
  | set plain => exact opened.append (balanced_singleton plain)
  | track => exact opened.append (balanced_singleton ⟨rfl, rfl⟩)
  | notes adds =>
      rw [adds.openings]
      exact opened.append (balanced_singleton ⟨rfl, rfl⟩)
  | loop => exact opened.opened _
  | @close line l ls ns b' loops _ _ adds =>
      rw [openings, loops] at opened
      rw [adds.openings]
      exact OpenedBy.closed opened line

/-- The open loops are those that the commands opened and did not close. -/
theorem openedBy_of_run {cs : List Located} (run : initial.run cs = .ok b) :
    b.IsDeclared ∧ OpenedBy b.openings cs :=
  of_run (P := fun cs b => OpenedBy b.openings cs) balanced_nil
    (fun _ opened does => does.openedBy opened) run

end Builder

end SongSheet
