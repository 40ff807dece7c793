/-
SongSheet/Proofs/Sheet/Lines.lean

Reading a text line by line.

A line is decoded from its own text alone.  So the first line that cannot be decoded decides
the error of a text, whatever stands before and after it, and a command that is read stands on
a line that says it (`readLines_cases`).
-/
import SongSheet.Builder

namespace SongSheet

open SheetError Text

/-- A line can be decoded. -/
def Command.Decodes (l : List Char) : Prop := ∃ found, Command.ofLine l = .ok found

/-- A command stands on a line, of lines that are counted from `n` on. -/
def Located.StandsIn (c : Located) (n : Nat) (ls : List (List Char)) : Prop :=
  ∃ i l, ls[i]? = some l ∧ c.line = n + i ∧ Command.ofLine l = .ok (some c.command)

/-- A line that says nothing is decoded, as nothing. -/
theorem Command.ofLine_of_content {l : List Char} (blank : Command.content l = []) :
    Command.ofLine l = .ok none := by
  rw [ofLine, blank]

/-- A command stands on a line that says something. -/
theorem Located.StandsIn.exists_line {c : Located} {ls : List (List Char)}
    (stands : c.StandsIn 1 ls) :
    ∃ l, 1 ≤ c.line ∧ ls[c.line - 1]? = some l ∧ Command.content l ≠ [] := by
  obtain ⟨i, l, found, line, decoded⟩ := stands
  refine ⟨l, by omega, by rw [line, Nat.add_sub_cancel_left, found], fun blank => ?_⟩
  rw [Command.ofLine_of_content blank] at decoded
  cases decoded

/-- A text without a line feed is one line. -/
theorem lines_of_not_mem {cs : List Char} (some : cs ≠ []) (h : '\n' ∉ cs) : lines cs = [cs] := by
  induction cs with
  | nil => exact absurd rfl some
  | cons c cs ih =>
      have other : c ≠ '\n' := fun eq => h (eq ▸ List.mem_cons_self)
      rcases cs with - | ⟨d, ds⟩
      · rw [lines_cons, lines_nil, addToLines, if_neg other]
      · have rest := ih (List.cons_ne_nil d ds) fun hd => h (List.mem_cons_of_mem c hd)
        rw [lines_cons, rest, addToLines, if_neg other]

/-- A line that can be decoded, and the lines after it. -/
theorem readLines_cons {l : List Char} {found : Option Command}
    (decoded : Command.ofLine l = .ok found) (n : Nat) (ls : List (List Char)) :
    readLines n (l :: ls) =
      (readLines (n + 1) ls).map ((found.map (Located.mk n)).toList ++ ·) := by
  rw [readLines, decoded]
  cases found <;> cases readLines (n + 1) ls <;> rfl

/-- The first line that cannot be decoded decides; if all can, commands stand where they were
read. -/
theorem readLines_cases (n : Nat) (ls : List (List Char)) :
    (∃ before l after cause, ls = before ++ l :: after ∧ (∀ k ∈ before, Command.Decodes k) ∧
      Command.ofLine l = .error cause ∧ readLines n ls = .error ⟨n + before.length, cause⟩) ∨
    ∃ cs, (∀ l ∈ ls, Command.Decodes l) ∧ readLines n ls = .ok cs ∧ ∀ c ∈ cs, c.StandsIn n ls := by
  induction ls generalizing n with
  | nil => exact .inr ⟨[], nofun, rfl, nofun⟩
  | cons l ls ih =>
      rcases decoded : Command.ofLine l with cause | found
      · refine .inl ⟨[], l, ls, cause, rfl, nofun, decoded, ?_⟩
        rw [readLines, decoded]
        rfl
      · have read := readLines_cons decoded n ls
        have here : Command.Decodes l := ⟨found, decoded⟩
        rcases ih (n + 1) with ⟨before, l', after, cause, rfl, all, bad, refused⟩ |
          ⟨cs, all, rest, stand⟩
        · have all' := List.forall_mem_cons.2 ⟨here, all⟩
          refine .inl ⟨l :: before, l', after, cause, rfl, all', bad, ?_⟩
          rw [read, refused, List.length_cons, Nat.add_right_comm, Nat.add_assoc]
          rfl
        · -- the commands of the other lines stand one line further down
          have later : ∀ c ∈ cs, c.StandsIn n (l :: ls) := by
            intro c hc
            obtain ⟨i, l', found, line, decoded'⟩ := stand c hc
            exact ⟨i + 1, l', found, by rw [line, Nat.add_assoc, Nat.add_comm 1 i], decoded'⟩
          rw [rest] at read
          cases found with
          | none => exact .inr ⟨cs, List.forall_mem_cons.2 ⟨here, all⟩, read, later⟩
          | some c =>
              refine .inr ⟨⟨n, c⟩ :: cs, List.forall_mem_cons.2 ⟨here, all⟩, read, ?_⟩
              exact List.forall_mem_cons.2 ⟨⟨0, l, rfl, rfl, decoded⟩, later⟩

/-- A line that cannot be decoded is refused in the same way alone. -/
theorem ofText_of_line {l : List Char} {cause : Cause} (single : '\n' ∉ l)
    (bad : Command.ofLine l = .error cause) : Sheet.ofText l = .error ⟨1, cause⟩ := by
  have some : l ≠ [] := by
    rintro rfl
    cases bad
  rw [Sheet.ofText, readCommands, lines_of_not_mem some single, readLines, bad]
  rfl

end SongSheet
