/-
SongSheet/Text/Lines.lean

The lines of a text.

A line ends at `\n` or at the end of the text; a text that ends in `\n` has no
empty line after it.  A `\r` in front of the `\n` stays in the line: it is
blank, and everything that reads a line ignores blanks at its ends.
-/

namespace SongSheet.Text

/-- One character more in front of a text with the given lines. -/
def addToLines (c : Char) (ls : List (List Char)) : List (List Char) :=
  if c = '\n' then [] :: ls
  else match ls with
    | [] => [[c]]
    | l :: ls => (c :: l) :: ls

/-- The lines of a text, without their `\n`. -/
def lines (cs : List Char) : List (List Char) :=
  cs.foldr addToLines []

@[simp] theorem lines_nil : lines [] = [] := rfl

@[simp] theorem lines_cons (c : Char) (cs : List Char) :
    lines (c :: cs) = addToLines c (lines cs) := by
  simp only [lines, List.foldr_cons]

/-- No line holds a line feed. -/
theorem not_mem_of_mem_lines {cs l : List Char} (hl : l ∈ lines cs) : '\n' ∉ l := by
  induction cs generalizing l with
  | nil => simp at hl
  | cons c cs ih =>
      by_cases hc : c = '\n'
      · simp only [lines_cons, addToLines, hc, if_true, List.mem_cons] at hl
        rcases hl with rfl | hl
        · simp
        · exact ih hl
      · simp only [lines_cons, addToLines, hc, if_false] at hl
        split at hl
        · simp only [List.mem_singleton] at hl
          subst hl
          simpa using Ne.symm hc
        · rename_i l' ls' he
          rcases List.mem_cons.1 hl with rfl | hl
          · intro hm
            rcases List.mem_cons.1 hm with hm | hm
            · exact hc hm.symm
            · exact ih (he ▸ List.mem_cons_self) hm
          · exact ih (he ▸ List.mem_cons_of_mem _ hl)

/-- A text that ends in a line feed can be read apart from what follows it. -/
theorem lines_append_newline (cs ds : List Char) :
    lines (cs ++ '\n' :: ds) = lines (cs ++ ['\n']) ++ lines ds := by
  induction cs with
  | nil => simp [addToLines]
  | cons c cs ih =>
      simp only [List.cons_append, lines_cons, ih]
      by_cases hc : c = '\n'
      · simp [addToLines, hc]
      · simp only [addToLines, hc, if_false]
        cases h : lines (cs ++ ['\n']) with
        | nil =>
            exfalso
            cases cs with
            | nil => simp [addToLines] at h
            | cons e es =>
                simp only [List.cons_append, lines_cons, addToLines] at h
                split at h
                · simp at h
                · split at h <;> simp at h
        | cons l ls => simp

end SongSheet.Text
