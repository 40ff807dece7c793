/-
SongSheet/Text/Split.lean

Cutting text at a separator or at a word.
-/

namespace SongSheet.Text

/-- The text in front of the first `sep` and the text behind it. -/
def splitFirst (sep : Char) (cs : List Char) : Option (List Char × List Char) :=
  if sep ∈ cs then some (cs.takeWhile (· != sep), (cs.dropWhile (· != sep)).drop 1) else none

/-- The pieces between the separators; there is always at least one. -/
def splitAll (sep : Char) (cs : List Char) : List (List Char) :=
  cs.foldr (fun c ps => if c = sep then [] :: ps else
    match ps with
    | [] => [[c]]
    | p :: ps => (c :: p) :: ps) [[]]

/-- The text in front of the first place where `word` stands. -/
def before? (word : List Char) : List Char → Option (List Char)
  | [] => if word.isEmpty then some [] else none
  | c :: cs => if word.isPrefixOf (c :: cs) then some [] else (before? word cs).map (c :: ·)

/-- Text without a separator is one piece. -/
theorem splitFirst_eq_none {sep : Char} {cs : List Char} (h : sep ∉ cs) :
    splitFirst sep cs = none := by
  simp only [splitFirst, if_neg h]

/-- The first separator is where the text in front of it ends. -/
theorem splitFirst_append {sep : Char} {before : List Char} (h : sep ∉ before)
    (after : List Char) : splitFirst sep (before ++ sep :: after) = some (before, after) := by
  have hb : ∀ c ∈ before, (c != sep) = true := fun c hc => by
    simp only [bne_iff_ne]; rintro rfl; exact h hc
  have hs : (sep != sep) = false := by simp only [bne_self_eq_false]
  simp only [splitFirst, List.mem_append, List.mem_cons, true_or, or_true, if_true,
    List.takeWhile_append_of_pos hb, List.dropWhile_append_of_pos hb, List.takeWhile_cons, hs,
    List.dropWhile_cons, Bool.false_eq_true, if_false, List.append_nil, List.drop_succ_cons,
    List.drop_zero]

end SongSheet.Text
