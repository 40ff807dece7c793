/-
SongSheet/Text/Blank.lean

Blank characters, and the words between them.

A character is *blank* when it has the Unicode property White_Space.  The
property is a table of a standard, so it is written out as its ranges.  Texts
are lists of characters here; a word is a maximal run without blanks, and
`trim` drops the blanks at both ends.

Main statements: a word is never empty and holds no blank (`mem_words`), and
trimming loses no word (`words_trim`).
-/

namespace SongSheet.Text

/-! ### The property -/

/-- The characters with the property White_Space. -/
def isBlank (c : Char) : Bool :=
  let n := c.toNat
  (0x09 ≤ n && n ≤ 0x0d) || n == 0x20 || n == 0x85 || n == 0xa0 || n == 0x1680 ||
    (0x2000 ≤ n && n ≤ 0x200a) || n == 0x2028 || n == 0x2029 || n == 0x202f ||
    n == 0x205f || n == 0x3000

/-- Every blank of the ASCII range is in the table. -/
theorem isBlank_of_isWhitespace {c : Char} (h : c.isWhitespace = true) : isBlank c = true := by
  simp only [Char.isWhitespace, Bool.or_eq_true, decide_eq_true_eq] at h
  rcases h with ((rfl | rfl) | rfl) | rfl <;> rfl

/-! ### Words -/

/-- One character more in front of a text: `p.1` is the word it may join, `p.2`
the words after that one. -/
def addToWords (c : Char) (p : List Char × List (List Char)) : List Char × List (List Char) :=
  if isBlank c then ([], if p.1.isEmpty then p.2 else p.1 :: p.2) else (c :: p.1, p.2)

/-- The word a text starts with (empty when it starts with a blank or is
empty), and the words after it. -/
def splitWords (cs : List Char) : List Char × List (List Char) :=
  cs.foldr addToWords ([], [])

/-- The words of a text, in order. -/
def words (cs : List Char) : List (List Char) :=
  let p := splitWords cs
  if p.1.isEmpty then p.2 else p.1 :: p.2

@[simp] theorem splitWords_nil : splitWords [] = ([], []) := rfl

@[simp] theorem splitWords_cons (c : Char) (cs : List Char) :
    splitWords (c :: cs) = addToWords c (splitWords cs) := by
  simp only [splitWords, List.foldr_cons]

@[simp] theorem words_nil : words [] = [] := rfl

/-- A blank in front adds no word. -/
theorem words_cons_blank {c : Char} (h : isBlank c = true) (cs : List Char) :
    words (c :: cs) = words cs := by
  simp [words, addToWords, h]

/-- Text that starts with a word: the word is the first one. -/
theorem words_cons_of_not_blank {c : Char} (h : isBlank c = false) (cs : List Char) :
    words (c :: cs) = (c :: (splitWords cs).1) :: (splitWords cs).2 := by
  simp [words, addToWords, h]

/-- What `splitWords` finds is free of blanks, and its later words are not empty. -/
theorem splitWords_clean (cs : List Char) :
    (∀ c ∈ (splitWords cs).1, isBlank c = false) ∧
      ∀ w ∈ (splitWords cs).2, w ≠ [] ∧ ∀ c ∈ w, isBlank c = false := by
  induction cs with
  | nil => simp
  | cons d ds ih =>
      obtain ⟨h1, h2⟩ := ih
      by_cases hd : isBlank d = true
      · by_cases he : (splitWords ds).1 = []
        · simpa [addToWords, hd, he] using h2
        · simp only [splitWords_cons, addToWords, hd, if_true, List.isEmpty_iff, he, if_false]
          refine ⟨by simp, fun w hw => ?_⟩
          rcases List.mem_cons.1 hw with rfl | hw
          · exact ⟨he, h1⟩
          · exact h2 w hw
      · simp only [splitWords_cons, addToWords, hd, if_false, Bool.false_eq_true]
        refine ⟨fun c hc => ?_, h2⟩
        rcases List.mem_cons.1 hc with rfl | hc
        · simpa using hd
        · exact h1 c hc

/-- A word is not empty and holds no blank. -/
theorem mem_words {cs w : List Char} (hw : w ∈ words cs) :
    w ≠ [] ∧ ∀ c ∈ w, isBlank c = false := by
  obtain ⟨h1, h2⟩ := splitWords_clean cs
  by_cases he : (splitWords cs).1 = []
  · simp only [words, he, List.isEmpty_nil, if_true] at hw
    exact h2 w hw
  · simp only [words, List.isEmpty_iff, he, if_false] at hw
    rcases List.mem_cons.1 hw with rfl | hw
    · exact ⟨he, h1⟩
    · exact h2 w hw

/-! ### Trimming -/

/-- Drops the blanks at the end. -/
def trimEnd (cs : List Char) : List Char :=
  (cs.reverse.dropWhile isBlank).reverse

/-- Drops the blanks at both ends. -/
def trim (cs : List Char) : List Char :=
  trimEnd (cs.dropWhile isBlank)

/-- Leading blanks hold no word. -/
theorem words_dropWhile_blank (cs : List Char) : words (cs.dropWhile isBlank) = words cs := by
  induction cs with
  | nil => rfl
  | cons c cs ih =>
      by_cases h : isBlank c = true
      · rw [List.dropWhile_cons_of_pos h, ih, words_cons_blank h]
      · rw [List.dropWhile_cons_of_neg h]

/-- A blank behind a text closes its last word and adds none. -/
theorem splitWords_concat_blank {c : Char} (h : isBlank c = true) (cs : List Char) :
    splitWords (cs ++ [c]) = splitWords cs := by
  induction cs with
  | nil => simp [addToWords, h]
  | cons d ds ih => rw [List.cons_append, splitWords_cons, splitWords_cons, ih]

/-- Trailing blanks hold no word. -/
theorem words_trimEnd (cs : List Char) : words (trimEnd cs) = words cs := by
  suffices h : ∀ rs : List Char, words (rs.dropWhile isBlank).reverse = words rs.reverse by
    simpa [trimEnd] using h cs.reverse
  intro rs
  induction rs with
  | nil => rfl
  | cons c rs ih =>
      by_cases h : isBlank c = true
      · rw [List.dropWhile_cons_of_pos h, ih, List.reverse_cons]
        simp only [words, splitWords_concat_blank h]
      · rw [List.dropWhile_cons_of_neg h]

/-- Trimming loses no word. -/
theorem words_trim (cs : List Char) : words (trim cs) = words cs := by
  rw [trim, words_trimEnd, words_dropWhile_blank]

end SongSheet.Text
