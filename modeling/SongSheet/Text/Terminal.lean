/-
SongSheet/Text/Terminal.lean

Text for a terminal.

A terminal takes some control characters as orders: escape, bell, backspace, form
feed, delete, and the controls from U+0080 to U+009F.  They are shown by their
numbers, so that what a message quotes cannot give orders.
-/

namespace SongSheet.Text

/-- A character that a terminal may take as an order. -/
def isOrder (c : Char) : Bool :=
  c == '\x1b' || c == '\x07' || c == '\x08' || c == '\x0c' || c == '\x7f' ||
    ('\x80' ≤ c && c ≤ '\x9f')

/-- The two hexadecimal digits of a number below 256. -/
def twoHexDigits (n : Nat) : List Char := [Nat.digitChar (n / 16), Nat.digitChar (n % 16)]

/-- A character as it is shown on a terminal. -/
def showOnTerminal (c : Char) : List Char :=
  if !isOrder c then [c]
  else if c.toNat < 0x80 then '\\' :: 'x' :: twoHexDigits c.toNat
  else '\\' :: 'u' :: '\x7b' :: twoHexDigits c.toNat ++ ['\x7d']

/-- A text as it is shown on a terminal. -/
def forTerminal (s : String) : String := String.ofList (s.toList.flatMap showOnTerminal)

/-- A digit is no order. -/
theorem isOrder_digitChar : ∀ n < 16, isOrder (Nat.digitChar n) = false := by decide

/-- Only characters up to U+009F are orders. -/
theorem toNat_lt_of_isOrder {c : Char} (h : isOrder c = true) : c.toNat < 160 := by
  simp only [isOrder, Bool.or_eq_true, Bool.and_eq_true, beq_iff_eq, decide_eq_true_eq] at h
  rcases h with (((((rfl | rfl) | rfl) | rfl) | rfl) | ⟨-, h⟩)
  · decide
  · decide
  · decide
  · decide
  · decide
  · have : c.toNat ≤ '\x9f'.toNat := h
    exact Nat.lt_of_le_of_lt this (by decide)

/-- What is shown holds no orders. -/
theorem isOrder_of_mem_showOnTerminal {c d : Char} (h : d ∈ showOnTerminal c) :
    isOrder d = false := by
  have digits : ∀ n < 160, ∀ d ∈ twoHexDigits n, isOrder d = false := by
    intro n hn d hd
    simp only [twoHexDigits, List.mem_cons, List.not_mem_nil, or_false] at hd
    rcases hd with rfl | rfl
    · exact isOrder_digitChar _ (by omega)
    · exact isOrder_digitChar _ (by omega)
  rw [showOnTerminal] at h
  split at h
  · case isTrue hc =>
      rw [List.mem_singleton] at h
      simpa [h] using hc
  · case isFalse hc =>
      have hn := toNat_lt_of_isOrder (by simpa using hc)
      split at h
      · rcases List.mem_cons.1 h with rfl | h
        · decide
        · rcases List.mem_cons.1 h with rfl | h
          · decide
          · exact digits _ hn d h
      · simp only [List.cons_append, List.mem_cons, List.mem_append, List.not_mem_nil,
          or_false] at h
        rcases h with rfl | rfl | rfl | h | rfl
        · decide
        · decide
        · decide
        · exact digits _ hn d h
        · decide

end SongSheet.Text
