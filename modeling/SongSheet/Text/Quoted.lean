/-
SongSheet/Text/Quoted.lean

Text between double quotes, for messages.

A quote, a backslash and every character that cannot be shown on its own are
escaped, so that the quoted text is printed in full and ends at its last quote.
-/
import SongSheet.Text.Invisible

namespace SongSheet.Text

/-- A character between double quotes. -/
def escapeShown (c : Char) : List Char :=
  if c = '"' then ['\\', '"']
  else if c = '\\' then ['\\', '\\']
  else if c = '\t' then ['\\', 't']
  else if c = '\n' then ['\\', 'n']
  else if c = '\r' then ['\\', 'r']
  else if c = '\x00' then ['\\', '0']
  else if c.toNat < 0x20 ∨ c.toNat = 0x7f ∨ isInvisible c then
    '\\' :: 'u' :: '\x7b' :: Nat.toDigits 16 c.toNat ++ ['\x7d']
  else [c]

/-- A text between double quotes. -/
def quoted (cs : List Char) : List Char := '"' :: cs.flatMap escapeShown ++ ['"']

end SongSheet.Text
