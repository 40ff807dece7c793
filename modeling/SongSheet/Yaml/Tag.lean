/-
SongSheet/Yaml/Tag.lean

The tags of a YAML document.

A tag says what kind a node is of.  It is a list of octets and is written with
ASCII characters, each of which stands for itself, and with escapes, a percent
sign and two hexadecimal digits.  Octets beyond ASCII come in groups as in UTF-8:
the first says how many follow it.  A tag ends in front of its first zero.
-/
import SongSheet.Text.Numeral

namespace SongSheet.Yaml

/-- The octets of a tag. -/
abbrev Tag := List Nat

namespace Tag

/-- A text of ASCII characters. -/
def ofText (cs : List Char) : Tag := cs.map Char.toNat

/-- The tag `!`. -/
def bang : Tag := ofText ['!']

/-- The octets in front of the first zero. -/
def trim (t : Tag) : Tag := t.takeWhile (· != 0)

/-- The number of octets that follow the first one of a group. -/
def followers (octet : Nat) : Option Nat :=
  if octet < 0x80 then some 0
  else if octet < 0xc0 then none
  else if octet < 0xe0 then some 1
  else if octet < 0xf0 then some 2
  else if octet < 0xf8 then some 3
  else none

/-- The octets of a written tag, of which the first `pending` belong to a group that
has begun; `none` where an escape or a group is not complete. -/
def decode : Nat → List Char → Option Tag
  | 0, [] => some []
  | _ + 1, [] => none
  | pending, '%' :: a :: b :: cs =>
      (Text.readDigits 16 [a, b]).bind fun octet =>
        match pending with
        | 0 => (followers octet).bind fun n => (decode n cs).map (octet :: ·)
        | pending + 1 =>
            if 0x80 ≤ octet ∧ octet < 0xc0 then (decode pending cs).map (octet :: ·) else none
  | 0, c :: cs => if c = '%' then none else (decode 0 cs).map (c.toNat :: ·)
  | _ + 1, _ :: _ => none

/-- The tag with a written form. -/
def ofWritten (cs : List Char) : Option Tag := (decode 0 cs).map trim

/-- Without a percent sign a tag is written as it is. -/
theorem decode_of_not_mem {cs : List Char} (h : '%' ∉ cs) : decode 0 cs = some (ofText cs) := by
  induction cs with
  | nil => simp [decode, ofText]
  | cons c cs ih =>
    have hc : c ≠ '%' := fun e => h (e ▸ List.mem_cons_self)
    rw [decode]
    · simp [hc, ih fun m => h (List.mem_cons_of_mem _ m), ofText]
    · rintro a b r rfl
      exact absurd rfl hc

end Tag

end SongSheet.Yaml
