/-
SongSheet/Yaml/Cursor.lean

A place in the text of a YAML document.

A cursor is the text that is still to be read and the number of bytes, lines and
columns in front of it.  A line ends at one of five breaks; a carriage return and
a line feed after it are one break.  A byte order mark may stand at the start of
any line, and takes up a column there.
-/

namespace SongSheet.Yaml

/-- A place in a text. -/
structure Cursor where
  rest : List Char
  /-- The number of bytes in front. -/
  index : Nat
  line : Nat
  column : Nat

namespace Cursor

/-- The start of a text. -/
def start (text : List Char) : Cursor := ⟨text, 0, 0, 0⟩

/-! ### Classes of characters -/

/-- Space and tab. -/
def isBlank (c : Char) : Bool := c == ' ' || c == '\t'

/-- The characters that end a line. -/
def isBreak (c : Char) : Bool :=
  c == '\n' || c == '\r' || c == '\x85' || c == '\u2028' || c == '\u2029'

/-- The characters of names of anchors and directives. -/
def isWord (c : Char) : Bool := c.isAlphanum || c == '_' || c == '-'

/-- The characters that a document may hold. -/
def isAllowed (c : Char) : Bool :=
  let n := c.toNat
  n == 0x09 || n == 0x0a || n == 0x0d || (0x20 ≤ n && n ≤ 0x7e) || n == 0x85 ||
    (0xa0 ≤ n && n ≤ 0xd7ff) || (0xe000 ≤ n && n ≤ 0xfffd) || 0x10000 ≤ n

/-- The number of bytes of a text. -/
def byteSize (cs : List Char) : Nat := cs.foldl (fun n c => n + c.utf8Size) 0

/-- A text ends or has a blank or a break here. -/
def endsWord (cs : List Char) : Bool := cs.head?.all fun c => isBlank c || isBreak c

/-- A text ends or has a break here. -/
def endsLine (cs : List Char) : Bool := cs.head?.all isBreak

/-! ### Looking and moving -/

/-- The next character is `c`. -/
def sees (s : Cursor) (c : Char) : Bool := s.rest.head? == some c

/-- The next character satisfies `p`. -/
def seesAny (s : Cursor) (p : Char → Bool) : Bool := s.rest.head?.any p

/-- Past `n` characters that are not breaks. -/
def skip (s : Cursor) (n : Nat) : Cursor :=
  ⟨s.rest.drop n, s.index + byteSize (s.rest.take n), s.line, s.column + n⟩

/-- Past the characters that satisfy `p`, of which none is a break. -/
def skipWhile (s : Cursor) (p : Char → Bool) : Cursor := s.skip (s.rest.takeWhile p).length

/-- Past a break, and what it stands for in a scalar. -/
def readLine (s : Cursor) : List Char × Cursor :=
  match s.rest with
  | '\r' :: '\n' :: r => (['\n'], ⟨r, s.index + 2, s.line + 1, 0⟩)
  | c :: r =>
      if c = '\u2028' ∨ c = '\u2029' then ([c], ⟨r, s.index + c.utf8Size, s.line + 1, 0⟩)
      else if isBreak c then (['\n'], ⟨r, s.index + c.utf8Size, s.line + 1, 0⟩)
      else ([], s)
  | [] => ([], s)

/-- Past a break. -/
def skipLine (s : Cursor) : Cursor := s.readLine.2

/-- At a line that is the given three characters, alone or in front of a blank. -/
def atMarker (s : Cursor) (c : Char) : Bool :=
  s.column == 0 && s.rest.take 3 == [c, c, c] && endsWord (s.rest.drop 3)

/-- At a line that starts or ends a document. -/
def atDocumentMarker (s : Cursor) : Bool := s.atMarker '-' || s.atMarker '.'

/-- Past a byte order mark at the start of a line. -/
def skipMark (s : Cursor) : Cursor := if s.column == 0 && s.sees '\ufeff' then s.skip 1 else s

/-- Past a comment, up to the end of the line. -/
def skipComment (s : Cursor) : Cursor :=
  if s.sees '#' then s.skipWhile (!isBreak ·) else s

end Cursor

end SongSheet.Yaml
