/-
SongSheet/Yaml/Token.lean

The tokens of a YAML document.

Tokens are read from left to right.  A token that may turn out to be a key is a
*candidate* until the colon behind it is found; then a key token, and a token
that opens a mapping where one starts, are put in front of it.  A key lies on one
line and is at most 1024 bytes long.  Each level of brackets has at most
one candidate.  Blocks are opened and closed by indentation.

A token is given out once no candidate at or in front of it is left.  Where the
text is not well formed, the tokens are those that were given out before the
mistake was met.
-/
import SongSheet.Yaml.ScalarText
import SongSheet.Yaml.Tag

namespace SongSheet.Yaml

open Cursor

/-! ### Tokens -/

/-- How a scalar is written. -/
inductive Style where
  | plain
  | quoted
  | literal
  | folded
  deriving DecidableEq, Repr

/-- A token of a document. -/
inductive Token where
  | streamEnd
  | version (major minor : Nat)
  | tagDirective (handle : List Char) (text : Tag)
  | documentStart
  | documentEnd
  | blockListStart
  | blockMappingStart
  | blockEnd
  | flowListStart
  | flowListEnd
  | flowMappingStart
  | flowMappingEnd
  | blockEntry
  | flowEntry
  | key
  | value
  | alias (name : List Char)
  | anchor (name : List Char)
  | tag (handle : List Char) (suffix : Tag)
  | scalar (text : List Char) (style : Style)
  deriving DecidableEq, Repr

/-- A token that may turn out to be a key. -/
structure Candidate where
  /-- The number of tokens in front of it. -/
  position : Nat
  /-- It stands where a block mapping needs a key. -/
  required : Bool
  index : Nat
  line : Nat
  column : Nat

/-- The state between two tokens. -/
structure Scan where
  cursor : Cursor
  tokens : List Token
  /-- The candidates, the innermost level first; the last one is outside all brackets. -/
  candidates : List (Option Candidate)
  /-- The column of the current block, -1 outside all blocks. -/
  column : Int
  /-- The columns of the blocks around it. -/
  outer : List Int
  /-- A candidate may stand here. -/
  mayBeKey : Bool

namespace Scan

/-- The start of a text. -/
def start (text : List Char) : Scan := ⟨Cursor.start text, [], [none], -1, [], true⟩

/-- Between brackets. -/
def inFlow (s : Scan) : Bool := 1 < s.candidates.length

/-- Adds a token at the end. -/
def push (s : Scan) (t : Token) : Scan := { s with tokens := s.tokens ++ [t] }

/-- Adds a token, and goes past `n` characters. -/
def pushOver (s : Scan) (t : Token) (n : Nat) : Scan :=
  { s.push t with cursor := s.cursor.skip n }

/-! ### Candidates -/

/-- The candidate can no longer be a key. -/
def isStale (s : Scan) (c : Candidate) : Bool :=
  c.line < s.cursor.line || c.index + 1024 < s.cursor.index

/-- Gives up the candidates that can no longer be keys; one that had to be a key
is a mistake. -/
def dropStale (s : Scan) : Option Scan :=
  if s.candidates.any (·.any fun c => c.required && s.isStale c) then none
  else some { s with candidates := s.candidates.map (·.filter (!s.isStale ·)) }

/-- Gives up the candidate of this level. -/
def dropCandidate (s : Scan) : Option Scan :=
  match s.candidates with
  | some c :: cs => if c.required then none else some { s with candidates := none :: cs }
  | _ => some s

/-- Makes the next token the candidate of this level, where one may stand. -/
def addCandidate (s : Scan) : Option Scan :=
  if s.mayBeKey then
    let c : Candidate :=
      ⟨s.tokens.length, !s.inFlow && s.column == s.cursor.column, s.cursor.index, s.cursor.line,
        s.cursor.column⟩
    s.dropCandidate.map fun s => { s with candidates := some c :: s.candidates.drop 1 }
  else some s

/-! ### Blocks -/

/-- Opens a block at a column further to the right, with its token at a position. -/
def openBlock (s : Scan) (column position : Nat) (t : Token) : Scan :=
  if !s.inFlow && s.column < column then
    { s with
      tokens := s.tokens.take position ++ t :: s.tokens.drop position
      column := column
      outer := s.column :: s.outer }
  else s

/-- Closes the blocks that start to the right of a column. -/
def closeBlocks (s : Scan) (column : Int) : Scan :=
  if s.inFlow then s else go s column s.outer
where
  /-- Closes blocks while there is one around them. -/
  go (s : Scan) (column : Int) : List Int → Scan
    | [] => s
    | c :: cs =>
        if column < s.column then go { s.push .blockEnd with column := c, outer := cs } column cs
        else s

/-! ### Names, tags and directives -/

/-- The characters of a tag. -/
def isTagChar (verbatim : Bool) (c : Char) : Bool :=
  isWord c || [';', '/', '?', ':', '@', '&', '=', '+', '$', '.', '%', '!', '~', '*', '\x27', '(',
    ')'].contains c || (verbatim && [',', '[', ']'].contains c)

/-- The name behind an anchor or alias indicator. -/
def anchorName (c : Cursor) : Option (List Char × Cursor) :=
  let name := (c.rest.drop 1).takeWhile isWord
  let behind := c.skip (name.length + 1)
  if name = [] then none
  else if endsWord behind.rest ||
      behind.seesAny ['?', ':', ',', ']', '\x7d', '%', '@', '\x60'].contains then
    some (name, behind)
  else none

/-- A tag between angle brackets. -/
def verbatimTag (c : Cursor) : Option (Token × Cursor) :=
  let body := (c.rest.drop 2).takeWhile (isTagChar true)
  let behind := c.skip (body.length + 2)
  if body ≠ [] ∧ behind.sees '>' then
    (Tag.ofWritten body).map fun suffix => (.tag [] suffix, behind.skip 1)
  else none

/-- A tag with a handle, `!name!suffix`, or without one, `!suffix`.  A lone `!` is
the tag of that name. -/
def shortTag (c : Cursor) : Option (Token × Cursor) :=
  let name := (c.rest.drop 1).takeWhile isWord
  let behind := c.skip (name.length + 1)
  let hasHandle := behind.sees '!'
  let suffixStart := if hasHandle then behind.skip 1 else behind
  let suffix := suffixStart.rest.takeWhile (isTagChar false)
  let last := suffixStart.skip suffix.length
  if hasHandle then
    if suffix = [] then none
    else (Tag.ofWritten suffix).map fun suffix => (.tag ('!' :: name ++ ['!']) suffix, last)
  else
    (Tag.ofWritten (name ++ suffix)).map fun suffix =>
      if suffix = [] then (.tag [] Tag.bang, last) else (.tag ['!'] suffix, last)

/-- A tag, and what has to follow it. -/
def tagToken (flow : Bool) (c : Cursor) : Option (Token × Cursor) :=
  (if (c.rest.drop 1).head? = some '<' then verbatimTag c else shortTag c).filter fun (_, c) =>
    (flow && c.sees ',') || endsWord c.rest

/-- A number of at most nine digits. -/
def versionNumber (c : Cursor) : Option (Nat × Cursor) :=
  let ds := c.rest.takeWhile Text.isDecimalDigit
  if ds.length ≤ 9 then (Text.readDigits 10 ds).map (·, c.skip ds.length) else none

/-- The version behind its directive. -/
def versionDirective (c : Cursor) : Option (Token × Cursor) :=
  (versionNumber (c.skipWhile isBlank)).bind fun (major, c) =>
    if c.sees '.' then
      (versionNumber (c.skip 1)).map fun (minor, c) => (.version major minor, c)
    else none

/-- The handle and the text it stands for behind a tag directive. -/
def tagDirectiveToken (c : Cursor) : Option (Token × Cursor) :=
  let c := c.skipWhile isBlank
  if !c.sees '!' then none
  else
    let name := (c.rest.drop 1).takeWhile isWord
    let behind := c.skip (name.length + 1)
    let handle? : Option (List Char × Cursor) :=
      if behind.sees '!' then some ('!' :: name ++ ['!'], behind.skip 1)
      else if name = [] then some (['!'], behind)
      else none
    handle?.bind fun (handle, c) =>
      if !c.seesAny isBlank then none
      else
        let c := c.skipWhile isBlank
        let body := c.rest.takeWhile (isTagChar true)
        let c := c.skip body.length
        if body ≠ [] ∧ endsWord c.rest then
          (Tag.ofWritten body).map fun text => (.tagDirective handle text, c)
        else none

/-- A directive and the rest of its line. -/
def directive (c : Cursor) : Option (Token × Cursor) :=
  let name := (c.rest.drop 1).takeWhile isWord
  let behind := c.skip (name.length + 1)
  let found :=
    if !endsWord behind.rest then none
    else if name = ['Y', 'A', 'M', 'L'] then versionDirective behind
    else if name = ['T', 'A', 'G'] then tagDirectiveToken behind
    else none
  found.bind fun (t, c) =>
    let c := (c.skipWhile isBlank).skipComment
    if endsLine c.rest then some (t, c.skipLine) else none

/-! ### One token -/

/-- Past blanks, breaks, comments and byte order marks. -/
def toToken : Nat → Scan → Scan
  | 0, s => s
  | fuel + 1, s =>
      let tabs := s.inFlow || !s.mayBeKey
      let c := s.cursor.skipMark.skipWhile fun ch => ch == ' ' || (tabs && ch == '\t')
      let c := c.skipComment
      if c.seesAny isBreak then
        toToken fuel { s with cursor := c.skipLine, mayBeKey := s.mayBeKey || !s.inFlow }
      else { s with cursor := c }

/-- A marker at the start of a line, which ends all blocks. -/
def marker (s : Scan) (t : Token) : Option Scan :=
  (s.closeBlocks (-1)).dropCandidate.map fun s => { s.pushOver t 3 with mayBeKey := false }

/-- A directive, which ends all blocks too. -/
def directiveLine (s : Scan) : Option Scan :=
  (s.closeBlocks (-1)).dropCandidate.bind fun s =>
    (directive s.cursor).map fun (t, c) => { s.push t with cursor := c, mayBeKey := false }

/-- The end of the text. -/
def ending (s : Scan) : Option Scan :=
  let c := s.cursor
  let next := { c with line := c.line + 1, column := 0 }
  let s := if c.column = 0 then s else { s with cursor := next }
  (s.closeBlocks (-1)).dropCandidate.map fun s => { s.push .streamEnd with mayBeKey := false }

/-- An opening bracket. -/
def openFlow (s : Scan) (t : Token) : Option Scan :=
  s.addCandidate.map fun s =>
    { s.pushOver t 1 with candidates := none :: s.candidates, mayBeKey := true }

/-- A closing bracket. -/
def closeFlow (s : Scan) (t : Token) : Option Scan :=
  s.dropCandidate.map fun s =>
    { s.pushOver t 1 with
      candidates := if s.inFlow then s.candidates.drop 1 else s.candidates
      mayBeKey := false }

/-- A comma between brackets. -/
def flowEntry (s : Scan) : Option Scan :=
  s.dropCandidate.map fun s => { s.pushOver .flowEntry 1 with mayBeKey := true }

/-- A list indicator. -/
def blockEntry (s : Scan) : Option Scan :=
  if !s.inFlow && !s.mayBeKey then none
  else
    (s.openBlock s.cursor.column s.tokens.length .blockListStart).dropCandidate.map fun s =>
      { s.pushOver .blockEntry 1 with mayBeKey := true }

/-- A key indicator. -/
def keyIndicator (s : Scan) : Option Scan :=
  if !s.inFlow && !s.mayBeKey then none
  else
    (s.openBlock s.cursor.column s.tokens.length .blockMappingStart).dropCandidate.map fun s =>
      { s.pushOver .key 1 with mayBeKey := !s.inFlow }

/-- A value indicator; a candidate of this level becomes a key. -/
def valueIndicator (s : Scan) : Option Scan :=
  match s.candidates with
  | some c :: cs =>
      let s := { s with
        tokens := s.tokens.take c.position ++ Token.key :: s.tokens.drop c.position
        candidates := none :: cs
        mayBeKey := false }
      some ((s.openBlock c.column c.position .blockMappingStart).pushOver .value 1)
  | _ =>
      if !s.inFlow && !s.mayBeKey then none
      else
        let s := s.openBlock s.cursor.column s.tokens.length .blockMappingStart
        some { s.pushOver .value 1 with mayBeKey := !s.inFlow }

/-- An anchor or an alias. -/
def anchorIndicator (s : Scan) (make : List Char → Token) : Option Scan :=
  s.addCandidate.bind fun s =>
    (anchorName s.cursor).map fun (name, c) =>
      { s.push (make name) with cursor := c, mayBeKey := false }

/-- A tag. -/
def tagIndicator (s : Scan) : Option Scan :=
  s.addCandidate.bind fun s =>
    (tagToken s.inFlow s.cursor).map fun (t, c) =>
      { s.push t with cursor := c, mayBeKey := false }

/-- A block scalar. -/
def blockScalar (s : Scan) (style : Style) : Option Scan :=
  s.dropCandidate.bind fun s =>
    (ScalarText.block (style == .literal) s.column s.cursor).map fun (text, c) =>
      { s.push (.scalar text style) with cursor := c, mayBeKey := true }

/-- A scalar between quotes. -/
def quotedScalar (s : Scan) (single : Bool) : Option Scan :=
  s.addCandidate.bind fun s =>
    (ScalarText.quoted single s.cursor).map fun (text, c) =>
      { s.push (.scalar text .quoted) with cursor := c, mayBeKey := false }

/-- A scalar without quotes; a key may stand at the start of the next line. -/
def plainScalar (s : Scan) : Option Scan :=
  s.addCandidate.bind fun s =>
    (ScalarText.plain s.inFlow (s.column + 1).toNat s.cursor).map fun (text, broken, c) =>
      { s.push (.scalar text .plain) with cursor := c, mayBeKey := broken }

/-- The characters that an unquoted scalar cannot start with. -/
def indicators : List Char :=
  ['-', '?', ':', ',', '[', ']', '\x7b', '\x7d', '#', '&', '*', '!', '|', '>', '\x27', '"', '%',
    '@', '\x60']

/-- An unquoted scalar starts with `c`, in front of `cs`. -/
def startsPlain (flow : Bool) (c : Char) (cs : List Char) : Bool :=
  (!(isBlank c || isBreak c) && !indicators.contains c) ||
    (c == '-' && !cs.head?.any isBlank) ||
    (!flow && (c == '?' || c == ':') && !endsWord cs)

/-- Reads one token. -/
def next (s : Scan) : Option Scan :=
  (toToken (s.cursor.rest.length + 1) s).dropStale.bind fun s =>
    let s := s.closeBlocks s.cursor.column
    match s.cursor.rest with
    | [] => s.ending
    | c :: cs =>
        if s.cursor.column = 0 ∧ c = '%' then s.directiveLine
        else if s.cursor.atMarker '-' then s.marker .documentStart
        else if s.cursor.atMarker '.' then s.marker .documentEnd
        else if c = '[' then s.openFlow .flowListStart
        else if c = '\x7b' then s.openFlow .flowMappingStart
        else if c = ']' then s.closeFlow .flowListEnd
        else if c = '\x7d' then s.closeFlow .flowMappingEnd
        else if c = ',' then s.flowEntry
        else if c = '-' ∧ endsWord cs then s.blockEntry
        else if c = '?' ∧ (s.inFlow ∨ endsWord cs) then s.keyIndicator
        else if c = ':' ∧ (s.inFlow ∨ endsWord cs) then s.valueIndicator
        else if c = '*' then s.anchorIndicator .alias
        else if c = '&' then s.anchorIndicator .anchor
        else if c = '!' then s.tagIndicator
        else if c = '|' ∧ !s.inFlow then s.blockScalar .literal
        else if c = '>' ∧ !s.inFlow then s.blockScalar .folded
        else if c = '\x27' then s.quotedScalar true
        else if c = '"' then s.quotedScalar false
        else if startsPlain s.inFlow c cs then s.plainScalar
        else none

/-! ### All tokens -/

/-- The tokens in front of the first candidate. -/
def decided (s : Scan) : List Token :=
  s.tokens.take ((s.candidates.filterMap (·.map (·.position))).foldl min s.tokens.length)

/-- Reads tokens up to the end of the text or the first mistake; `given` are those
that were given out.  A text that is not the `whole` text has a mistake at its
end, which is met by looking at it. -/
def all (whole : Bool) : Nat → List Token → Scan → List Token
  | 0, given, _ => given
  | fuel + 1, given, s =>
      match s.dropStale with
      | none => given
      | some s =>
          let given := s.decided
          if s.tokens.getLast? = some .streamEnd then given
          else match s.next with
            | none => given
            | some s =>
                if !whole && s.cursor.rest.length < lookAhead then given
                else all whole fuel given s
where
  /-- The number of characters that are looked at together. -/
  lookAhead : Nat := 4

end Scan

/-! ### Pieces of a text -/

/-- The number of bytes of a piece. -/
def pieceSize : Nat := 16384

/-- The characters in front that take up `room` bytes at most. -/
def piece : Nat → List Char → List Char
  | _, [] => []
  | room, c :: cs => if c.utf8Size ≤ room then c :: piece (room - c.utf8Size) cs else []

/-- The pieces in front of the first one that holds a character that a document may
not hold. -/
def readable : Nat → List Char → List Char
  | 0, _ => []
  | fuel + 1, cs =>
      let p := piece pieceSize cs
      if p.isEmpty || !p.all isAllowed then []
      else p ++ readable fuel (cs.drop p.length)

/-- The tokens of a text.  They end in `streamEnd` exactly when the text has no
mistake that keeps it from being cut into tokens. -/
def tokens (text : List Char) : List Token :=
  let read := if text.all isAllowed then text else readable text.length text
  Scan.all (read.length == text.length) (2 * read.length + 2) [] (Scan.start read)

end SongSheet.Yaml
