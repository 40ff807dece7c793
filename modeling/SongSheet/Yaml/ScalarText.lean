/-
SongSheet/Yaml/ScalarText.lean

Reading the scalars of a YAML document.

A scalar may go on over several lines.  Between quotes and without them, the
blanks around a line break are dropped, one break becomes a space, and of several
breaks all but the first are kept (`Gap.joined`).  Block scalars keep their
lines, or fold them in the same way, and their header says what becomes of the
breaks at the end.

A reader yields the text and the place behind it, or `none` where the scalar is
not well formed.
-/
import SongSheet.Yaml.Cursor
import SongSheet.Text.Numeral

namespace SongSheet.Yaml.ScalarText

open Cursor

/-! ### Gaps between the words of a scalar -/

/-- The blanks and breaks between two words. -/
structure Gap where
  /-- The blanks in front of the first break. -/
  blanks : List Char
  /-- A break has been seen. -/
  broken : Bool
  /-- What the first break stands for. -/
  first : List Char
  /-- What the further breaks stand for. -/
  more : List Char

namespace Gap

/-- No gap. -/
def none : Gap := ⟨[], false, [], []⟩

/-- What a gap becomes in the text. -/
def joined (g : Gap) : List Char :=
  if g.broken then
    if g.first = ['\n'] then (if g.more = [] then [' '] else g.more) else g.first ++ g.more
  else g.blanks

/-- Reads on over blanks and breaks.  Where lines have to be indented, a tab in
front of column `indent` is refused. -/
def read (indent : Nat) : Nat → Gap → Cursor → Option (Gap × Cursor)
  | 0, g, s => some (g, s)
  | fuel + 1, g, s =>
      match s.rest with
      | [] => some (g, s)
      | c :: _ =>
          if isBlank c then
            if g.broken then
              if s.column < indent ∧ c = '\t' then Option.none else read indent fuel g (s.skip 1)
            else read indent fuel { g with blanks := g.blanks ++ [c] } (s.skip 1)
          else if isBreak c then
            let (b, s') := s.readLine
            if g.broken then read indent fuel { g with more := g.more ++ b } s'
            else read indent fuel ⟨[], true, b, g.more⟩ s'
          else some (g, s)

end Gap

/-! ### Scalars without quotes -/

/-- The characters that end an unquoted scalar inside brackets. -/
def flowIndicators : List Char := [',', '[', ']', '\x7b', '\x7d']

/-- The length of the next word of an unquoted scalar. -/
def plainWord (flow : Bool) : List Char → Option Nat
  | [] => some 0
  | c :: cs =>
      if isBlank c || isBreak c then some 0
      else if flow && c == ':' && cs.head?.any (fun d => d == '?' || flowIndicators.contains d) then
        none
      else if (c == ':' && endsWord cs) || (flow && flowIndicators.contains c) then some 0
      else (plainWord flow cs).map (· + 1)

/-- Reads an unquoted scalar from one of its words on.  The result says whether
the scalar ended at the start of a line. -/
def plainFrom (flow : Bool) (indent : Nat) :
    Nat → List Char → Gap → Cursor → Option (List Char × Bool × Cursor)
  | 0, text, g, s => some (text, g.broken, s)
  | fuel + 1, text, g, s =>
      if s.atDocumentMarker || s.sees '#' then some (text, g.broken, s)
      else (plainWord flow s.rest).bind fun n =>
        let (text, g) :=
          if n = 0 then (text, g) else (text ++ g.joined ++ s.rest.take n, Gap.none)
        let s := s.skip n
        if !s.seesAny (fun c => isBlank c || isBreak c) then some (text, g.broken, s)
        else (Gap.read indent s.rest.length g s).bind fun (g, s) =>
          if !flow && s.column < indent then some (text, g.broken, s)
          else plainFrom flow indent fuel text g s

/-- Reads an unquoted scalar whose further lines start at column `indent` at least. -/
def plain (flow : Bool) (indent : Nat) (s : Cursor) : Option (List Char × Bool × Cursor) :=
  plainFrom flow indent (s.rest.length + 1) [] Gap.none s

/-! ### Scalars between quotes -/

/-- The characters that an escape of one character stands for. -/
def escaped : Char → Option Char
  | '0' => some '\x00'
  | 'a' => some '\x07'
  | 'b' => some '\x08'
  | 't' => some '\t'
  | '\t' => some '\t'
  | 'n' => some '\n'
  | 'v' => some '\x0b'
  | 'f' => some '\x0c'
  | 'r' => some '\r'
  | 'e' => some '\x1b'
  | ' ' => some ' '
  | '"' => some '"'
  | '/' => some '/'
  | '\\' => some '\\'
  | 'N' => some '\x85'
  | '_' => some '\xa0'
  | 'L' => some '\u2028'
  | 'P' => some '\u2029'
  | _ => none

/-- The number of hexadecimal digits behind an escape. -/
def escapeWidth : Char → Option Nat
  | 'x' => some 2
  | 'u' => some 4
  | 'U' => some 8
  | _ => none

/-- Reads what stands behind a backslash: the character, and how many were read. -/
def readEscape : List Char → Option (Char × Nat)
  | [] => none
  | c :: cs =>
      match escaped c with
      | some d => some (d, 1)
      | none => do
          let width ← escapeWidth c
          let n ← if width ≤ cs.length then Text.readDigits 16 (cs.take width) else none
          if n.isValidChar then some (Char.ofNat n, width + 1) else none

/-- How a word between quotes ends. -/
inductive WordEnd where
  /-- At the closing quote, a blank, a break or the end of the text. -/
  | here
  /-- At a backslash in front of a line break. -/
  | escapedBreak
  deriving DecidableEq

/-- Reads a word between quotes. -/
def quotedWord (single : Bool) : Nat → List Char → Cursor → Option (List Char × WordEnd × Cursor)
  | 0, text, s => some (text, .here, s)
  | fuel + 1, text, s =>
      match s.rest with
      | [] => some (text, .here, s)
      | c :: cs =>
          if isBlank c || isBreak c then some (text, .here, s)
          else if single && c == '\x27' then
            if cs.head? == some '\x27' then quotedWord single fuel (text ++ ['\x27']) (s.skip 2)
            else some (text, .here, s)
          else if !single && c == '"' then some (text, .here, s)
          else if !single && c == '\\' then
            if cs.head?.any isBreak then some (text, .escapedBreak, s.skip 1)
            else (readEscape cs).bind fun (d, n) =>
              quotedWord single fuel (text ++ [d]) (s.skip (n + 1))
          else quotedWord single fuel (text ++ [c]) (s.skip 1)

/-- Reads a scalar between quotes from one of its words on. -/
def quotedFrom (single : Bool) : Nat → List Char → Cursor → Option (List Char × Cursor)
  | 0, _, _ => none
  | fuel + 1, text, s =>
      if s.atDocumentMarker || s.rest.isEmpty then none
      else (quotedWord single s.rest.length text s).bind fun (text, ending, s) =>
        let close := if single then '\x27' else '"'
        if ending = .here ∧ s.sees close then some (text, s.skip 1)
        else
          let (g, s) : Gap × Cursor :=
            if ending = .escapedBreak then (⟨[], true, [], []⟩, s.skipLine) else (Gap.none, s)
          (Gap.read 0 s.rest.length g s).bind fun (g, s) =>
            quotedFrom single fuel (text ++ g.joined) s

/-- Reads a scalar from its opening quote on. -/
def quoted (single : Bool) (s : Cursor) : Option (List Char × Cursor) :=
  quotedFrom single (s.rest.length + 1) [] (s.skip 1)

/-! ### Block scalars -/

/-- What becomes of the breaks at the end of a block scalar. -/
inductive Chomping where
  | strip
  | clip
  | keep
  deriving DecidableEq

/-- The chomping that a character stands for. -/
def chomping : Char → Option Chomping
  | '-' => some .strip
  | '+' => some .keep
  | _ => none

/-- The indentation that a character stands for. -/
def increment (c : Char) : Option Nat :=
  if '1' ≤ c ∧ c ≤ '9' then some (c.toNat - 48) else none

/-- Reads the header behind the indicator: how the scalar ends, its indentation
where it is given, and the place behind. -/
def header (s : Cursor) : Option (Chomping × Nat × Cursor) :=
  let c₁ := s.rest.head?
  let c₂ := (s.rest.drop 1).head?
  match c₁.bind chomping with
  | some ch =>
      match c₂.bind increment with
      | some n => some (ch, n, s.skip 2)
      | none => if c₂ = some '0' then none else some (ch, 0, s.skip 1)
  | none =>
      match c₁.bind increment with
      | some n =>
          match c₂.bind chomping with
          | some ch => some (ch, n, s.skip 2)
          | none => some (.clip, n, s.skip 1)
      | none => if c₁ = some '0' then none else some (.clip, 0, s)

/-- Reads empty lines and the indentation of the next one, up to column `indent`
(any, where that is 0): the breaks, the deepest column, and the place behind. -/
def emptyLines (indent : Nat) :
    Nat → List Char → Nat → Cursor → Option (List Char × Nat × Cursor)
  | 0, breaks, deepest, s => some (breaks, deepest, s)
  | fuel + 1, breaks, deepest, s =>
      let spaces := (s.rest.takeWhile (· == ' ')).length
      let s := s.skip (if indent = 0 then spaces else min spaces (indent - s.column))
      let deepest := max deepest s.column
      if (indent = 0 ∨ s.column < indent) ∧ s.sees '\t' then none
      else if s.seesAny isBreak then
        let (b, s) := s.readLine
        emptyLines indent fuel (breaks ++ b) deepest s
      else some (breaks, deepest, s)

/-- Reads the lines of a block scalar.  `pending` is what the break in front of
this line stands for, `breaks` the empty lines behind that, and `blank` says that
the line in front started with a blank. -/
def blockLines (literal : Bool) (indent : Nat) :
    Nat → List Char → List Char → List Char → Bool → Cursor →
      Option (List Char × List Char × List Char × Cursor)
  | 0, text, pending, breaks, _, s => some (text, pending, breaks, s)
  | fuel + 1, text, pending, breaks, blank, s =>
      if s.column = indent ∧ s.rest ≠ [] then
        let startsBlank := s.seesAny isBlank
        let lead :=
          if !literal && pending == ['\n'] && !blank && !startsBlank then
            if breaks = [] then [' '] else []
          else pending
        let line := s.rest.takeWhile (!isBreak ·)
        let (b, s) := (s.skip line.length).readLine
        (emptyLines indent (s.rest.length + 1) [] 0 s).bind fun (more, _, s) =>
          blockLines literal indent fuel (text ++ lead ++ breaks ++ line) b more startsBlank s
      else some (text, pending, breaks, s)

/-- Reads a block scalar from its indicator on; `outer` is the column of the
block around it, -1 for none. -/
def block (literal : Bool) (outer : Int) (s : Cursor) : Option (List Char × Cursor) :=
  (header (s.skip 1)).bind fun (ch, given, s) =>
    let s := (s.skipWhile isBlank).skipComment
    if !endsLine s.rest then none
    else
      let s := s.skipLine
      let fixed := if given = 0 then 0 else (max outer 0).toNat + given
      (emptyLines fixed (s.rest.length + 1) [] 0 s).bind fun (breaks, deepest, s) =>
        let indent := if fixed = 0 then max (max deepest (outer + 1).toNat) 1 else fixed
        (blockLines literal indent (s.rest.length + 1) [] [] breaks false s).map
          fun (text, pending, breaks, s) =>
            match ch with
            | .strip => (text, s)
            | .clip => (text ++ pending, s)
            | .keep => (text ++ pending ++ breaks, s)

end SongSheet.Yaml.ScalarText
