/-
SongSheet/Proofs/Sheet/Layout.lean

The layout of a text.

What is read of a text is in its rows, the words of its lines in front of their comments: a
row is a command or not by its words alone (`Command.ofWords`), and the text is read as its
rows are, one after the other (`readCommands_eq_readRows`).  So two facts about rows are
enough.  A change of layout, a comment or a blank that comes or goes, leaves all rows as they
are (`LayoutChange.rows_eq`), and the rows of texts that are put together with a line feed are
the rows of one followed by those of the other (`rows_append_newline`).
-/
import SongSheet.Proofs.Sheet.Lines
import Mathlib.Data.List.ReduceOption
import Mathlib.Logic.Relation

namespace SongSheet

open SheetError Text

namespace Text

/-! ### Words -/

/-- A blank ends the words in front of it. -/
theorem splitWords_append_blank {c : Char} (blank : isBlank c = true) (cs ds : List Char) :
    splitWords (cs ++ c :: ds) = ((splitWords cs).1, (splitWords cs).2 ++ words ds) := by
  induction cs with
  | nil =>
      rw [List.nil_append, splitWords_cons, addToWords, if_pos blank]
      rfl
  | cons d cs ih =>
      rw [List.cons_append, splitWords_cons, ih, splitWords_cons, addToWords, addToWords]
      by_cases space : isBlank d = true
      · rw [if_pos space, if_pos space]
        by_cases first : (splitWords cs).1.isEmpty = true <;> simp [first]
      · rw [if_neg space, if_neg space]

theorem words_append_blank {c : Char} (blank : isBlank c = true) (cs ds : List Char) :
    words (cs ++ c :: ds) = words cs ++ words ds := by
  rw [words, splitWords_append_blank blank, words.eq_def cs]
  dsimp only
  split <;> rfl

/-- A place where no word is cut: next to a blank, or at an end. -/
def IsGap (before after : List Char) : Prop :=
  (∀ d ∈ before.getLast?, isBlank d = true) ∨ ∀ d ∈ after.head?, isBlank d = true

/-- Taking away what is not next to a place makes it no less a gap. -/
theorem IsGap.mono {before before' after after' : List Char} (gap : IsGap before after)
    (last : before' <:+ before) (first : after' <+: after) : IsGap before' after' := by
  obtain ⟨xs, rfl⟩ := last
  obtain ⟨ys, rfl⟩ := first
  rcases gap with blank | blank
  · refine .inl fun d hd => blank d ?_
    rw [Option.mem_def] at hd ⊢
    rw [List.getLast?_append, hd, Option.some_or]
  · refine .inr fun d hd => blank d ?_
    rw [Option.mem_def] at hd ⊢
    rw [List.head?_append, hd, Option.some_or]

/-- A blank more in a gap makes no difference. -/
theorem words_of_isGap {c : Char} (blank : isBlank c = true) {before after : List Char}
    (gap : IsGap before after) : words (before ++ c :: after) = words (before ++ after) := by
  rcases gap with last | first
  · rcases before.eq_nil_or_concat with rfl | ⟨cs, d, rfl⟩
    · exact words_cons_blank blank after
    · have space : isBlank d = true := last d (by simp)
      rw [List.concat_eq_append, List.append_assoc, List.append_assoc, List.singleton_append,
        List.singleton_append, words_append_blank space, words_append_blank space,
        words_cons_blank blank]
  · cases after with
    | nil => rw [words_append_blank blank, words_nil, List.append_nil, List.append_nil]
    | cons d ds =>
        have space : isBlank d = true := first d rfl
        rw [words_append_blank blank, words_cons_blank space, words_append_blank space]

/-! ### Rows -/

/-- The words of a line in front of its comment. -/
def lineWords (l : List Char) : List (List Char) := words (l.takeWhile (· != ';'))

/-- The words of each line of a text. -/
def rows (text : List Char) : List (List (List Char)) := (text.splitOn '\n').map lineWords

theorem rows_append_newline (a b : List Char) : rows (a ++ '\n' :: b) = rows a ++ rows b := by
  rw [rows, List.splitOn_append_cons_self, List.map_append, ← rows, ← rows]

theorem rows_of_not_mem {l : List Char} (single : '\n' ∉ l) : rows l = [lineWords l] := by
  rw [rows, List.splitOn_eq_singleton single, List.map_singleton]

theorem length_rows (text : List Char) : (rows text).length = text.count '\n' + 1 := by
  induction text with
  | nil => rfl
  | cons c text ih =>
      rw [rows, List.length_map, List.splitOn] at ih ⊢
      rw [List.splitOnP_cons_eq_if_modifyHead, List.count_cons]
      split
      · rw [List.length_cons, ih]
      · rw [List.length_modifyHead, ih, Nat.add_zero]

/-- A comment says nothing. -/
theorem lineWords_comment (l note : List Char) : lineWords (l ++ ';' :: note) = lineWords l := by
  rw [lineWords, lineWords, List.takeWhile_append, List.takeWhile_cons_of_neg (by decide),
    List.append_nil]
  split
  case isTrue all => rw [(List.takeWhile_prefix _).eq_of_length all]
  case isFalse => rfl

/-- A blank more in a gap of a line makes no difference. -/
theorem lineWords_of_isGap {c : Char} (blank : isBlank c = true) {before after : List Char}
    (gap : IsGap before after) :
    lineWords (before ++ c :: after) = lineWords (before ++ after) := by
  have word : (c != ';') = true := by
    rw [bne_iff_ne]
    rintro rfl
    exact absurd blank (by decide)
  have next : (c :: after).takeWhile (· != ';') = c :: after.takeWhile (· != ';') :=
    List.takeWhile_cons_of_pos word
  rw [lineWords, lineWords, List.takeWhile_append, List.takeWhile_append, next]
  split
  · exact words_of_isGap blank (gap.mono List.suffix_rfl (List.takeWhile_prefix _))
  · rfl

/-- What follows the last line feed of a text goes on. -/
theorem exists_last_line (cs : List Char) :
    ∃ ps l, '\n' ∉ l ∧ l <:+ cs ∧ ∀ ds, rows (cs ++ ds) = ps ++ rows (l ++ ds) := by
  by_cases several : '\n' ∈ cs
  · -- the first line feed of the text read backwards is its last one
    obtain ⟨l, front, eq, single⟩ := List.eq_append_cons_of_mem (List.mem_reverse.2 several)
    have cut : cs = front.reverse ++ '\n' :: l.reverse := by
      simpa using congrArg List.reverse eq
    subst cut
    refine ⟨rows front.reverse, l.reverse, by simpa using single, ?_, fun ds => ?_⟩
    · exact (List.suffix_cons '\n' l.reverse).trans (List.suffix_append _ _)
    · rw [List.append_assoc, List.cons_append, rows_append_newline]
  · exact ⟨[], cs, several, List.suffix_rfl, fun ds => rfl⟩

/-- What precedes the first line feed of a text goes on. -/
theorem exists_first_line (ds : List Char) :
    ∃ l qs, l <+: ds ∧ ∀ cs, '\n' ∉ cs → rows (cs ++ ds) = lineWords (cs ++ l) :: qs := by
  by_cases several : '\n' ∈ ds
  · obtain ⟨l, rest, rfl, single⟩ := List.eq_append_cons_of_mem several
    refine ⟨l, rows rest, List.prefix_append _ _, fun cs first => ?_⟩
    rw [← List.append_assoc, rows_append_newline, rows_of_not_mem]
    · rfl
    · exact List.not_mem_append first single
  · refine ⟨ds, [], List.prefix_rfl, fun cs first => rows_of_not_mem ?_⟩
    exact List.not_mem_append first several

/-! ### Changes of layout -/

/-- Changes that are only to the layout of a text. -/
inductive LayoutChange : List Char → List Char → Prop
  /-- A comment at the end of a line. -/
  | comment (before note : List Char) {after : List Char} : '\n' ∉ note →
      (∀ d ∈ after.head?, d = '\n') →
      LayoutChange (before ++ after) (before ++ ';' :: note ++ after)
  /-- A blank that is no line feed. -/
  | blank {c : Char} {before after : List Char} : isBlank c = true → c ≠ '\n' →
      IsGap before after → LayoutChange (before ++ after) (before ++ c :: after)

/-- Layout is not seen in rows. -/
theorem LayoutChange.rows_eq {s t : List Char} (change : LayoutChange s t) : rows s = rows t := by
  cases change with
  | @comment before note after single atEnd =>
      -- the comment is all that stands behind the last line in front of it, up to a line feed
      obtain ⟨ps, l, line, -, rows_eq⟩ := exists_last_line before
      rw [List.append_assoc, rows_eq, rows_eq]
      have commented : '\n' ∉ l ++ ';' :: note :=
        List.not_mem_append line (List.not_mem_cons_of_ne_of_not_mem (by decide) single)
      cases after with
      | nil =>
          rw [List.append_nil, List.append_nil, rows_of_not_mem line, rows_of_not_mem commented,
            lineWords_comment]
      | cons d ds =>
          obtain rfl : d = '\n' := atEnd d rfl
          rw [rows_append_newline, ← List.append_assoc l, rows_append_newline, rows_of_not_mem line,
            rows_of_not_mem commented, lineWords_comment]
  | @blank c before after blank other gap =>
      -- the line of the blank is the last one in front of it and the first one behind it
      obtain ⟨ps, l, line, last, before_eq⟩ := exists_last_line before
      obtain ⟨m, qs, first, after_eq⟩ := exists_first_line after
      have longer : '\n' ∉ l ++ [c] := List.not_mem_append line (by simpa using other.symm)
      have without : rows (before ++ after) = ps ++ lineWords (l ++ m) :: qs := by
        rw [before_eq, after_eq l line]
      have within : rows (before ++ c :: after) = ps ++ lineWords (l ++ c :: m) :: qs := by
        have eq := after_eq (l ++ [c]) longer
        rw [List.append_assoc, List.append_assoc] at eq
        rw [before_eq]
        exact congrArg (ps ++ ·) eq
      rw [without, within, lineWords_of_isGap blank (gap.mono last first)]

/-- Texts that differ in their layout only. -/
abbrev IsRelaid : List Char → List Char → Prop := Relation.EqvGen LayoutChange

theorem IsRelaid.rows_eq {s t : List Char} (relaid : IsRelaid s t) : rows s = rows t := by
  induction relaid with
  | rel s t change => exact change.rows_eq
  | refl => rfl
  | symm s t _ ih => exact ih.symm
  | trans s t u _ _ first second => exact first.trans second

/-- A text with `\r\n` at the end of each line. -/
def withReturns (text : List Char) : List Char :=
  text.flatMap fun c => if c = '\n' then ['\r', '\n'] else [c]

/-- A return in front of a line feed is layout. -/
theorem isRelaid_withReturns (text : List Char) : IsRelaid text (withReturns text) := by
  -- the text in front of a line feed matters, since a return is put in behind it
  suffices ∀ before, IsRelaid (before ++ text) (before ++ withReturns text) from this []
  induction text with
  | nil => exact fun before => .refl _
  | cons c text ih =>
      intro before
      by_cases feed : c = '\n'
      · subst feed
        have blank : LayoutChange (before ++ '\n' :: text) (before ++ '\r' :: '\n' :: text) :=
          .blank rfl (by decide) (.inr fun d hd => Option.some.inj hd ▸ rfl)
        have later := ih (before ++ ['\r', '\n'])
        rw [List.append_assoc, List.append_assoc] at later
        exact (Relation.EqvGen.rel _ _ blank).trans _ _ _ later
      · have later := ih (before ++ [c])
        rw [List.append_assoc, List.append_assoc] at later
        rwa [withReturns, List.flatMap_cons, if_neg feed, ← withReturns]

/-! ### Lines of a text, and what lies between its line feeds -/

/-- A line feed at the end of a text makes the difference of an empty line. -/
theorem splitOn_eq_lines (text : List Char) :
    text.splitOn '\n' = lines text ∨ text.splitOn '\n' = lines text ++ [[]] := by
  induction text with
  | nil => exact .inr rfl
  | cons c text ih =>
      rw [List.splitOn] at ih ⊢
      rw [List.splitOnP_cons_eq_if_modifyHead, lines_cons, addToLines.eq_def]
      by_cases feed : c = '\n'
      · rw [if_pos feed, if_pos (beq_iff_eq.2 feed)]
        exact ih.imp (congrArg _) (congrArg _)
      · rw [if_neg feed, if_neg (fun eq => feed (beq_iff_eq.1 eq))]
        -- a character joins the first piece, which is the first line unless there are none
        rcases ih with eq | eq <;> rw [eq]
        · cases all : lines text with
          | nil => exact absurd (eq.trans all) (List.splitOnP_ne_nil _ _)
          | cons l ls => exact .inl rfl
        · cases lines text with
          | nil => exact .inl rfl
          | cons l ls => exact .inr rfl

end Text

/-! ### What a row says -/

namespace Command

/-- A command by its name. -/
def ofName (name : List Char) (args : List (List Char)) : Except Cause Command :=
  match Keyword.ofText (String.ofList name) with
  | some k => ofKeyword k args
  | none => .error (.unknownCommand (String.ofList name))

/-- What the words of a line say. -/
def ofWords : List (List Char) → Except Cause (Option Command)
  | [] => .ok none
  | [['#']] => (ofName [] []).map some
  | ['#'] :: name :: args => (ofName name args).map some
  | ('#' :: name) :: args => (ofName name args).map some
  | cells => (cells.mapM Cell.read).map fun cells => some (.notes cells)

/-- Text without blanks at its ends starts with its first word. -/
theorem isBlank_of_content {l cs : List Char} {c : Char} (text : content l = c :: cs) :
    isBlank c = false := by
  have shorter : trimEnd ((l.takeWhile (· != ';')).dropWhile isBlank) <+:
      (l.takeWhile (· != ';')).dropWhile isBlank :=
    List.reverse_suffix.1 (by rw [trimEnd, List.reverse_reverse]; exact List.dropWhile_suffix _)
  rw [content, trim] at text
  rw [text] at shorter
  obtain ⟨rest, eq⟩ := shorter
  have first := List.head?_dropWhile_not isBlank (l.takeWhile (· != ';'))
  rw [← eq] at first
  simpa using first

/-- What is read behind a `#`. -/
theorem ofDirective_eq (cs : List Char) :
    (ofDirective cs).map some = ofWords (('#' :: (splitWords cs).1) :: (splitWords cs).2) := by
  rw [ofDirective, words]
  rcases splitWords cs with ⟨- | ⟨d, ds⟩, - | ⟨w, ws⟩⟩ <;> rfl

/-- A line is read by its words. -/
theorem ofLine_eq_ofWords (l : List Char) : ofLine l = ofWords (lineWords l) := by
  rw [lineWords, ← words_trim, ← content, ofLine]
  rcases text : content l with - | ⟨c, cs⟩
  · rfl
  · rw [words_cons_of_not_blank (isBlank_of_content text)]
    split
    case h_1 none => cases none
    case h_2 d ds eq =>
      cases eq
      exact ofDirective_eq cs
    case h_3 _ other =>
      have letter : c ≠ '#' := fun eq => other cs (by rw [eq])
      rw [words_cons_of_not_blank (isBlank_of_content text), ofWords]
      · cases (((c :: (splitWords cs).1) :: (splitWords cs).2).mapM Cell.read) <;> rfl
      -- a row of cells starts with no `#`
      · rintro ⟨⟩
      · exact fun eq => letter (List.cons.inj (List.cons.inj eq).1).1
      · exact fun name args eq => letter (List.cons.inj (List.cons.inj eq).1).1
      · exact fun name args eq => letter (List.cons.inj (List.cons.inj eq).1).1

end Command

/-! ### Reading rows -/

/-- What a line with a number says, or is refused for. -/
def locate (line : Nat) : Except Cause (Option Command) → Except SheetError (Option Located)
  | .ok found => .ok (found.map (Located.mk line))
  | .error cause => .error ⟨line, cause⟩

/-- Reads rows that are counted from `n` on. -/
def readRows (n : Nat) (rows : List (List (List Char))) : Except SheetError (List Located) := do
  let found ← (rows.zipIdx n).mapM fun row => locate row.2 (Command.ofWords row.1)
  return found.reduceOption

theorem readRows_cons (n : Nat) (row : List (List Char)) (rows : List (List (List Char))) :
    readRows n (row :: rows) = do
      let found ← locate n (Command.ofWords row)
      let rest ← readRows (n + 1) rows
      return found.toList ++ rest := by
  rw [readRows, List.zipIdx_cons, List.mapM_cons, readRows]
  rcases locate n (Command.ofWords row) with e | - | c
  · rfl
  · cases (rows.zipIdx (n + 1)).mapM fun row => locate row.2 (Command.ofWords row.1) <;> rfl
  · cases (rows.zipIdx (n + 1)).mapM fun row => locate row.2 (Command.ofWords row.1) <;> rfl

theorem readRows_append (n : Nat) (rows rows' : List (List (List Char))) :
    readRows n (rows ++ rows') = do
      let front ← readRows n rows
      let back ← readRows (n + rows.length) rows'
      return front ++ back := by
  rw [readRows, List.zipIdx_append, List.mapM_append, readRows, readRows]
  cases (rows.zipIdx n).mapM fun row => locate row.2 (Command.ofWords row.1) with
  | error e => rfl
  | ok front =>
      cases (rows'.zipIdx (n + rows.length)).mapM fun row =>
          locate row.2 (Command.ofWords row.1) with
      | error e => rfl
      | ok back => exact congrArg Except.ok (List.reduceOption_append front back)

/-- The same command, on a line further down. -/
def Located.below (k : Nat) (c : Located) : Located := ⟨c.line + k, c.command⟩

/-- The same error, on a line further down. -/
def SheetError.below (k : Nat) (e : SheetError) : SheetError := ⟨e.line + k, e.cause⟩

/-- What is read, where it stands `k` lines further down. -/
def readBelow (k : Nat) : Except SheetError (List Located) → Except SheetError (List Located)
  | .ok cs => .ok (cs.map (Located.below k))
  | .error e => .error (e.below k)

/-- Rows say the same wherever they stand. -/
theorem readRows_add (n k : Nat) (rows : List (List (List Char))) :
    readRows (n + k) rows = readBelow k (readRows n rows) := by
  induction rows generalizing n with
  | nil => rfl
  | cons row rows ih =>
      rw [readRows_cons, readRows_cons, Nat.add_right_comm, ih]
      rcases Command.ofWords row with cause | - | c
      · rfl
      · cases readRows (n + 1) rows <;> rfl
      · cases readRows (n + 1) rows <;> rfl

theorem readLines_eq_readRows (n : Nat) (ls : List (List Char)) :
    readLines n ls = readRows n (ls.map lineWords) := by
  induction ls generalizing n with
  | nil => rfl
  | cons l ls ih =>
      rw [List.map_cons, readRows_cons, ← ih, ← Command.ofLine_eq_ofWords]
      rcases read : Command.ofLine l with cause | found
      · rw [readLines, read]
        rfl
      · rw [readLines_cons read]
        cases found <;> cases readLines (n + 1) ls <;> rfl

/-- A text is read by its rows. -/
theorem readCommands_eq_readRows (text : List Char) :
    readCommands text = readRows 1 (rows text) := by
  rw [readCommands, readLines_eq_readRows, rows]
  rcases splitOn_eq_lines text with eq | eq
  · rw [eq]
  · rw [eq, List.map_append, readRows_append]
    cases readRows 1 ((lines text).map lineWords) with
    | error e => rfl
    | ok cs => exact congrArg Except.ok (List.append_nil cs).symm

/-- Texts one below the other are read one after the other. -/
theorem readCommands_append_newline (a b : List Char) :
    readCommands (a ++ '\n' :: b) = do
      let front ← readCommands a
      let back ← readBelow (a.count '\n' + 1) (readCommands b)
      return front ++ back := by
  rw [readCommands_eq_readRows, rows_append_newline, readRows_append, length_rows, readRows_add,
    ← readCommands_eq_readRows, ← readCommands_eq_readRows]

/-- A text is read by the words in front of the comment of each of its lines, and not by its
layout.  Each row of words is decoded by itself, with the number of its line: no words are
nothing, a row that starts with `#` is a command, and any other is a row of cells.  So texts that
differ in comments, in the blanks next to blanks or to the ends of lines, or in the form of line
ends are read alike, and texts that stand one below the other are read one after the other, with
the lines of the second counted from below the first. -/
theorem layout_is_not_read :
    (∀ text, readCommands text = readRows 1 (rows text)) ∧
      (∀ s t, IsRelaid s t → readCommands s = readCommands t) ∧
      (∀ text, readCommands (withReturns text) = readCommands text) ∧
      ∀ a b, readCommands (a ++ '\n' :: b) = do
        let front ← readCommands a
        let back ← readBelow (a.count '\n' + 1) (readCommands b)
        return front ++ back := by
  have relaid : ∀ s t, IsRelaid s t → readCommands s = readCommands t := fun s t relaid => by
    rw [readCommands_eq_readRows, readCommands_eq_readRows, relaid.rows_eq]
  refine ⟨readCommands_eq_readRows, relaid, fun text => ?_, readCommands_append_newline⟩
  exact (relaid _ _ (isRelaid_withReturns text)).symm

/-- A comment, and the blanks around a word. -/
theorem layout_is_not_read_of_loop :
    IsRelaid "#LOOP 2".toList "#LOOP\t 2; twice".toList ∧
      readCommands "#LOOP 2".toList = readCommands "#LOOP\t 2; twice".toList := by
  have blank : LayoutChange "#LOOP 2".toList "#LOOP\t 2".toList :=
    @LayoutChange.blank '\t' "#LOOP".toList " 2".toList rfl (by decide)
      (.inr fun d hd => Option.some.inj hd ▸ rfl)
  have comment : LayoutChange "#LOOP\t 2".toList "#LOOP\t 2; twice".toList :=
    @LayoutChange.comment "#LOOP\t 2".toList " twice".toList [] (by decide) nofun
  have relaid := (Relation.EqvGen.rel _ _ blank).trans _ _ _ (.rel _ _ comment)
  exact ⟨relaid, layout_is_not_read.2.1 _ _ relaid⟩

end SongSheet
