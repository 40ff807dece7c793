/-
SongSheet/Proofs/Sheet/Spelling.lean

How pitches, note values and cells are spelled.

A pitch name is taken apart as data (`Pitch.Name`), and the names that the table of pitches
knows are just the spellings of such data (`Pitch.number_eq_some_iff`).  No spelling holds a
`+` or a colon, so a cell can be put together from the spellings of its parts and is taken
apart in the same way.  `Cell.Reads` says so of cells that are accepted, and also which of three
faults a cell is refused for; every text is in one of its cases (`Cell.exists_reads`), and it
allows one answer only (`Cell.read_of_reads`), so it is what `Cell.read` does.
-/
import SongSheet.Command

namespace SongSheet

open SheetError

/-! ### Pitches -/

namespace Pitch

/-- The letters of the natural notes. -/
inductive Letter where
  | c
  | d
  | e
  | f
  | g
  | a
  | b
  deriving DecidableEq, Repr

namespace Letter

/-- The spelling of a letter. -/
def char : Letter → Char
  | c => 'C'
  | d => 'D'
  | e => 'E'
  | f => 'F'
  | g => 'G'
  | a => 'A'
  | b => 'B'

/-- The semitones from C. -/
def semitones : Letter → Nat
  | c => 0
  | d => 2
  | e => 4
  | f => 5
  | g => 7
  | a => 9
  | b => 11

end Letter

/-- What may stand between a letter and an octave. -/
inductive Accidental where
  | sharp
  | flat
  deriving DecidableEq, Repr

namespace Accidental

/-- The spelling of an accidental. -/
def char : Accidental → Char
  | sharp => '#'
  | flat => 'b'

/-- The semitones that an accidental adds. -/
def semitones : Accidental → Int
  | sharp => 1
  | flat => -1

end Accidental

/-- The parts of a pitch name. -/
structure Name where
  letter : Letter
  accidental : Option Accidental
  octave : Nat
  one_le_octave : 1 ≤ octave
  octave_le_seven : octave ≤ 7
  deriving DecidableEq, Repr

namespace Name

/-- A pitch name as it is written. -/
def spelling (n : Name) : List Char :=
  n.letter.char :: ((n.accidental.map Accidental.char).toList ++ [Nat.digitChar n.octave])

/-- The number of a pitch, in semitones. -/
def semitone (n : Name) : Int :=
  12 * (n.octave + 1) + n.letter.semitones + (n.accidental.map Accidental.semitones).getD 0

end Name

theorem natural_eq_some_iff {c : Char} {base : Nat} :
    natural c = some base ↔ ∃ l : Letter, c = l.char ∧ base = l.semitones := by
  constructor
  · intro h
    unfold natural at h
    split at h
    case h_1 => exact ⟨.c, rfl, (Option.some.inj h).symm⟩
    case h_2 => exact ⟨.d, rfl, (Option.some.inj h).symm⟩
    case h_3 => exact ⟨.e, rfl, (Option.some.inj h).symm⟩
    case h_4 => exact ⟨.f, rfl, (Option.some.inj h).symm⟩
    case h_5 => exact ⟨.g, rfl, (Option.some.inj h).symm⟩
    case h_6 => exact ⟨.a, rfl, (Option.some.inj h).symm⟩
    case h_7 => exact ⟨.b, rfl, (Option.some.inj h).symm⟩
    case h_8 => cases h
  · rintro ⟨l, rfl, rfl⟩
    cases l <;> rfl

/-- Digits from 1 to 7, as numbers and as characters. -/
theorem octave_digitChar {o : Nat} (low : 1 ≤ o) (high : o ≤ 7) :
    octave [Nat.digitChar o] = some o := by
  have all : ∀ o ≤ 7, 1 ≤ o → octave [Nat.digitChar o] = some o := by decide
  exact all o high low

theorem octave_eq_some_iff {cs : List Char} {o : Nat} :
    octave cs = some o ↔ 1 ≤ o ∧ o ≤ 7 ∧ cs = [Nat.digitChar o] := by
  constructor
  · intro h
    unfold octave at h
    split at h
    case h_1 c =>
      split at h
      case isTrue range =>
        cases h
        have low : 49 ≤ c.toNat := range.1
        have high : c.toNat ≤ 55 := range.2
        refine ⟨by omega, by omega, ?_⟩
        -- a character is known by its code, and there are seven of them
        have all : ∀ k ≤ 55, 49 ≤ k → Char.ofNat k = Nat.digitChar (k - 48) := by decide
        rw [← all _ high low, Char.ofNat_toNat]
      case isFalse => cases h
    case h_2 => cases h
  · rintro ⟨low, high, rfl⟩
    exact octave_digitChar low high

/-- An accidental is taken off, if one stands there. -/
theorem splitAccidental_eq (cs : List Char) :
    ∃ a : Option Accidental, cs = (a.map Accidental.char).toList ++ (splitAccidental cs).2 ∧
      (splitAccidental cs).1 = (a.map Accidental.semitones).getD 0 := by
  unfold splitAccidental
  split
  case h_1 cs => exact ⟨some .sharp, rfl, rfl⟩
  case h_2 cs => exact ⟨some .flat, rfl, rfl⟩
  case h_3 cs _ _ => exact ⟨none, rfl, rfl⟩

theorem splitAccidental_digit {o : Nat} (low : 1 ≤ o) (high : o ≤ 7) (a : Option Accidental) :
    splitAccidental ((a.map Accidental.char).toList ++ [Nat.digitChar o]) =
      ((a.map Accidental.semitones).getD 0, [Nat.digitChar o]) := by
  rcases a with - | - | -
  · have all : ∀ o ≤ 7, 1 ≤ o → splitAccidental [Nat.digitChar o] = (0, [Nat.digitChar o]) := by
      decide
    exact all o high low
  · rfl
  · rfl

/-- The names in the table of pitches, and their numbers. -/
theorem number_eq_some_iff {name : List Char} {k : Int} :
    number name = some k ↔ ∃ n : Name, name = n.spelling ∧ k = n.semitone := by
  constructor
  · intro h
    cases name with
    | nil => cases h
    | cons c cs =>
        obtain ⟨base, letter, h⟩ := Option.bind_eq_some_iff.1 h
        obtain ⟨l, rfl, rfl⟩ := natural_eq_some_iff.1 letter
        obtain ⟨a, text, semitones⟩ := splitAccidental_eq cs
        rcases split : splitAccidental cs with ⟨accidental, digits⟩
        rw [split] at h text semitones
        obtain ⟨o, digit, value⟩ := Option.bind_eq_some_iff.1 h
        obtain ⟨low, high, rfl⟩ := octave_eq_some_iff.1 digit
        refine ⟨⟨l, a, o, low, high⟩, congrArg (l.char :: ·) text, ?_⟩
        rw [Name.semitone, ← semitones]
        exact (Option.some.inj value).symm
  · rintro ⟨⟨l, a, o, low, high⟩, rfl, rfl⟩
    have letter : natural l.char = some l.semitones := natural_eq_some_iff.2 ⟨l, rfl, rfl⟩
    have rest := splitAccidental_digit low high a
    simp only [number, Name.spelling, letter, rest, octave_digitChar low high, Option.bind_eq_bind,
      Option.bind_some, Option.pure_def, Name.semitone]

/-- What can be written for a pitch of a cell. -/
inductive Symbol where
  | rest
  | tone (n : Name)
  deriving DecidableEq, Repr

namespace Symbol

/-- A pitch of a cell as it is written. -/
def spelling : Symbol → List Char
  | rest => ['-']
  | tone n => n.spelling

/-- The frequency that is written. -/
def frequency : Symbol → Single
  | rest => Binary.zero false
  | tone n => tuned n.semitone.toNat

/-- A spelling keeps clear of the characters between spellings. -/
theorem not_mem_spelling (w : Symbol) : '+' ∉ w.spelling ∧ ':' ∉ w.spelling := by
  cases w with
  | rest => decide
  | tone n =>
      obtain ⟨l, a, o, low, high⟩ := n
      have all : ∀ o ≤ 7, Nat.digitChar o ≠ '+' ∧ Nat.digitChar o ≠ ':' := by decide
      have digit := all o high
      rcases a with - | - | - <;> cases l <;>
        simp [spelling, Name.spelling, Letter.char, Accidental.char, digit.1.symm, digit.2.symm]

theorem clear_of_mem_map {ws : List Symbol} :
    ∀ p ∈ ws.map spelling, '+' ∉ p ∧ ':' ∉ p := by
  intro p hp
  obtain ⟨w, -, rfl⟩ := List.mem_map.1 hp
  exact w.not_mem_spelling

/-- A name of a pitch is not that of a rest. -/
theorem spelling_ne_rest (n : Name) : n.spelling ≠ Pitch.rest := fun eq => by
  have length := congrArg List.length eq
  simp [Name.spelling, Pitch.rest] at length

end Symbol

/-- What has a frequency, and which. -/
theorem frequency_eq_some_iff {name : List Char} {x : Single} :
    frequency name = some x ↔ ∃ w : Symbol, name = w.spelling ∧ x = w.frequency := by
  rw [frequency]
  split
  case isTrue silent =>
    constructor
    · intro h
      exact ⟨.rest, silent, (Option.some.inj h).symm⟩
    · rintro ⟨- | n, eq, rfl⟩
      · rfl
      · exact absurd (eq.symm.trans silent) (Symbol.spelling_ne_rest n)
  case isFalse sounding =>
    rw [Option.map_eq_some_iff]
    constructor
    · rintro ⟨k, found, rfl⟩
      obtain ⟨n, rfl, rfl⟩ := number_eq_some_iff.1 found
      exact ⟨.tone n, rfl, rfl⟩
    · rintro ⟨- | n, rfl, rfl⟩
      · exact absurd rfl sounding
      · exact ⟨n.semitone, number_eq_some_iff.2 ⟨n, rfl, rfl⟩, rfl⟩

end Pitch

/-! ### Note values -/

theorem PlainValue.ofLetter_eq_some_iff {c : Char} {v : PlainValue} :
    ofLetter c = some v ↔ c = v.letter := by
  constructor
  · intro h
    have same := List.find?_some (show all.find? (fun v => v.letter == c) = some v from h)
    exact (beq_iff_eq.1 same).symm
  · rintro rfl
    exact ofLetter_letter v

theorem NoteValue.ofCode_eq_some_iff {cs : List Char} {v : NoteValue} :
    ofCode cs = some v ↔ cs = v.code := by
  constructor
  · intro h
    unfold ofCode at h
    split at h
    case h_1 c =>
      obtain ⟨p, letter, rfl⟩ := Option.map_eq_some_iff.1 h
      rw [PlainValue.ofLetter_eq_some_iff.1 letter]
      rfl
    case h_2 c =>
      obtain ⟨p, letter, rfl⟩ := Option.map_eq_some_iff.1 h
      rw [PlainValue.ofLetter_eq_some_iff.1 letter]
      rfl
    case h_3 => cases h
  · rintro rfl
    exact ofCode_code v

theorem NoteValue.ofCode_eq_none_iff {cs : List Char} :
    ofCode cs = none ↔ ∀ v : NoteValue, cs ≠ v.code := by
  rw [Option.eq_none_iff_forall_ne_some]
  exact forall_congr' fun v => not_congr ofCode_eq_some_iff

/-! ### Texts with separators -/

namespace Text

/-- Cutting at a separator is what the library calls splitting on it. -/
theorem splitAll_eq_splitOn (sep : Char) (cs : List Char) : splitAll sep cs = cs.splitOn sep := by
  induction cs with
  | nil => rfl
  | cons c cs ih =>
      rw [splitAll, List.foldr_cons, ← splitAll, ih, List.splitOn, List.splitOn,
        List.splitOnP_cons_eq_if_modifyHead]
      by_cases here : c = sep
      · rw [if_pos here, if_pos (beq_iff_eq.2 here)]
      · rw [if_neg here, if_neg (fun eq => here (beq_iff_eq.1 eq))]
        cases pieces : List.splitOnP (· == sep) cs with
        | nil => exact absurd pieces (List.splitOnP_ne_nil _ _)
        | cons => rfl

/-- Pieces with `+` between them. -/
def joined (pieces : List (List Char)) : List Char := ['+'].intercalate pieces

theorem splitAll_joined {pieces : List (List Char)} (some : pieces ≠ [])
    (clear : ∀ p ∈ pieces, '+' ∉ p) : splitAll '+' (joined pieces) = pieces := by
  rw [splitAll_eq_splitOn]
  exact List.splitOn_intercalate '+' clear some

/-- A character other than `+` stands in pieces that are joined if it stands in one of them. -/
theorem mem_joined {c : Char} (other : c ≠ '+') {pieces : List (List Char)} :
    c ∈ joined pieces ↔ ∃ p ∈ pieces, c ∈ p := by
  induction pieces with
  | nil => simp [joined]
  | cons p pieces ih =>
      cases pieces with
      | nil => simp [joined]
      | cons q pieces =>
          rw [joined, List.intercalate_cons_cons, ← joined, List.mem_append, List.mem_append, ih]
          simp [other]

/-- Every text is one of pieces that are joined. -/
theorem exists_joined (cs : List Char) :
    ∃ pieces, pieces ≠ [] ∧ cs = joined pieces ∧ ∀ p ∈ pieces, '+' ∉ p := by
  induction cs with
  | nil => exact ⟨[[]], nofun, rfl, by simp⟩
  | cons c cs ih =>
      obtain ⟨pieces, some, rfl, clear⟩ := ih
      obtain ⟨p, ps, rfl⟩ := List.exists_cons_of_ne_nil some
      obtain ⟨first, others⟩ := List.forall_mem_cons.1 clear
      by_cases plus : c = '+'
      · subst plus
        exact ⟨[] :: p :: ps, nofun, rfl, List.forall_mem_cons.2 ⟨nofun, clear⟩⟩
      · refine ⟨(c :: p) :: ps, nofun, ?_, List.forall_mem_cons.2 ⟨?_, others⟩⟩
        · cases ps <;> rfl
        · exact List.not_mem_cons_of_ne_of_not_mem (Ne.symm plus) first

end Text

/-! ### Cells -/

namespace Cell

open Pitch Text

/-- What a text is read as, by the grammar of cells.  The pieces in front of the first colon
that lie between `+` signs are names of pitches, and behind it stands a code. -/
inductive Reads : List Char → Except Cause Cell → Prop
  | accepted {ws : List Symbol} (v : NoteValue) : ws ≠ [] →
      Reads (joined (ws.map Symbol.spelling) ++ ':' :: v.code)
        (.ok ⟨ws.map Symbol.frequency, v⟩)
  | malformed {cs : List Char} : ':' ∉ cs → Reads cs (.error (.malformedCell (String.ofList cs)))
  /-- The first piece that is no name of a pitch counts, whatever stands behind it. -/
  | unknownPitch (ws : List Symbol) {name : List Char} {others : List (List Char)}
      (code : List Char) : (∀ w : Symbol, name ≠ w.spelling) →
      (∀ p ∈ name :: others, '+' ∉ p ∧ ':' ∉ p) →
      Reads (joined (ws.map Symbol.spelling ++ name :: others) ++ ':' :: code)
        (.error (.unknownPitch (String.ofList name)))
  | unknownDuration {ws : List Symbol} {code : List Char} : ws ≠ [] →
      (∀ v : NoteValue, code ≠ v.code) →
      Reads (joined (ws.map Symbol.spelling) ++ ':' :: code)
        (.error (.unknownDuration (String.ofList code)))

theorem readPitch_spelling (w : Symbol) : readPitch w.spelling = .ok w.frequency := by
  rw [readPitch, frequency_eq_some_iff.2 ⟨w, rfl, rfl⟩]

theorem readPitch_of_ne {name : List Char} (unknown : ∀ w : Symbol, name ≠ w.spelling) :
    readPitch name = .error (.unknownPitch (String.ofList name)) := by
  rw [readPitch]
  split
  case h_1 x found =>
    obtain ⟨w, eq, -⟩ := frequency_eq_some_iff.1 found
    exact absurd eq (unknown w)
  case h_2 => rfl

/-- Names that are known are read, and then the others. -/
theorem mapM_readPitch (ws : List Symbol) (others : List (List Char)) :
    (ws.map Symbol.spelling ++ others).mapM readPitch =
      (others.mapM readPitch).map (ws.map Symbol.frequency ++ ·) := by
  induction ws with
  | nil =>
      rw [List.map_nil, List.nil_append]
      cases others.mapM readPitch <;> rfl
  | cons w ws ih =>
      rw [List.map_cons, List.cons_append, List.mapM_cons, readPitch_spelling, ih]
      cases others.mapM readPitch <;> rfl

theorem mapM_readPitch_spelling (ws : List Symbol) :
    (ws.map Symbol.spelling).mapM readPitch = .ok (ws.map Symbol.frequency) := by
  have read := mapM_readPitch ws []
  rwa [List.append_nil, List.mapM_nil,
    show (pure [] : Except Cause (List Single)) = .ok [] from rfl, Except.map,
    List.append_nil] at read

/-- The first name that is not known decides. -/
theorem mapM_readPitch_of_ne (ws : List Symbol) {name : List Char}
    (unknown : ∀ w : Symbol, name ≠ w.spelling) (others : List (List Char)) :
    (ws.map Symbol.spelling ++ name :: others).mapM readPitch =
      .error (.unknownPitch (String.ofList name)) := by
  rw [mapM_readPitch, List.mapM_cons, readPitch_of_ne unknown]
  rfl

/-- Pieces are all spelled by the table of pitches, or there is a first one that is not. -/
theorem spelled_or_exists_first (pieces : List (List Char)) :
    (∃ ws : List Symbol, pieces = ws.map Symbol.spelling) ∨
      ∃ (ws : List Symbol) (name : List Char) (others : List (List Char)),
        pieces = ws.map Symbol.spelling ++ name :: others ∧ ∀ w : Symbol, name ≠ w.spelling := by
  induction pieces with
  | nil => exact .inl ⟨[], rfl⟩
  | cons p pieces ih =>
      by_cases known : ∃ w : Symbol, p = w.spelling
      · obtain ⟨w, rfl⟩ := known
        rcases ih with ⟨ws, rfl⟩ | ⟨ws, name, others, rfl, unknown⟩
        · exact .inl ⟨w :: ws, rfl⟩
        · exact .inr ⟨w :: ws, name, others, rfl, unknown⟩
      · exact .inr ⟨[], p, pieces, rfl, fun w eq => known ⟨w, eq⟩⟩

/-- A cell of pieces is read piece by piece. -/
theorem read_joined {pieces : List (List Char)} (some : pieces ≠ [])
    (clear : ∀ p ∈ pieces, '+' ∉ p ∧ ':' ∉ p) (code : List Char) :
    read (joined pieces ++ ':' :: code) = (do
      let pitches ← pieces.mapM readPitch
      match NoteValue.ofCode code with
      | Option.some value => .ok ⟨pitches, value⟩
      | none => .error (.unknownDuration (String.ofList code))) := by
  have colon : ':' ∉ joined pieces := fun h => by
    obtain ⟨p, hp, inside⟩ := (mem_joined (by decide)).1 h
    exact (clear p hp).2 inside
  have split := splitAll_joined some fun p hp => (clear p hp).1
  rw [read, splitFirst_append colon]
  dsimp only
  generalize splitAll '+' (joined pieces) = parts at split ⊢
  subst split
  rfl

/-- The grammar allows no other answer than that of `read`. -/
theorem read_of_reads {cs : List Char} {r : Except Cause Cell} (h : Reads cs r) : read cs = r := by
  cases h with
  | accepted v some =>
      rw [read_joined (by simpa using some) Symbol.clear_of_mem_map, mapM_readPitch_spelling,
        NoteValue.ofCode_code]
      rfl
  | malformed none => rw [read, splitFirst_eq_none none]
  | unknownPitch ws code unknown clear =>
      -- names are read before the code is, which may be anything
      have clear : ∀ p ∈ ws.map Symbol.spelling ++ _, '+' ∉ p ∧ ':' ∉ p :=
        List.forall_mem_append.2 ⟨Symbol.clear_of_mem_map, clear⟩
      rw [read_joined (by simp) clear, mapM_readPitch_of_ne ws unknown]
      rfl
  | unknownDuration some unknown =>
      rw [read_joined (by simpa using some) Symbol.clear_of_mem_map, mapM_readPitch_spelling,
        NoteValue.ofCode_eq_none_iff.2 unknown]
      rfl

/-- Every text has an answer by the grammar. -/
theorem exists_reads (cs : List Char) : ∃ r, Reads cs r := by
  by_cases colon : ':' ∈ cs
  · -- the text is cut at its first colon, and what stands in front of it at all `+` signs
    obtain ⟨names, code, rfl, first⟩ := List.eq_append_cons_of_mem colon
    obtain ⟨pieces, some, rfl, clear⟩ := exists_joined names
    have clear : ∀ p ∈ pieces, '+' ∉ p ∧ ':' ∉ p := fun p hp =>
      ⟨clear p hp, fun inside => first ((mem_joined (by decide)).2 ⟨p, hp, inside⟩)⟩
    rcases spelled_or_exists_first pieces with ⟨ws, rfl⟩ | ⟨ws, name, others, rfl, unknown⟩
    · have some : ws ≠ [] := by simpa using some
      rcases value : NoteValue.ofCode code with - | v
      · exact ⟨_, .unknownDuration some (NoteValue.ofCode_eq_none_iff.1 value)⟩
      · obtain rfl := NoteValue.ofCode_eq_some_iff.1 value
        exact ⟨_, .accepted v some⟩
    · exact ⟨_, .unknownPitch ws code unknown (List.forall_mem_append.1 clear).2⟩
  · exact ⟨_, .malformed colon⟩

end Cell

/-- Cells are read by their grammar, and by nothing else.  A text is accepted just if it is one or
more names of pitches joined by `+`, a colon and the code of a note value, and then has the
frequencies in the order in which they are written.  A text without a colon is malformed; of
others the leftmost name that is not known is refused, and where all names are known, all that
stands behind the first colon.  What is cut off a name as its accidental takes one byte, so that
the cut is between two characters. -/
theorem cells_read_by_grammar :
    (∀ cs r, Cell.read cs = r ↔ Cell.Reads cs r) ∧
      ∀ cs, Pitch.splitAccidental cs = (0, cs) ∨
        ∃ c, c.utf8Size = 1 ∧ cs = c :: (Pitch.splitAccidental cs).2 := by
  refine ⟨fun cs r => ⟨?_, Cell.read_of_reads⟩, fun cs => ?_⟩
  · rintro rfl
    obtain ⟨r, reads⟩ := Cell.exists_reads cs
    rwa [Cell.read_of_reads reads]
  · obtain ⟨a, text, semitones⟩ := Pitch.splitAccidental_eq cs
    rcases a with - | - | -
    · exact .inl (Prod.ext semitones text.symm)
    · exact .inr ⟨'#', rfl, text⟩
    · exact .inr ⟨'b', rfl, text⟩

/-- Names come before the code, and only the first colon counts. -/
example : Cell.read "C4+:x".toList = .error (.unknownPitch "") ∧
    Cell.read "C4:q:q".toList = .error (.unknownDuration "q:q") := ⟨by rfl, by rfl⟩

end SongSheet
