/-
SongSheet/Proofs/Sheet/Extension.lean

Texts that are written further.

A text of whole lines is read apart from what is written behind it: the lines of both are read
one after the other (`readCommands_append`), and the commands of both are run one after the
other (`ofText_append`).  So there are two ways for an error of the first part to stay.  A line
of it that cannot be decoded comes first, whatever follows.  A command of it that fails is run
before all that follow, but only after all of the text has been read; so it can be hidden by a
line further down that cannot be decoded, and by nothing else.

An open loop at the end is no such error: the builder is not finished there, and goes on with
the commands that follow.
-/
import SongSheet.Proofs.Sheet.Layout
import SongSheet.Proofs.Sheet.Refusal

namespace SongSheet

open SheetError Text

/-! ### Kinds of errors -/

/-- Found where a line is decoded, before any command runs. -/
def SheetError.Cause.IsDecoding : Cause → Prop
  | .unmatchedEndLoop | .unclosedLoop | .loopTooLarge _ | .undeclaredTrack _ => False
  | _ => True

/-- Fails, if at all, as a line does that cannot be decoded. -/
def FailsToDecode {α : Type} (x : Except Cause α) : Prop :=
  ∀ cause, x = .error cause → cause.IsDecoding

namespace FailsToDecode

variable {α β : Type}

theorem ok (a : α) : FailsToDecode (.ok a) := nofun

theorem error {cause : Cause} (h : cause.IsDecoding) :
    FailsToDecode (.error cause : Except Cause α) := by
  rintro _ ⟨⟩
  exact h

/-- Two things read one after the other. -/
theorem bind {x : Except Cause α} {f : α → Except Cause β} (first : FailsToDecode x)
    (next : ∀ a, FailsToDecode (f a)) : FailsToDecode (x >>= f) := by
  cases x with
  | error cause =>
      apply error
      exact first cause rfl
  | ok a => exact next a

theorem map {x : Except Cause α} (h : FailsToDecode x) (f : α → β) : FailsToDecode (x.map f) := by
  cases x with
  | error cause =>
      apply error
      exact h cause rfl
  | ok a => exact ok (f a)

/-- Many things read one after the other. -/
theorem mapM {read : α → Except Cause β} (h : ∀ a, FailsToDecode (read a)) (as : List α) :
    FailsToDecode (as.mapM read) := by
  induction as with
  | nil => exact ok []
  | cons a as ih =>
      rw [List.mapM_cons]
      apply (h a).bind
      intro b
      apply ih.bind
      intro bs
      exact ok (b :: bs)

end FailsToDecode

open FailsToDecode

theorem Cell.failsToDecode_read (cs : List Char) : FailsToDecode (Cell.read cs) := by
  rw [Cell.read]
  split
  case h_1 => exact error trivial
  case h_2 names code _ =>
    have pitch (name : List Char) : FailsToDecode (Cell.readPitch name) := by
      rw [Cell.readPitch]
      split
      case h_1 f _ => exact ok f
      case h_2 => exact error trivial
    apply (mapM pitch _).bind
    intro pitches
    split
    case h_1 value _ => exact ok _
    case h_2 => exact error trivial

namespace Command

theorem failsToDecode_argument (k : Keyword) (args : List (List Char)) :
    FailsToDecode (argument k args) := by
  cases args with
  | nil => exact error trivial
  | cons w _ => exact ok w

theorem failsToDecode_valueOf {α : Type} (k : Keyword) (w : List Char) (o : Option α) :
    FailsToDecode (valueOf k w o) := by
  cases o with
  | none => exact error trivial
  | some v => exact ok v

theorem failsToDecode_ofKeyword (k : Keyword) (args : List (List Char)) :
    FailsToDecode (ofKeyword k args) := by
  cases k with
  | bpm | pan | volume | loop =>
      apply (failsToDecode_argument _ args).bind
      intro w
      apply (failsToDecode_valueOf _ w _).bind
      intro v
      exact ok _
  | type =>
      apply (failsToDecode_argument _ args).bind
      intro w
      have timbre : FailsToDecode (readTimbre w) := by
        rw [readTimbre]
        split
        case h_1 t _ => exact ok t
        case h_2 => exact error trivial
      apply timbre.bind
      intro t
      exact ok _
  | track =>
      apply (failsToDecode_argument _ args).bind
      intro w
      exact ok _
  | endLoop => exact ok _
  | notes => exact (mapM Cell.failsToDecode_read args).bind fun cells => ok _

theorem failsToDecode_ofLine (l : List Char) : FailsToDecode (ofLine l) := by
  rw [ofLine]
  split
  case h_1 => exact ok none
  case h_2 cs _ =>
    apply FailsToDecode.map
    rw [ofDirective]
    dsimp only
    split
    case h_1 k _ => exact failsToDecode_ofKeyword k _
    case h_2 => exact error trivial
  case h_3 cs _ _ => exact (mapM Cell.failsToDecode_read _).bind fun cells => ok _

end Command

/-- A text fails to be read on one of its lines, and as lines do. -/
theorem readCommands_error {text : List Char} {e : SheetError}
    (h : readCommands text = .error e) :
    e.cause.IsDecoding ∧ 1 ≤ e.line ∧ e.line ≤ (lines text).length := by
  rcases readLines_cases 1 (lines text) with ⟨before, l, after, cause, eq, -, bad, refused⟩ |
    ⟨cs, -, read, -⟩
  · obtain rfl : e = ⟨1 + before.length, cause⟩ := Except.error.inj (h.symm.trans refused)
    have inside : 1 + before.length ≤ (lines text).length := by simp [eq]; omega
    exact ⟨Command.failsToDecode_ofLine l cause bad, Nat.le_add_right 1 _, inside⟩
  · cases h.symm.trans read

/-- A text is read if and only if all of its lines can be decoded. -/
theorem exists_readCommands_iff (text : List Char) :
    (∃ cs, readCommands text = .ok cs) ↔ ∀ l ∈ lines text, Command.Decodes l := by
  rcases readLines_cases 1 (lines text) with ⟨before, l, after, cause, eq, -, bad, refused⟩ |
    ⟨cs, all, read, -⟩
  · constructor
    · rintro ⟨cs, read⟩
      cases refused.symm.trans read
    · intro all
      obtain ⟨found, decoded⟩ := all l (by simp [eq])
      cases bad.symm.trans decoded
  · exact iff_of_true ⟨cs, read⟩ all

namespace Builder

variable {cs : List Located} {b : Builder} {e : SheetError}

/-- What a command fails with. -/
theorem cause_of_fault (h : initial.run cs = .error e) :
    e.cause = .unmatchedEndLoop ∨ e.cause = .loopTooLarge noteLimit := by
  obtain ⟨before, c, after, b, -, run, failed⟩ := exists_fault h
  obtain ⟨-, ⟨-, rfl⟩ | ⟨_, _, _, _, -, -, rfl⟩⟩ := fault_of_step run failed
  · exact .inl rfl
  · exact .inr rfl

/-- What is wrong with a builder at the end. -/
theorem cause_of_finish (h : b.finish = .error e) : e.cause = .unclosedLoop := by
  rw [finish] at h
  split at h
  case h_1 =>
    cases h
    rfl
  case h_2 => cases h

/-- Neither is an error of decoding. -/
theorem not_isDecoding_of_ofCommands (h : Sheet.ofCommands cs = .error e) :
    ¬ e.cause.IsDecoding := by
  have failed : (initial.run cs).bind (·.finish) = .error e := h
  rcases run : initial.run cs with e' | b
  · rw [run] at failed
    cases failed
    rcases cause_of_fault run with cause | cause <;> simp [cause, Cause.IsDecoding]
  · rw [run] at failed
    simp [cause_of_finish failed, Cause.IsDecoding]

end Builder

/-! ### Whole lines -/

/-- Nothing, or lines that all end in a line feed. -/
def IsWholeLines (text : List Char) : Prop := text = [] ∨ ∃ front, text = front ++ ['\n']

namespace IsWholeLines

variable {p : List Char}

/-- What follows whole lines begins a line of its own. -/
theorem lines_append (whole : IsWholeLines p) (q : List Char) :
    lines (p ++ q) = lines p ++ lines q := by
  rcases whole with rfl | ⟨front, rfl⟩
  · rfl
  · rw [List.append_assoc]
    exact lines_append_newline front q

end IsWholeLines

/-- Lines are read one part after the other. -/
theorem readLines_append (n : Nat) (ls ms : List (List Char)) :
    readLines n (ls ++ ms) = do
      let front ← readLines n ls
      let back ← readBelow ls.length (readLines n ms)
      return front ++ back := by
  rw [readLines_eq_readRows, List.map_append, readRows_append, List.length_map, readRows_add,
    ← readLines_eq_readRows, ← readLines_eq_readRows]

/-- What stands below whole lines is read as if it stood alone, that many lines further up. -/
theorem readCommands_append {p : List Char} (whole : IsWholeLines p) (q : List Char) :
    readCommands (p ++ q) = do
      let front ← readCommands p
      let back ← readBelow (lines p).length (readCommands q)
      return front ++ back := by
  rw [readCommands, whole.lines_append, readLines_append]
  rfl

/-- The commands of whole lines and of what follows them run one after the other, if both can
be read. -/
theorem ofText_append {p : List Char} (whole : IsWholeLines p) (q : List Char) :
    Sheet.ofText (p ++ q) = (do
      let cs ← readCommands p
      let ds ← readBelow (lines p).length (readCommands q)
      let b ← Builder.initial.run cs
      (← b.run ds).finish) := by
  rw [Sheet.ofText, readCommands_append whole]
  rcases readCommands p with e | cs
  · rfl
  rcases readBelow (lines p).length (readCommands q) with e | ds
  · rfl
  show (Builder.initial.run (cs ++ ds)).bind (·.finish) =
    (Builder.initial.run cs).bind fun b => (b.run ds).bind (·.finish)
  rw [Builder.run_append]
  cases Builder.initial.run cs <;> rfl

/-- An error of what stands below has a line below. -/
theorem readBelow_error {k : Nat} {text : List Char} {e : SheetError}
    (h : readBelow k (readCommands text) = .error e) : e.cause.IsDecoding ∧ k < e.line := by
  rcases read : readCommands text with e' | cs
  · rw [read] at h
    obtain rfl : e'.below k = e := Except.error.inj h
    obtain ⟨decoding, first, -⟩ := readCommands_error read
    exact ⟨decoding, Nat.lt_add_of_pos_left first⟩
  · rw [read] at h
    cases h

/-- What can be read alone can be read where it stands below. -/
theorem readBelow_of_ok {k : Nat} {text : List Char} {cs : List Located}
    (h : readCommands text = .ok cs) :
    readBelow k (readCommands text) = .ok (cs.map (Located.below k)) := by
  rw [h]
  rfl

variable {p : List Char} {e : SheetError}

/-- A text that is read is run. -/
theorem ofText_of_read {cs : List Located} (read : readCommands p = .ok cs) :
    Sheet.ofText p = (Builder.initial.run cs).bind (·.finish) := by
  rw [Sheet.ofText, read]
  rfl

/-- A text that cannot be read fails in the same way with whatever follows. -/
theorem ofText_append_of_unread (whole : IsWholeLines p) (bad : readCommands p = .error e)
    (q : List Char) : Sheet.ofText p = .error e ∧ Sheet.ofText (p ++ q) = .error e := by
  rw [ofText_append whole, Sheet.ofText, bad]
  exact ⟨rfl, rfl⟩

/-- Commands that fail do so with whatever follows, unless that cannot be read. -/
theorem ofText_append_of_fault {cs : List Located} (whole : IsWholeLines p)
    (read : readCommands p = .ok cs) (failed : Builder.initial.run cs = .error e)
    (q : List Char) : Sheet.ofText p = .error e ∧
      Sheet.ofText (p ++ q) = (readBelow (lines p).length (readCommands q)).bind fun _ =>
        .error e := by
  constructor
  · rw [ofText_of_read read, failed]
    rfl
  · rw [ofText_append whole, read]
    show ((readBelow _ _).bind fun ds => (Builder.initial.run cs).bind _) = _
    rw [failed]
    rfl

/-- Commands that do not fail are continued. -/
theorem ofText_append_of_run {cs : List Located} {b : Builder} (whole : IsWholeLines p)
    (read : readCommands p = .ok cs) (run : Builder.initial.run cs = .ok b) (q : List Char) :
    Sheet.ofText p = b.finish ∧
      Sheet.ofText (p ++ q) = (do
        let ds ← readBelow (lines p).length (readCommands q)
        (← b.run ds).finish) := by
  constructor
  · rw [ofText_of_read read, run]
    rfl
  · rw [ofText_append whole, read]
    show ((readBelow _ _).bind fun ds => (Builder.initial.run cs).bind _) = _
    rw [run]
    rfl

/-- An error that is not that of an open loop stays, or is hidden by one of decoding in what
follows. -/
theorem ofText_append_of_error (whole : IsWholeLines p) (failed : Sheet.ofText p = .error e)
    (closed : e.cause ≠ .unclosedLoop) (q : List Char) :
    Sheet.ofText (p ++ q) = .error e ∨
      ∃ own, readCommands q = .error own ∧ own.cause.IsDecoding ∧
        Sheet.ofText (p ++ q) = .error (own.below (lines p).length) := by
  rcases read : readCommands p with e' | cs
  · obtain ⟨failed', stays⟩ := ofText_append_of_unread whole read q
    cases failed.symm.trans failed'
    exact .inl stays
  rcases run : Builder.initial.run cs with e' | b
  · -- all of the text is read before a command fails
    obtain ⟨failed', after⟩ := ofText_append_of_fault whole read run q
    cases failed.symm.trans failed'
    rcases below : readCommands q with own | ds
    · right
      refine ⟨own, rfl, (readCommands_error below).1, ?_⟩
      rw [after, below]
      rfl
    · left
      rw [after, readBelow_of_ok below]
      rfl
  · -- no command fails, and so a loop is open
    obtain ⟨finished, -⟩ := ofText_append_of_run whole read run q
    rw [finished] at failed
    exact absurd (Builder.cause_of_finish failed) closed

/-- A text that is a sheet, or has loops to be closed, leads to a builder. -/
theorem exists_run_of_ofText
    (h : (∃ sheet, Sheet.ofText p = .ok sheet) ∨
      ∃ line, Sheet.ofText p = .error ⟨line, .unclosedLoop⟩) :
    ∃ cs b, readCommands p = .ok cs ∧ Builder.initial.run cs = .ok b := by
  -- otherwise it has an error, of another cause
  have other {e : SheetError} (failed : Sheet.ofText p = .error e)
      (cause : e.cause ≠ .unclosedLoop) : False := by
    rcases h with ⟨sheet, made⟩ | ⟨line, unclosed⟩
    · cases failed.symm.trans made
    · cases failed.symm.trans unclosed
      exact cause rfl
  rcases read : readCommands p with e | cs
  · exfalso
    refine @other e (by rw [Sheet.ofText, read]; rfl) ?_
    intro cause
    obtain ⟨decoding, -⟩ := readCommands_error read
    rw [cause] at decoding
    exact decoding
  rcases run : Builder.initial.run cs with e | b
  · exfalso
    refine @other e (by rw [ofText_of_read read, run]; rfl) ?_
    intro unclosed
    rcases Builder.cause_of_fault run with cause | cause <;> cases unclosed.symm.trans cause
  · exact ⟨cs, b, rfl, run⟩

/-- Where commands are continued, an error of decoding is one of what follows. -/
theorem lt_line_of_isDecoding {cs : List Located} {b : Builder} (whole : IsWholeLines p)
    (read : readCommands p = .ok cs) (run : Builder.initial.run cs = .ok b) {q : List Char}
    (failed : Sheet.ofText (p ++ q) = .error e) (decoding : e.cause.IsDecoding) :
    (lines p).length < e.line := by
  obtain ⟨-, after⟩ := ofText_append_of_run whole read run q
  rw [after] at failed
  rcases below : readBelow (lines p).length (readCommands q) with e' | ds
  · rw [below] at failed
    cases failed
    exact (readBelow_error below).2
  · -- the commands of both texts can be read, and one of them fails or is missing
    rw [below] at failed
    have both : Sheet.ofCommands (cs ++ ds) = .error e := by
      show (Builder.initial.run (cs ++ ds)).bind (·.finish) = _
      rw [Builder.run_append, run]
      exact failed
    exact absurd decoding (Builder.not_isDecoding_of_ofCommands both)

/-- Errors are stable under extension.  Let `p` be a text of whole lines, and let any text `q`
be written behind it.

* If some line of `p` cannot be decoded, the error of `p` stays.
* If all lines can be decoded, a loop of `p` that was not opened, or that is too large, stays
  the error.
* If `p` is a sheet, or would be one if its loops were closed, then an error of decoding is on a
  line below those of `p`; and what follows is run from the settings, tracks and open loops that
  `p` has led to.

So no error of `p` but that of an open loop is mended, and it is hidden only by an error of
decoding that `q` has by itself, that many lines further up. -/
theorem errors_stable_under_extension (whole : IsWholeLines p) (q : List Char) :
    ((∃ l ∈ lines p, ¬ Command.Decodes l) →
      ∃ e, e.cause.IsDecoding ∧ e.line ≤ (lines p).length ∧
        Sheet.ofText p = .error e ∧ Sheet.ofText (p ++ q) = .error e) ∧
    ((∀ l ∈ lines p, Command.Decodes l) → (∀ l ∈ lines q, Command.Decodes l) →
      ∀ e, Sheet.ofText p = .error e →
        (e.cause = .unmatchedEndLoop ∨ ∃ limit, e.cause = .loopTooLarge limit) →
        Sheet.ofText (p ++ q) = .error e) ∧
    (((∃ sheet, Sheet.ofText p = .ok sheet) ∨
        ∃ line, Sheet.ofText p = .error ⟨line, .unclosedLoop⟩) →
      (∀ e, Sheet.ofText (p ++ q) = .error e → e.cause.IsDecoding → (lines p).length < e.line) ∧
      ∃ cs b, readCommands p = .ok cs ∧ Builder.initial.run cs = .ok b ∧
        Sheet.ofText p = b.finish ∧
        Sheet.ofText (p ++ q) = (do
          let ds ← readBelow (lines p).length (readCommands q)
          (← b.run ds).finish)) ∧
    ∀ e, Sheet.ofText p = .error e → e.cause ≠ .unclosedLoop →
      Sheet.ofText (p ++ q) = .error e ∨
        ∃ own, readCommands q = .error own ∧ own.cause.IsDecoding ∧
          Sheet.ofText (p ++ q) = .error (own.below (lines p).length) := by
  refine ⟨?_, ?_, ?_, fun e failed closed => ofText_append_of_error whole failed closed q⟩
  · rintro ⟨l, hl, bad⟩
    rcases read : readCommands p with e | cs
    · obtain ⟨decoding, -, inside⟩ := readCommands_error read
      exact ⟨e, decoding, inside, ofText_append_of_unread whole read q⟩
    · exact absurd ((exists_readCommands_iff p).1 ⟨cs, read⟩ l hl) bad
  · intro _ decodes e failed fault
    have closed : e.cause ≠ .unclosedLoop := by
      rcases fault with cause | ⟨limit, cause⟩ <;> simp [cause]
    rcases ofText_append_of_error whole failed closed q with stays | ⟨own, bad, -⟩
    · exact stays
    · obtain ⟨ds, read⟩ := (exists_readCommands_iff q).2 decodes
      cases bad.symm.trans read
  · intro h
    obtain ⟨cs, b, read, run⟩ := exists_run_of_ofText h
    refine ⟨fun e failed decoding => ?_, cs, b, read, run, ofText_append_of_run whole read run q⟩
    exact lt_line_of_isDecoding whole read run failed decoding

/-- A loop that was not opened stays the error, unless a later line cannot be decoded. -/
theorem errors_stable_under_extension_unmatched :
    IsWholeLines "C4:q\n#ENDLOOP\n".toList ∧
      Sheet.ofText "C4:q\n#ENDLOOP\n".toList = .error ⟨2, .unmatchedEndLoop⟩ ∧
      Sheet.ofText ("C4:q\n#ENDLOOP\n".toList ++ "#LOOP 2".toList) =
        .error ⟨2, .unmatchedEndLoop⟩ ∧
      ∃ own, readCommands "\nD4:z".toList = .error own ∧ own.cause.IsDecoding ∧
        Sheet.ofText ("C4:q\n#ENDLOOP\n".toList ++ "\nD4:z".toList) = .error (own.below 2) := by
  have whole : IsWholeLines "C4:q\n#ENDLOOP\n".toList := .inr ⟨"C4:q\n#ENDLOOP".toList, rfl⟩
  have failed : Sheet.ofText "C4:q\n#ENDLOOP\n".toList = .error ⟨2, .unmatchedEndLoop⟩ := by
    decide +kernel
  have read (text : List Char) (h : (readCommands text).isOk = true) :
      ∀ l ∈ lines text, Command.Decodes l := by
    apply (exists_readCommands_iff text).1
    cases all : readCommands text with
    | error e => simp [all, Except.isOk, Except.toBool] at h
    | ok cs => exact ⟨cs, rfl⟩
  refine ⟨whole, failed, ?_, ?_⟩
  · obtain ⟨-, stays, -⟩ := errors_stable_under_extension whole "#LOOP 2".toList
    exact stays (read _ (by decide +kernel)) (read _ (by decide +kernel)) _ failed (.inl rfl)
  · obtain ⟨-, -, -, hidden⟩ := errors_stable_under_extension whole "\nD4:z".toList
    rcases hidden _ failed nofun with stays | here
    · have other : Sheet.ofText ("C4:q\n#ENDLOOP\n".toList ++ "\nD4:z".toList) ≠
          .error ⟨2, .unmatchedEndLoop⟩ := by
        decide +kernel
      exact absurd stays other
    · exact here

end SongSheet
