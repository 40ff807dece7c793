/-
SongSheet/Proofs/Sheet/Reading.lean

What a list of commands says, read as a passage.

A builder goes through its commands once, with a stack of the loops that are open.  A
reader of a passage has no stack: the notes of a loop are those of its body, so many
times (`Passage.expand`); the tracks named in a loop are entered before its notes are
added, to the track that is active then (`Passage.play`).  The two agree
(`run_builder`), because inside of a loop only the innermost buffer and the score
change (`run_builder_cons`).
-/
import SongSheet.Proofs.Sheet.Nesting
import SongSheet.Proofs.Sheet.Score

namespace SongSheet

/-! ### Plain commands -/

/-- The tracks a command enters. -/
def Command.entered : Command → List String
  | .track name => [name]
  | _ => []

/-- Enters tracks, the first one first. -/
def Score.enterAll (x : Score) (names : List String) : Score := names.foldl Score.enter x

/-- The score after a command outside of loops. -/
def Score.obey (x : Score) (s : Settings) : Command → Score
  | .track name => x.enter name
  | .notes cells => x.add (cells.map s.note)
  | _ => x

/-! ### Reading -/

namespace Passage

/-- The settings after a passage. -/
def settings (s : Settings) : Passage → Settings
  | nil => s
  | single c _ rest => rest.settings (s.after c.command)
  | loop _ _ body _ rest => rest.settings (body.settings s)

/-- The tracks a passage enters, in order. -/
def entered : Passage → List String
  | nil => []
  | single c _ rest => c.command.entered ++ rest.entered
  | loop _ _ body _ rest => body.entered ++ rest.entered

/-- The notes of a passage, loops written out. -/
def expand (s : Settings) : Passage → List Note
  | nil => []
  | single c _ rest => s.row c.command ++ rest.expand (s.after c.command)
  | loop _ count body _ rest =>
      (List.replicate count (body.expand s)).flatten ++ rest.expand (body.settings s)

/-- The score after a passage outside of loops. -/
def play (s : Settings) (x : Score) : Passage → Score
  | nil => x
  | single c _ rest => rest.play (s.after c.command) (x.obey s c.command)
  | loop _ count body _ rest =>
      rest.play (body.settings s)
        ((x.enterAll body.entered).add (List.replicate count (body.expand s)).flatten)

/-- A loop with these notes may be closed onto so many. -/
def mayClose (count : Nat) (notes : List Note) (onto : Nat) : Bool :=
  notes.length * count + onto ≤ Builder.noteLimit

/-- Every loop of a passage may be closed, inside of a loop with so many notes. -/
def fitsIn (s : Settings) (onto : Nat) : Passage → Bool
  | nil => true
  | single c _ rest => rest.fitsIn (s.after c.command) (onto + (s.row c.command).length)
  | loop _ count body _ rest =>
      body.fitsIn s 0 && mayClose count (body.expand s) onto &&
        rest.fitsIn (body.settings s) (onto + (body.expand s).length * count)

/-- Every loop of a passage may be closed, outside of loops. -/
def fits (s : Settings) (x : Score) : Passage → Bool
  | nil => true
  | single c _ rest => rest.fits (s.after c.command) (x.obey s c.command)
  | loop _ count body _ rest =>
      body.fitsIn s 0 && mayClose count (body.expand s) (x.enterAll body.entered).notes.length &&
        rest.fits (body.settings s)
          ((x.enterAll body.entered).add (List.replicate count (body.expand s)).flatten)

/-- The sheet a passage is read as. -/
def sheet (p : Passage) : Sheet := ⟨(p.play .initial .initial).tracks⟩

/-- Every loop of a whole sheet may be closed. -/
def Fits (p : Passage) : Prop := p.fits .initial .initial = true

end Passage

/-! ### The builder reads the same -/

namespace Builder

variable {b b' : Builder} {c : Located} {cs ds : List Located}

theorem toOption_run_cons (h : b.step c = .ok b') :
    (b.run (c :: cs)).toOption = (b'.run cs).toOption := by
  rw [run_cons, h]
  rfl

/-- A command that works under a condition. -/
theorem toOption_run_cons_of_ite {small : Prop} [Decidable small] {e : SheetError}
    (h : b.step c = if small then .ok b' else .error e) :
    (b.run (c :: cs)).toOption = if small then (b'.run cs).toOption else none := by
  rw [run_cons, h]
  by_cases hs : small
  · rw [if_pos hs, if_pos hs]
    rfl
  · rw [if_neg hs, if_neg hs]
    rfl

theorem toOption_run_append :
    (b.run (cs ++ ds)).toOption = (b.run cs).toOption.bind fun b' => (b'.run ds).toOption := by
  rw [run_append]
  cases b.run cs <;> rfl

end Builder

open Builder

namespace Score

variable {s : Settings} {x : Score} {l : OpenLoop} {ls : List OpenLoop}

/-- A plain command in a loop. -/
theorem step_builder_cons {c : Located} (plain : c.command.IsPlain) :
    (x.builder s (l :: ls)).step c =
      .ok ((x.enterAll c.command.entered).builder (s.after c.command)
        ({ l with notes := l.notes ++ s.row c.command } :: ls)) := by
  obtain ⟨line, command⟩ := c
  have same : ({ l with notes := l.notes ++ [] } : OpenLoop) = l := by rw [List.append_nil]
  cases command with
  | bpm | pan | volume | type =>
      show _ = Except.ok (x.builder _ ({ l with notes := l.notes ++ [] } :: ls))
      rw [same]
      rfl
  | track name =>
      show _ = Except.ok ((x.enter name).builder s ({ l with notes := l.notes ++ [] } :: ls))
      rw [same, step_track]
  | notes cells => exact x.append_builder s (l :: ls) line _
  | loop => cases plain.1
  | endLoop => cases plain.2

/-- A plain command outside of loops. -/
theorem step_builder_nil {c : Located} (plain : c.command.IsPlain) :
    (x.builder s []).step c = .ok ((x.obey s c.command).builder (s.after c.command) []) := by
  obtain ⟨line, command⟩ := c
  cases command with
  | bpm | pan | volume | type => rfl
  | track name => exact x.step_track s [] line name
  | notes cells => exact x.append_builder s [] line _
  | loop => cases plain.1
  | endLoop => cases plain.2

/-- A loop is closed onto the target behind it, or is too large for it. -/
theorem toOption_run_endLoop {line : Nat} {k : OpenLoop} {cs : List Located} :
    ((x.builder s (k :: ls)).run (⟨line, .endLoop⟩ :: cs)).toOption =
      if Passage.mayClose k.count k.notes (x.load ls).length then
        ((x.filled s (List.replicate k.count k.notes).flatten ls).run cs).toOption
      else none := by
  have close : (x.builder s (k :: ls)).step ⟨line, .endLoop⟩ =
      if k.notes.length * k.count + (x.load ls).length ≤ noteLimit then
        .ok (x.filled s (repeated k.count k.notes) ls)
      else .error ⟨k.line, .loopTooLarge noteLimit⟩ := by
    rw [← append_builder x s ls line]
    exact closeLoop_of_target (b := x.builder s (k :: ls)) line rfl (x.target_builder s ls)
  rw [toOption_run_cons_of_ite close, repeated_eq]
  simp only [Passage.mayClose, decide_eq_true_eq]

/-- A loop is read by what its body does on top of it, and is then closed. -/
theorem toOption_run_loop {y : Score} {s' : Settings} {count line last : Nat}
    {body cs : List Located} {notes : List Note} {fits : Bool}
    (inside : ((x.builder s (⟨count, [], line⟩ :: ls)).run body).toOption =
      if fits then some (y.builder s' (⟨count, notes, line⟩ :: ls)) else none) :
    ((x.builder s ls).run (⟨line, .loop count⟩ :: (body ++ ⟨last, .endLoop⟩ :: cs))).toOption =
      if fits && Passage.mayClose count notes (y.load ls).length then
        ((y.filled s' (List.replicate count notes).flatten ls).run cs).toOption
      else none := by
  have opening : (x.builder s ls).step ⟨line, .loop count⟩ =
      .ok (x.builder s (⟨count, [], line⟩ :: ls)) := rfl
  rw [toOption_run_cons opening, toOption_run_append, inside]
  cases fits with
  | false => rfl
  | true => exact toOption_run_endLoop

theorem enterAll_append (x : Score) (ns ms : List String) :
    x.enterAll (ns ++ ms) = (x.enterAll ns).enterAll ms :=
  List.foldl_append

end Score

namespace Passage

variable {s : Settings} {x : Score} {ls : List OpenLoop}

/-- A passage in a loop: its notes go to the loop, its tracks are entered. -/
theorem run_builder_cons (p : Passage) (s : Settings) (x : Score) (l : OpenLoop)
    (ls : List OpenLoop) :
    ((x.builder s (l :: ls)).run p.commands).toOption =
      if p.fitsIn s l.notes.length then
        some ((x.enterAll p.entered).builder (p.settings s)
          ({ l with notes := l.notes ++ p.expand s } :: ls))
      else none := by
  induction p generalizing s x l ls with
  | nil =>
      have same : ({ l with notes := l.notes ++ [] } : OpenLoop) = l := by rw [List.append_nil]
      rw [fitsIn, if_pos rfl, expand, same]
      rfl
  | single c plain rest ih =>
      rw [commands, toOption_run_cons (Score.step_builder_cons plain), ih]
      simp only [fitsIn, List.length_append, entered, settings, expand, Score.enterAll_append,
        List.append_assoc]
  | loop line count body closed rest ihBody ihRest =>
      rw [commands, Score.toOption_run_loop (ihBody s x ⟨count, [], line⟩ (l :: ls)),
        Score.filled, ihRest]
      simp only [fitsIn, Bool.and_eq_true, ite_and, Score.enterAll_append, entered, settings,
        expand, Score.load, List.nil_append, List.length_nil, List.append_assoc,
        List.length_append, Builder.length_copies]

/-- A loop among other commands: its notes go to the target, its tracks are entered before. -/
theorem toOption_run_loop (p : Passage) (line count last : Nat) (cs : List Located) :
    ((x.builder s ls).run
        (⟨line, .loop count⟩ :: (p.commands ++ ⟨last, .endLoop⟩ :: cs))).toOption =
      if p.fitsIn s 0 && mayClose count (p.expand s) ((x.enterAll p.entered).load ls).length then
        (((x.enterAll p.entered).filled (p.settings s)
          (List.replicate count (p.expand s)).flatten ls).run cs).toOption
      else none :=
  Score.toOption_run_loop (p.run_builder_cons s x ⟨count, [], line⟩ ls)

/-- A passage outside of loops is played. -/
theorem run_builder (p : Passage) (s : Settings) (x : Score) :
    ((x.builder s []).run p.commands).toOption =
      if p.fits s x then some ((p.play s x).builder (p.settings s) []) else none := by
  induction p generalizing s x with
  | nil => rfl
  | single c plain rest ih =>
      rw [commands, toOption_run_cons (Score.step_builder_nil plain), ih]
      rfl
  | loop line count body closed rest _ ih =>
      rw [commands, toOption_run_loop, Score.filled, ih]
      simp only [fits, Bool.and_eq_true, ite_and]
      rfl

/-- The commands of a passage give its sheet, if all loops may be closed. -/
theorem toOption_ofCommands (p : Passage) :
    (Sheet.ofCommands p.commands).toOption =
      if p.fits .initial .initial then some p.sheet else none := by
  have finished (cs : List Located) : (Sheet.ofCommands cs).toOption =
      (Builder.initial.run cs).toOption.bind fun b => b.finish.toOption := by
    rw [Sheet.ofCommands]
    cases Builder.initial.run cs <;> rfl
  rw [finished, ← Score.builder_initial, run_builder]
  split <;> rfl

/-- With loops that may be closed, a passage gives its sheet. -/
theorem ofCommands_of_fits {p : Passage} (fits : p.Fits) :
    Sheet.ofCommands p.commands = .ok p.sheet := by
  have read := p.toOption_ofCommands
  rw [if_pos (show p.fits .initial .initial = true from fits)] at read
  cases h : Sheet.ofCommands p.commands with
  | error e => rw [h] at read; cases read
  | ok sheet =>
      rw [h] at read
      rw [Option.some.inj read]

/-- If a passage gives a sheet, its loops may be closed. -/
theorem fits_of_ofCommands {p : Passage} {sheet : Sheet}
    (h : Sheet.ofCommands p.commands = .ok sheet) : p.Fits := by
  have read := p.toOption_ofCommands
  rw [h] at read
  by_contra large
  rw [if_neg (show ¬ p.fits .initial .initial = true from large)] at read
  cases read

end Passage

/-! ### Whole sheets -/

/-- Commands that give a sheet are balanced: no loop is open behind them. -/
theorem balanced_of_ofCommands {cs : List Located} {sheet : Sheet}
    (h : Sheet.ofCommands cs = .ok sheet) : Balanced cs := by
  rw [Sheet.ofCommands] at h
  obtain ⟨b, run, ends⟩ := exists_of_bind h
  obtain ⟨-, opened⟩ := openedBy_of_run run
  rw [finish] at ends
  split at ends
  case h_1 => cases ends
  case h_2 none =>
    rw [openings, none] at opened
    exact opened

/-- The builder reads a list of commands as the passage it is.  The list is a passage if and
only if its loops are balanced; it gives a sheet if and only if, besides, each loop may
be closed; and that is the sheet of the passage. -/
theorem ofCommands_reads_passage (cs : List Located) :
    (Balanced cs ↔ ∃ p : Passage, p.commands = cs) ∧
    ((∃ sheet, Sheet.ofCommands cs = .ok sheet) ↔
      Balanced cs ∧ ∀ p : Passage, p.commands = cs → p.Fits) ∧
    ∀ p : Passage, p.commands = cs → p.Fits → Sheet.ofCommands cs = .ok p.sheet := by
  refine ⟨balanced_iff_exists_passage, ⟨?_, ?_⟩, ?_⟩
  · rintro ⟨sheet, h⟩
    refine ⟨balanced_of_ofCommands h, ?_⟩
    rintro p rfl
    exact Passage.fits_of_ofCommands h
  · rintro ⟨balanced, fits⟩
    obtain ⟨p, rfl⟩ := balanced_iff_exists_passage.1 balanced
    exact ⟨p.sheet, Passage.ofCommands_of_fits (fits p rfl)⟩
  · rintro p rfl fits
    exact Passage.ofCommands_of_fits fits

/-- A note and three of another track, twice. -/
def refrain : Passage :=
  .loop 1 2
    (.single ⟨2, .notes [⟨[.ofNat 440], ⟨.quarter, false⟩⟩]⟩ ⟨rfl, rfl⟩ <|
      .single ⟨3, .track "bass"⟩ ⟨rfl, rfl⟩ <|
        .loop 4 3 (.single ⟨5, .notes [⟨[.ofNat 110], ⟨.eighth, true⟩⟩]⟩ ⟨rfl, rfl⟩ .nil) 6 .nil)
    7 .nil

/-- All notes of the loop go to the track that is active when it is closed. -/
theorem ofCommands_reads_refrain :
    Balanced refrain.commands ∧ refrain.Fits ∧
      Sheet.ofCommands refrain.commands = .ok refrain.sheet ∧
      refrain.sheet.tracks.map (fun t => (t.name, t.notes.length)) =
        [("default", 0), ("bass", 8)] := by
  obtain ⟨paired, -, reads⟩ := ofCommands_reads_passage refrain.commands
  have fits : refrain.Fits := by
    show refrain.fits .initial .initial = true
    decide +kernel
  exact ⟨paired.2 ⟨refrain, rfl⟩, fits, reads refrain rfl fits, by decide +kernel⟩

end SongSheet
