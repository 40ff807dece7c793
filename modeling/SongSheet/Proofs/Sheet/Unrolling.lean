/-
SongSheet/Proofs/Sheet/Unrolling.lean

A loop is its body, so many times.

A loop of rows and loops may be replaced by copies of its body, anywhere in a list of
commands.  The copies add to the target directly, on which notes pile up, where the body of
the loop adds to a buffer that is empty at first; and so the loops in the body are compared
with the limit differently.  But wherever a loop may be closed at its end, all of its notes
and those of the target are within the limit, and so is any part of them
(`Passage.fitsIn_of_le`).  So the copies work when the loop does (`Passage.fitsIn_times`).
The other way round a loop can be too large: it counts its notes also where rows would not,
and its body is read even if it is repeated no times.
-/
import SongSheet.Proofs.Sheet.Excerpt

namespace SongSheet

open SheetError

/-! ### Adding notes to a score -/

namespace Score

variable {x y : Score} {ns ms : List Note}

theorem eq_of_parts (active : x.active = y.active) (tracks : x.tracks = y.tracks) : x = y := by
  obtain ⟨_, _, _, _⟩ := x
  obtain ⟨_, _, _, _⟩ := y
  obtain rfl := active
  obtain rfl := tracks
  rfl

@[simp] theorem enterAll_nil (x : Score) : x.enterAll [] = x := rfl

@[simp] theorem add_nil (x : Score) : x.add [] = x := by
  refine eq_of_parts rfl (List.map_id'' (fun t => ?_) x.tracks)
  simp only [List.append_nil]
  exact ite_self t

theorem add_add (x : Score) (ns ms : List Note) : (x.add ns).add ms = x.add (ns ++ ms) := by
  refine eq_of_parts rfl ?_
  show change x.active (· ++ ms) (change x.active (· ++ ns) x.tracks) = _
  rw [change, change, List.map_map]
  refine List.map_congr_left fun t _ => ?_
  by_cases h : t.name = x.active
  · simp [h, List.append_assoc]
  · simp [h]

/-- The notes of the active track, with notes added. -/
theorem notes_add (x : Score) (ns : List Note) : (x.add ns).notes = x.notes ++ ns := by
  have declared : (x.builder .initial []).IsDeclared := x.present
  obtain ⟨b, added, -, -, -, old, before, after, -⟩ := declared.exists_append 0 ns
  rw [append_builder] at added
  cases added
  rw [target_builder] at before
  rw [filled, target_builder] at after
  obtain rfl : x.notes = old := Option.some.inj before
  exact Option.some.inj after

end Score

/-! ### Rows and loops -/

/-- A row, or an end of a loop: not a setting, and not a track. -/
def Command.isMusic : Command → Bool
  | .notes _ | .loop _ | .endLoop => true
  | .bpm _ | .pan _ | .volume _ | .type _ | .track _ => false

/-- A row adds its notes, and does nothing else. -/
theorem Command.row_of_isMusic {c : Command} (music : c.isMusic = true) (plain : c.IsPlain)
    (s : Settings) (x : Score) :
    s.after c = s ∧ c.entered = [] ∧ x.obey s c = x.add (s.row c) := by
  cases c with
  | notes cells => exact ⟨rfl, rfl, rfl⟩
  | loop => cases plain.1
  | endLoop => cases plain.2
  | bpm | pan | volume | type | track => cases music

namespace Passage

variable {p q : Passage} {s : Settings} {x : Score}

/-- Rows and loops, in any order and depth. -/
def IsMusic (p : Passage) : Prop := ∀ c ∈ p.commands, c.command.isMusic = true

/-- The parts of music that starts with a row. -/
theorem IsMusic.single {c : Located} {plain : c.command.IsPlain} {rest : Passage}
    (h : (Passage.single c plain rest).IsMusic) : c.command.isMusic = true ∧ rest.IsMusic :=
  List.forall_mem_cons.1 h

/-- The parts of music that starts with a loop. -/
theorem IsMusic.loop {line count closed : Nat} {body rest : Passage}
    (h : (Passage.loop line count body closed rest).IsMusic) : body.IsMusic ∧ rest.IsMusic := by
  have inside := (List.forall_mem_cons.1 h).2
  rw [List.forall_mem_append] at inside
  exact ⟨inside.1, (List.forall_mem_cons.1 inside.2).2⟩

/-- Music leaves the settings, and enters no track. -/
theorem IsMusic.leaves (h : p.IsMusic) (s : Settings) : p.settings s = s ∧ p.entered = [] := by
  induction p with
  | nil => exact ⟨rfl, rfl⟩
  | single c plain rest ih =>
      obtain ⟨settings, entered, -⟩ := Command.row_of_isMusic h.single.1 plain s .initial
      obtain ⟨after, none⟩ := ih h.single.2
      rw [Passage.settings, Passage.entered, settings, entered]
      exact ⟨after, none⟩
  | loop line count body closed rest ihBody ihRest =>
      obtain ⟨inside, noneInside⟩ := ihBody h.loop.1
      obtain ⟨after, none⟩ := ihRest h.loop.2
      rw [Passage.settings, Passage.entered, inside, noneInside]
      exact ⟨after, none⟩

/-- Outside of loops, music adds its notes to the active track. -/
theorem IsMusic.play (h : p.IsMusic) (s : Settings) (x : Score) :
    p.play s x = x.add (p.expand s) ∧ p.fits s x = p.fitsIn s x.notes.length := by
  induction p generalizing x with
  | nil => exact ⟨x.add_nil.symm, rfl⟩
  | single c plain rest ih =>
      obtain ⟨settings, -, obeyed⟩ := Command.row_of_isMusic h.single.1 plain s x
      obtain ⟨played, fit⟩ := ih h.single.2 (x.add (s.row c.command))
      simp only [Passage.play, Passage.fits, Passage.expand, Passage.fitsIn, settings, obeyed,
        played, fit, Score.add_add, Score.notes_add, List.length_append, and_self]
  | loop line count body closed rest ihBody ihRest =>
      obtain ⟨settings, entered⟩ := h.loop.1.leaves s
      obtain ⟨played, fit⟩ := ihRest h.loop.2
        (x.add (List.replicate count (body.expand s)).flatten)
      simp only [Passage.play, Passage.fits, Passage.expand, Passage.fitsIn, settings, entered,
        Score.enterAll_nil, played, fit, Score.add_add, Score.notes_add, List.length_append,
        Builder.length_copies, and_self]

/-- Music adds its notes to the target, if its loops may be closed there. -/
theorem IsMusic.toOption_run (h : p.IsMusic) (s : Settings) (x : Score) (ls : List OpenLoop) :
    ((x.builder s ls).run p.commands).toOption =
      if p.fitsIn s (x.load ls).length then some (x.filled s (p.expand s) ls) else none := by
  obtain ⟨settings, entered⟩ := h.leaves s
  cases ls with
  | nil =>
      obtain ⟨played, fit⟩ := h.play s x
      rw [p.run_builder, played, fit, settings]
      rfl
  | cons l ls =>
      rw [p.run_builder_cons, settings, entered]
      rfl

/-! ### Copies -/

/-- One passage after the other. -/
def append : Passage → Passage → Passage
  | nil, q => q
  | single c plain rest, q => single c plain (rest.append q)
  | loop line count body closed rest, q => loop line count body closed (rest.append q)

theorem commands_append (p q : Passage) : (p.append q).commands = p.commands ++ q.commands := by
  induction p with
  | nil => rfl
  | single c plain rest ih => rw [append, commands, ih]; rfl
  | loop line count body closed rest _ ih => simp [append, commands, ih]

theorem expand_append (p q : Passage) (s : Settings) :
    (p.append q).expand s = p.expand s ++ q.expand (p.settings s) := by
  induction p generalizing s with
  | nil => rfl
  | single c plain rest ih => rw [append, expand, ih, expand, settings, List.append_assoc]
  | loop line count body closed rest _ ih =>
      rw [append, expand, ih, expand, settings, List.append_assoc]

theorem fitsIn_append (p q : Passage) (s : Settings) (onto : Nat) :
    (p.append q).fitsIn s onto =
      (p.fitsIn s onto && q.fitsIn (p.settings s) (onto + (p.expand s).length)) := by
  induction p generalizing s onto with
  | nil => rfl
  | single c plain rest ih =>
      rw [append, fitsIn, ih, fitsIn, settings, expand, List.length_append, Nat.add_assoc]
  | loop line count body closed rest _ ih =>
      simp only [append, fitsIn, ih, settings, expand, List.length_append,
        Builder.length_copies, Bool.and_assoc, Nat.add_assoc]

/-- A passage so many times. -/
def times : Nat → Passage → Passage
  | 0, _ => nil
  | n + 1, p => p.append (times n p)

theorem commands_times (n : Nat) (p : Passage) :
    (p.times n).commands = (List.replicate n p.commands).flatten := by
  induction n with
  | zero => rfl
  | succ n ih => rw [times, commands_append, ih, List.replicate_succ, List.flatten_cons]

/-- Copies have the notes of a loop, if the settings stay. -/
theorem expand_times (n : Nat) (same : p.settings s = s) :
    (p.times n).expand s = (List.replicate n (p.expand s)).flatten := by
  induction n with
  | zero => rfl
  | succ n ih => rw [times, expand_append, same, ih, List.replicate_succ, List.flatten_cons]

theorem IsMusic.times (h : p.IsMusic) (n : Nat) : (p.times n).IsMusic := by
  intro c hc
  rw [commands_times, List.mem_flatten] at hc
  obtain ⟨cs, copy, hc⟩ := hc
  rw [List.eq_of_mem_replicate copy] at hc
  exact h c hc

/-- If loops may be closed onto some target, they may be onto any that keeps within the limit
with all notes of the passage. -/
theorem fitsIn_of_le {onto onto' : Nat} (fits : p.fitsIn s onto = true)
    (small : onto' + (p.expand s).length ≤ Builder.noteLimit) : p.fitsIn s onto' = true := by
  induction p generalizing s onto onto' with
  | nil => rfl
  | single c plain rest ih =>
      rw [expand, List.length_append] at small
      exact ih fits (by omega)
  | loop line count body closed rest _ ih =>
      rw [expand, List.length_append, Builder.length_copies] at small
      simp only [fitsIn, mayClose, Bool.and_eq_true, decide_eq_true_eq] at fits ⊢
      -- the body has a buffer of its own in both places
      exact ⟨⟨fits.1.1, by omega⟩, ih fits.2 (by omega)⟩

/-- The loops of all copies may be closed, if a loop of them may. -/
theorem fitsIn_times {n onto : Nat} (fits : p.fitsIn s 0 = true) (same : p.settings s = s)
    (small : (p.expand s).length * n + onto ≤ Builder.noteLimit) :
    (p.times n).fitsIn s onto = true := by
  induction n generalizing onto with
  | zero => rfl
  | succ n ih =>
      rw [Nat.mul_succ] at small
      rw [times, fitsIn_append, same, Bool.and_eq_true]
      exact ⟨fitsIn_of_le fits (by omega), ih (by omega)⟩

end Passage

/-! ### A loop and copies of its body -/

namespace Builder

variable {b : Builder} {pre body : List Located}

/-- A loop does what copies of its body do, or is too large. -/
theorem run_unrolled (run : initial.run pre = .ok b) (balanced : Balanced body)
    (music : ∀ c ∈ body, c.command.isMusic = true) (line count last : Nat) :
    (∃ b', b.run (enclosed line count body last) = .ok b' ∧
      b.run (List.replicate count body).flatten = .ok b') ∨
    ∃ line', b.run (enclosed line count body last) =
      .error ⟨line', .loopTooLarge noteLimit⟩ := by
  obtain ⟨p, rfl⟩ := balanced_iff_exists_passage.1 balanced
  have music : p.IsMusic := music
  obtain ⟨x, score⟩ := exists_score run
  obtain ⟨settings, entered⟩ := music.leaves b.settings
  have looped := run_eq_of_toOption run (balanced.enclosed line count last)
  have copies := (music.times count).toOption_run b.settings x b.loops
  rw [← enclosed, score, x.toOption_run_enclosed p, settings, entered, Score.enterAll_nil,
    ← score] at looped
  rw [← score, Passage.commands_times, Passage.expand_times count settings] at copies
  by_cases fits : (p.fitsIn b.settings 0 &&
      Passage.mayClose count (p.expand b.settings) (x.load b.loops).length) = true
  · rw [if_pos fits] at looped
    simp only [Passage.mayClose, Bool.and_eq_true, decide_eq_true_eq] at fits
    rw [if_pos (Passage.fitsIn_times fits.1 settings fits.2)] at copies
    refine .inl ⟨_, looped, ?_⟩
    cases result : b.run (List.replicate count p.commands).flatten with
    | error => rw [result] at copies; cases copies
    | ok b' => rw [result] at copies; rw [Option.some.inj copies]
  · rw [if_neg fits] at looped
    exact .inr looped

end Builder

/-- The commands of a loop on their lines, and those of copies of its body, anywhere in a list. -/
theorem unrolled_at_lines {body : List Located} (balanced : Balanced body)
    (music : ∀ c ∈ body, c.command.isMusic = true) (pre suf : List Located)
    (line count last : Nat) :
    Sheet.ofCommands (pre ++ (enclosed line count body last ++ suf)) =
      Sheet.ofCommands (pre ++ ((List.replicate count body).flatten ++ suf)) ∨
    ∃ line', Sheet.ofCommands (pre ++ (enclosed line count body last ++ suf)) =
      .error ⟨line', .loopTooLarge Builder.noteLimit⟩ := by
  rcases run : Builder.initial.run pre with e | b
  · rw [Builder.ofCommands_of_error run, Builder.ofCommands_of_error run]
    exact .inl rfl
  · rw [Builder.ofCommands_append run, Builder.ofCommands_append run]
    rcases Builder.run_unrolled run balanced music line count last with ⟨b', looped, copies⟩ |
      ⟨line', large⟩
    · rw [looped, copies]
      exact .inl rfl
    · rw [large]
      exact .inr ⟨line', rfl⟩

/-- A loop of rows and loops is the same as copies of its body.  Wherever it stands among other
commands, and on whatever lines: if the list with the loop gives a sheet, then the list with
the copies gives the same.  If the list with the copies gives a sheet, then the list with the
loop gives the same, or is refused because a loop is too large. -/
theorem loop_eq_copies {body : List Located} (balanced : Balanced body)
    (music : ∀ c ∈ body, c.command.isMusic = true) (pre suf : List Located) (count : Nat)
    {looped unrolled : List Located}
    (loop : commandsOf looped =
      commandsOf pre ++ [.loop count] ++ commandsOf body ++ [.endLoop] ++ commandsOf suf)
    (copies : commandsOf unrolled =
      commandsOf pre ++ (List.replicate count (commandsOf body)).flatten ++ commandsOf suf) :
    (∀ sheet, Sheet.ofCommands looped = .ok sheet → Sheet.ofCommands unrolled = .ok sheet) ∧
    ∀ sheet, Sheet.ofCommands unrolled = .ok sheet → Sheet.ofCommands looped = .ok sheet ∨
      ∃ line, Sheet.ofCommands looped = .error ⟨line, .loopTooLarge Builder.noteLimit⟩ := by
  -- lines do not matter, so the lists may be put together from parts
  have sameLoop : UpToLine Eq (Sheet.ofCommands looped)
      (Sheet.ofCommands (pre ++ (enclosed 0 count body 0 ++ suf))) :=
    ofCommands_upToLine (by simp [loop])
  have sameCopies : UpToLine Eq (Sheet.ofCommands unrolled)
      (Sheet.ofCommands (pre ++ ((List.replicate count body).flatten ++ suf))) :=
    ofCommands_upToLine (by simp [copies])
  rcases unrolled_at_lines balanced music pre suf 0 count 0 with same | ⟨line, large⟩
  · rw [same] at sameLoop
    have agree := sameLoop.trans sameCopies.symm
    exact ⟨fun sheet ok => agree.eq_ok ok, fun sheet ok => .inl (agree.symm.eq_ok ok)⟩
  · obtain ⟨line', refused⟩ := sameLoop.symm.eq_error large
    exact ⟨fun sheet ok => absurd (refused.symm.trans ok) nofun, fun _ _ => .inr ⟨line', refused⟩⟩

/-- A row so many times, and another one. -/
def verse : Passage :=
  .loop 4 2 (.single ⟨5, .notes [⟨[.ofNat 440], ⟨.quarter, false⟩⟩]⟩ ⟨rfl, rfl⟩ .nil) 6
    (.single ⟨7, .notes [⟨[.ofNat 220], ⟨.half, false⟩⟩]⟩ ⟨rfl, rfl⟩ .nil)

/-- What stands before two verses: a row, and a loop that is left open. -/
def upbeat : List Located :=
  [⟨1, .notes [⟨[.ofNat 330], ⟨.whole, false⟩⟩]⟩, ⟨2, .loop 3⟩]

/-- Two verses in a loop, and one after the other, in a loop that is closed behind them. -/
theorem loop_eq_copies_verse :
    ∃ sheet, Sheet.ofCommands (upbeat ++ ⟨3, .loop 2⟩ :: (verse.commands ++
        [⟨8, .endLoop⟩, ⟨9, .endLoop⟩])) = .ok sheet ∧
      Sheet.ofCommands (upbeat ++ (verse.commands ++ (verse.commands ++ [⟨11, .endLoop⟩]))) =
        .ok sheet ∧
      sheet.tracks.map (·.notes.length) = [19] := by
  have read : (Sheet.ofCommands (upbeat ++ ⟨3, .loop 2⟩ :: (verse.commands ++
      [⟨8, .endLoop⟩, ⟨9, .endLoop⟩]))).map (fun sheet => sheet.tracks.map (·.notes.length)) =
      .ok [19] := by
    decide +kernel
  rcases looped : Sheet.ofCommands (upbeat ++ ⟨3, .loop 2⟩ :: (verse.commands ++
      [⟨8, .endLoop⟩, ⟨9, .endLoop⟩])) with e | sheet
  · rw [looped] at read
    cases read
  · rw [looped] at read
    have balanced : Balanced verse.commands := balanced_iff_exists_passage.2 ⟨verse, rfl⟩
    have music : ∀ c ∈ verse.commands, c.command.isMusic = true := by decide
    have copies : commandsOf (upbeat ++ (verse.commands ++ (verse.commands ++ [⟨11, .endLoop⟩]))) =
        commandsOf upbeat ++ (List.replicate 2 (commandsOf verse.commands)).flatten ++
          commandsOf [⟨9, .endLoop⟩] := rfl
    have same := (loop_eq_copies balanced music upbeat [⟨9, .endLoop⟩] 2 rfl copies).1 sheet looped
    exact ⟨sheet, looped, same, Except.ok.inj read⟩

end SongSheet
