/-
SongSheet/Proofs/Sheet/Excerpt.lean

A passage among other commands.

What stands before a passage may leave loops open, to be closed behind it.  The passage then
adds to the innermost of them, or to the active track (`Score.load`, `Score.filled`), and a
passage in a loop of its own is put there as a whole, so many times
(`Score.toOption_run_enclosed`).  It can fail in one way only, with a loop that is too large
(`Builder.cause_of_run`).

The lines of commands decide nothing but the line of an error (`ofCommands_upToLine`).  So
they may be left out of account where two lists of commands are compared: two results are
the same, or are two errors of one cause (`UpToLine`).
-/
import SongSheet.Proofs.Sheet.TrackOrder

namespace SongSheet

open SheetError

/-! ### Results up to lines -/

/-- The same result, or two errors of the same cause. -/
inductive UpToLine {α : Type} (same : α → α → Prop) :
    Except SheetError α → Except SheetError α → Prop
  | ok {a b : α} : same a b → UpToLine same (.ok a) (.ok b)
  | error {cause : Cause} (line line' : Nat) :
      UpToLine same (.error ⟨line, cause⟩) (.error ⟨line', cause⟩)

namespace UpToLine

variable {α β : Type} {same : α → α → Prop} {x y z : Except SheetError α}

theorem refl (x : Except SheetError α) : UpToLine Eq x x := by
  cases x with
  | ok a => exact .ok rfl
  | error e => exact .error e.line e.line

theorem symm (h : UpToLine Eq x y) : UpToLine Eq y x := by
  cases h with
  | ok eq => exact .ok eq.symm
  | error line line' => exact .error line' line

theorem trans (h : UpToLine Eq x y) (k : UpToLine Eq y z) : UpToLine Eq x z := by
  cases h with
  | ok eq => exact eq ▸ k
  | error line line' =>
      cases k with
      | error _ line'' => exact .error line line''

/-- Two things done one after the other. -/
theorem bind {also : β → β → Prop} {f g : α → Except SheetError β} (h : UpToLine same x y)
    (next : ∀ a b, same a b → UpToLine also (f a) (g b)) :
    UpToLine also (x.bind f) (y.bind g) := by
  cases h with
  | ok alike => exact next _ _ alike
  | error line line' => exact .error line line'

/-- Success is success with the same. -/
theorem eq_ok {a : α} (h : UpToLine Eq x y) (ok : x = .ok a) : y = .ok a := by
  cases h with
  | ok eq => rw [← ok, eq]
  | error => cases ok

/-- An error is an error of the same cause. -/
theorem eq_error {line : Nat} {cause : Cause} (h : UpToLine Eq x y)
    (failed : x = .error ⟨line, cause⟩) : ∃ line', y = .error ⟨line', cause⟩ := by
  cases h with
  | ok => cases failed
  | error _ line' =>
      cases failed
      exact ⟨line', rfl⟩

/-- The same where there is no error, and errors of one cause where there is. -/
theorem of_toOption {cause : Cause} (same : x.toOption = y.toOption)
    (left : ∀ e, x = .error e → e.cause = cause) (right : ∀ e, y = .error e → e.cause = cause) :
    UpToLine Eq x y := by
  cases x with
  | ok a =>
      cases y with
      | ok b => exact .ok (Option.some.inj same)
      | error => cases same
  | error e =>
      cases y with
      | ok => cases same
      | error e' =>
          obtain ⟨line, cause'⟩ := e
          obtain ⟨line', cause''⟩ := e'
          obtain rfl : cause' = cause := left _ rfl
          obtain rfl : cause'' = cause' := right _ rfl
          exact .error line line'

end UpToLine

/-! ### Lines -/

/-- Commands without their lines. -/
def commandsOf (cs : List Located) : List Command := cs.map (·.command)

@[simp] theorem commandsOf_nil : commandsOf [] = [] := rfl

@[simp] theorem commandsOf_cons (c : Located) (cs : List Located) :
    commandsOf (c :: cs) = c.command :: commandsOf cs := rfl

@[simp] theorem commandsOf_append (cs ds : List Located) :
    commandsOf (cs ++ ds) = commandsOf cs ++ commandsOf ds := List.map_append

@[simp] theorem commandsOf_flatten (css : List (List Located)) :
    commandsOf css.flatten = (css.map commandsOf).flatten := List.map_flatten

namespace Builder

/-- Two open loops that are the same but for their lines. -/
def LoopAlike (l l' : OpenLoop) : Prop := l.count = l'.count ∧ l.notes = l'.notes

/-- The same but for the lines of the open loops. -/
structure Alike (b b' : Builder) : Prop where
  settings : b.settings = b'.settings
  active : b.active = b'.active
  loops : List.Forall₂ LoopAlike b.loops b'.loops
  tracks : b.tracks = b'.tracks

variable {b b' : Builder}

/-- The same notes are added to alike builders. -/
theorem Alike.append (h : b.Alike b') (line line' : Nat) (notes : List Note) :
    UpToLine Alike (b.append line notes) (b'.append line' notes) := by
  obtain ⟨settings, active, loops, tracks⟩ := b
  obtain ⟨settings', active', loops', tracks'⟩ := b'
  obtain ⟨rfl, rfl, loops, rfl⟩ := h
  cases loops with
  | nil =>
      simp only [Builder.append]
      cases updateTrack active (· ++ notes) tracks with
      | none => exact .error line line'
      | some ts => exact .ok ⟨rfl, rfl, .nil, rfl⟩
  | cons first others =>
      have added : _ ++ notes = _ ++ notes := congrArg (· ++ notes) first.2
      exact .ok ⟨rfl, rfl, .cons ⟨first.1, added⟩ others, rfl⟩

/-- Alike builders have the same target. -/
theorem Alike.target (h : b.Alike b') : b.target = b'.target := by
  obtain ⟨settings, active, loops, tracks⟩ := b
  obtain ⟨settings', active', loops', tracks'⟩ := b'
  obtain ⟨rfl, rfl, loops, rfl⟩ := h
  cases loops with
  | nil => rfl
  | cons first => exact congrArg some first.2

/-- A loop is closed in alike builders. -/
theorem Alike.closeLoop (h : b.Alike b') (line line' : Nat) :
    UpToLine Alike (b.closeLoop line) (b'.closeLoop line') := by
  obtain ⟨settings, active, loops, tracks⟩ := b
  obtain ⟨settings', active', loops', tracks'⟩ := b'
  obtain ⟨rfl, rfl, loops, rfl⟩ := h
  cases loops with
  | nil => exact .error line line'
  | @cons l l' ls ls' first others =>
      -- what is behind the loops is alike, and so they are too large at the same time
      have behind : Alike ⟨settings, active, ls, tracks⟩ ⟨settings, active, ls', tracks⟩ :=
        ⟨rfl, rfl, others, rfl⟩
      simp only [Builder.closeLoop, behind.target, first.1, first.2]
      split
      · exact .error line line'
      · split
        · exact behind.append line line' _
        · exact .error l.line l'.line

/-- A command does the same to alike builders, whatever its line. -/
theorem Alike.step (h : b.Alike b') {c d : Located} (same : c.command = d.command) :
    UpToLine Alike (b.step c) (b'.step d) := by
  obtain ⟨line, command⟩ := c
  obtain ⟨line', command'⟩ := d
  obtain rfl : command = command' := same
  cases command with
  | bpm | pan | volume | type =>
      exact .ok ⟨by rw [h.settings], h.active, h.loops, h.tracks⟩
  | track name => exact .ok ⟨h.settings, rfl, h.loops, congrArg (declare name) h.tracks⟩
  | loop count => exact .ok ⟨h.settings, h.active, .cons ⟨rfl, rfl⟩ h.loops, h.tracks⟩
  | endLoop => exact h.closeLoop line line'
  | notes cells =>
      simp only [Builder.step, h.settings]
      exact h.append line line' _

/-- And so does a list of commands. -/
theorem Alike.run {cs ds : List Located} (h : b.Alike b') (same : commandsOf cs = commandsOf ds) :
    UpToLine Alike (b.run cs) (b'.run ds) := by
  induction cs generalizing b b' ds with
  | nil =>
      obtain rfl : ds = [] := List.map_eq_nil_iff.1 same.symm
      exact .ok h
  | cons c cs ih =>
      obtain ⟨d, ds, rfl, head, rest⟩ := List.map_eq_cons_iff.1 same.symm
      rw [run_cons, run_cons]
      exact (h.step head.symm).bind fun _ _ alike => ih alike rest.symm

/-- The sheets of alike builders are the same. -/
theorem Alike.finish (h : b.Alike b') : UpToLine Eq b.finish b'.finish := by
  obtain ⟨settings, active, loops, tracks⟩ := b
  obtain ⟨settings', active', loops', tracks'⟩ := b'
  obtain ⟨rfl, rfl, loops, rfl⟩ := h
  cases loops with
  | nil => exact .ok rfl
  | @cons l l' => exact .error l.line l'.line

end Builder

/-- Lines decide nothing but the line of an error. -/
theorem ofCommands_upToLine {cs ds : List Located} (same : commandsOf cs = commandsOf ds) :
    UpToLine Eq (Sheet.ofCommands cs) (Sheet.ofCommands ds) := by
  have start : Builder.initial.Alike Builder.initial := ⟨rfl, rfl, .nil, rfl⟩
  exact (start.run same).bind fun _ _ alike => alike.finish

/-! ### Before, between and behind -/

/-- Commands in a loop of their own, with the lines on which it is opened and closed. -/
def enclosed (line count : Nat) (cs : List Located) (last : Nat) : List Located :=
  ⟨line, .loop count⟩ :: cs ++ [⟨last, .endLoop⟩]

@[simp] theorem commandsOf_enclosed (line count : Nat) (cs : List Located) (last : Nat) :
    commandsOf (enclosed line count cs last) = .loop count :: commandsOf cs ++ [.endLoop] := by
  simp [enclosed]

namespace Builder

variable {b : Builder} {pre suf cs ds : List Located}

/-- Commands before and behind a part of a list. -/
theorem ofCommands_append (run : initial.run pre = .ok b) (cs suf : List Located) :
    Sheet.ofCommands (pre ++ (cs ++ suf)) =
      (b.run cs).bind fun b' => (b'.run suf).bind (·.finish) := by
  show (initial.run (pre ++ (cs ++ suf))).bind (·.finish) = _
  rw [run_append, run]
  show (b.run (cs ++ suf)).bind (·.finish) = _
  rw [run_append]
  cases b.run cs <;> rfl

/-- What fails before a part, fails whatever the part is. -/
theorem ofCommands_of_error {e : SheetError} (failed : initial.run pre = .error e)
    (rest : List Located) : Sheet.ofCommands (pre ++ rest) = .error e := by
  show (initial.run (pre ++ rest)).bind (·.finish) = _
  rw [run_append, failed]
  rfl

/-- Balanced commands fail at a loop that is too large, and not otherwise. -/
theorem cause_of_run {e : SheetError} (run : initial.run pre = .ok b) (balanced : Balanced cs)
    (failed : b.run cs = .error e) : e.cause = .loopTooLarge noteLimit := by
  obtain ⟨before, c, after, b', rfl, ran, fault⟩ := exists_fault failed
  have reached : initial.run (pre ++ before) = .ok b' := by
    rw [run_append, run]
    exact ran
  obtain ⟨ends, ⟨all, -⟩ | ⟨-, line, -, -, -, -, rfl⟩⟩ := fault_of_step reached fault
  · -- all loops would be closed before the end that fails, and the list closes one more
    obtain ⟨line, command⟩ := c
    obtain rfl : command = .endLoop := ends
    have within := balanced.1 (before ++ [⟨line, .endLoop⟩]) ⟨after, by simp⟩
    have outside := all.1 pre (List.prefix_append ..)
    have closes := all.2
    rw [closed_append, opened_append, closed_endLoop, opened_endLoop] at within
    rw [closed_append, opened_append] at closes
    rw [show closed [] = 0 from rfl, show opened [] = 0 from rfl] at within
    omega
  · rfl

/-- Balanced commands give what they give, or a loop is too large. -/
theorem run_eq_of_toOption (run : initial.run pre = .ok b) (balanced : Balanced cs) :
    match (b.run cs).toOption with
    | some b' => b.run cs = .ok b'
    | none => ∃ line, b.run cs = .error ⟨line, .loopTooLarge noteLimit⟩ := by
  rcases result : b.run cs with e | b'
  · exact ⟨e.line, by rw [← cause_of_run run balanced result]⟩
  · rfl

end Builder

namespace Score

variable {s : Settings} {x : Score} {ls : List OpenLoop}

/-- A passage in a loop of its own is added to the target as a whole. -/
theorem toOption_run_enclosed (p : Passage) (line count last : Nat) :
    ((x.builder s ls).run (enclosed line count p.commands last)).toOption =
      if p.fitsIn s 0 && Passage.mayClose count (p.expand s)
          ((x.enterAll p.entered).load ls).length then
        some ((x.enterAll p.entered).filled (p.settings s)
          (List.replicate count (p.expand s)).flatten ls)
      else none :=
  p.toOption_run_loop line count last []

end Score

end SongSheet
