/-
SongSheet/Proofs/Sheet/Passage.lean

Passages: lists of commands with their loops paired.

The commands of a sheet are a flat list in which loops are opened and closed.  Where
each loop is closed, and nothing is closed that was not opened (`Balanced`), the list is
that of a tree, a passage (`balanced_iff_exists_passage`).  Going from left to right
with `d` loops open, what is ahead is `d` passages with a closing command after each,
and one more (`Unwinds`).
-/
import SongSheet.Builder

namespace SongSheet

/-! ### Brackets -/

namespace Command

/-- Opens a loop. -/
def opens : Command → Bool
  | loop _ => true
  | _ => false

/-- Closes a loop. -/
def closes : Command → Bool
  | endLoop => true
  | _ => false

/-- Has nothing to do with loops. -/
def IsPlain (c : Command) : Prop := c.opens = false ∧ c.closes = false

end Command

/-- How many loops are opened. -/
def opened (cs : List Located) : Nat := cs.countP (·.command.opens)

/-- How many loops are closed. -/
def closed (cs : List Located) : Nat := cs.countP (·.command.closes)

@[simp] theorem opened_append (cs ds : List Located) :
    opened (cs ++ ds) = opened cs + opened ds :=
  List.countP_append

@[simp] theorem closed_append (cs ds : List Located) :
    closed (cs ++ ds) = closed cs + closed ds :=
  List.countP_append

/-- No part from the start closes more than it opens, and all that is opened is closed. -/
def Balanced (cs : List Located) : Prop :=
  (∀ ds, ds <+: cs → closed ds ≤ opened ds) ∧ closed cs = opened cs

/-- With `d` loops open, nothing is closed that is not open. -/
def ClosesWithin (d : Nat) (cs : List Located) : Prop :=
  ∀ ds, ds <+: cs → closed ds ≤ opened ds + d

variable {d : Nat} {c : Located} {cs : List Located}

theorem opened_cons_of_plain (plain : c.command.IsPlain) : opened (c :: cs) = opened cs :=
  List.countP_cons_of_neg (by rw [plain.1]; nofun)

theorem closed_cons_of_plain (plain : c.command.IsPlain) : closed (c :: cs) = closed cs :=
  List.countP_cons_of_neg (by rw [plain.2]; nofun)

@[simp] theorem opened_loop (line count : Nat) :
    opened (⟨line, .loop count⟩ :: cs) = opened cs + 1 :=
  List.countP_cons_of_pos rfl

@[simp] theorem closed_loop (line count : Nat) :
    closed (⟨line, .loop count⟩ :: cs) = closed cs :=
  List.countP_cons_of_neg nofun

@[simp] theorem opened_endLoop (line : Nat) : opened (⟨line, .endLoop⟩ :: cs) = opened cs :=
  List.countP_cons_of_neg nofun

@[simp] theorem closed_endLoop (line : Nat) : closed (⟨line, .endLoop⟩ :: cs) = closed cs + 1 :=
  List.countP_cons_of_pos rfl

/-- A first command, and the parts that start with it. -/
theorem closesWithin_cons :
    ClosesWithin d (c :: cs) ↔ ∀ ds, ds <+: cs → closed (c :: ds) ≤ opened (c :: ds) + d := by
  constructor
  · intro h ds hds
    exact h (c :: ds) (List.cons_prefix_cons.2 ⟨rfl, hds⟩)
  · intro h ds hds
    rcases List.prefix_cons_iff.1 hds with rfl | ⟨t, rfl, ht⟩
    · exact Nat.zero_le _
    · exact h t ht

theorem closesWithin_plain (plain : c.command.IsPlain) :
    ClosesWithin d (c :: cs) ↔ ClosesWithin d cs := by
  rw [closesWithin_cons]
  refine forall₂_congr fun ds _ => ?_
  rw [opened_cons_of_plain plain, closed_cons_of_plain plain]

theorem closesWithin_loop (line count : Nat) :
    ClosesWithin d (⟨line, .loop count⟩ :: cs) ↔ ClosesWithin (d + 1) cs := by
  rw [closesWithin_cons]
  refine forall₂_congr fun ds _ => ?_
  rw [opened_loop, closed_loop]
  omega

theorem closesWithin_endLoop (line : Nat) :
    ClosesWithin (d + 1) (⟨line, .endLoop⟩ :: cs) ↔ ClosesWithin d cs := by
  rw [closesWithin_cons]
  refine forall₂_congr fun ds _ => ?_
  rw [opened_endLoop, closed_endLoop]
  omega

/-- With no loop open, none can be closed. -/
theorem not_closesWithin_endLoop (line : Nat) :
    ¬ ClosesWithin 0 (⟨line, .endLoop⟩ :: cs) := by
  intro h
  have first := closesWithin_cons.1 h [] List.nil_prefix
  rw [opened_endLoop, closed_endLoop] at first
  exact absurd first (Nat.not_succ_le_zero _)

/-- A command opens a loop, closes one, or is plain. -/
theorem Located.cases (c : Located) :
    (∃ line count, c = ⟨line, .loop count⟩) ∨ (∃ line, c = ⟨line, .endLoop⟩) ∨
      c.command.IsPlain := by
  obtain ⟨line, command⟩ := c
  cases command with
  | loop count => exact .inl ⟨line, count, rfl⟩
  | endLoop => exact .inr (.inl ⟨line, rfl⟩)
  | bpm | pan | volume | type | track | notes => exact .inr (.inr ⟨rfl, rfl⟩)

/-! ### Passages -/

/-- Commands with their loops paired. -/
inductive Passage where
  | nil
  /-- A command that has nothing to do with loops, and what follows it. -/
  | single (c : Located) (plain : c.command.IsPlain) (rest : Passage)
  /-- A loop with its count and the lines on which it is opened and closed, and what
  follows it. -/
  | loop (line count : Nat) (body : Passage) (closed : Nat) (rest : Passage)

namespace Passage

/-- The commands of a passage. -/
def commands : Passage → List Located
  | nil => []
  | single c _ rest => c :: rest.commands
  | loop line count body closed rest =>
      ⟨line, .loop count⟩ :: (body.commands ++ ⟨closed, .endLoop⟩ :: rest.commands)

/-- A passage closes all it opens. -/
theorem closed_commands (p : Passage) : closed p.commands = opened p.commands := by
  induction p with
  | nil => rfl
  | single c plain rest ih =>
      rw [commands, closed_cons_of_plain plain, opened_cons_of_plain plain, ih]
  | loop line count body closed rest ihBody ihRest =>
      simp only [commands, closed_loop, opened_loop, closed_append, opened_append,
        closed_endLoop, opened_endLoop, ihBody, ihRest]
      omega

/-- A passage closes nothing that is open before it. -/
theorem closesWithin_commands_append (p : Passage) (d : Nat) (cs : List Located) :
    ClosesWithin d (p.commands ++ cs) ↔ ClosesWithin d cs := by
  induction p generalizing d cs with
  | nil => exact Iff.rfl
  | single c plain rest ih =>
      rw [commands, List.cons_append, closesWithin_plain plain, ih]
  | loop line count body closed rest ihBody ihRest =>
      rw [commands, List.cons_append, closesWithin_loop, List.append_assoc, ihBody,
        List.cons_append, closesWithin_endLoop, ihRest]

end Passage

/-! ### Pairing -/

/-- Commands that are passages with a closing command after each but the last, `d` of them. -/
def Unwinds : Nat → List Located → Prop
  | 0, cs => ∃ p : Passage, p.commands = cs
  | d + 1, cs => ∃ (p : Passage) (line : Nat) (rest : List Located),
      cs = p.commands ++ ⟨line, .endLoop⟩ :: rest ∧ Unwinds d rest

/-- What is put before all passages can be put before the first one. -/
theorem Unwinds.before {first : List Located} (grow : Passage → Passage)
    (grown : ∀ p, (grow p).commands = first ++ p.commands) (h : Unwinds d cs) :
    Unwinds d (first ++ cs) := by
  cases d with
  | zero =>
      obtain ⟨p, rfl⟩ := h
      exact ⟨grow p, grown p⟩
  | succ d =>
      obtain ⟨p, line, rest, rfl, unwinds⟩ := h
      refine ⟨grow p, line, rest, ?_, unwinds⟩
      rw [grown, List.append_assoc]

/-- Commands that close all loops, `d` of them opened before, and no others. -/
theorem unwinds_of_closesWithin (within : ClosesWithin d cs) (all : closed cs = opened cs + d) :
    Unwinds d cs := by
  induction cs generalizing d with
  | nil =>
      obtain rfl : d = 0 := by
        rw [show closed [] = 0 from rfl] at all
        omega
      exact ⟨.nil, rfl⟩
  | cons c cs ih =>
      rcases c.cases with ⟨line, count, rfl⟩ | ⟨line, rfl⟩ | plain
      · -- the new loop ends where the first passage ahead ends
        rw [closed_loop, opened_loop] at all
        obtain ⟨body, last, rest, rfl, unwinds⟩ :=
          ih ((closesWithin_loop line count).1 within) (by omega)
        rw [← List.cons_append, List.append_cons]
        apply unwinds.before (.loop line count body last)
        intro p
        simp [Passage.commands]
      · -- the first passage ahead is empty
        cases d with
        | zero => exact absurd within (not_closesWithin_endLoop line)
        | succ d =>
            rw [closed_endLoop, opened_endLoop] at all
            exact ⟨.nil, line, cs, rfl, ih ((closesWithin_endLoop line).1 within) (by omega)⟩
      · -- the first passage ahead starts with the command
        rw [closed_cons_of_plain plain, opened_cons_of_plain plain] at all
        have unwinds := ih ((closesWithin_plain plain).1 within) all
        show Unwinds d ([c] ++ cs)
        exact unwinds.before (.single c plain) fun p => rfl

/-- Balanced commands are those of a passage. -/
theorem balanced_iff_exists_passage : Balanced cs ↔ ∃ p : Passage, p.commands = cs := by
  constructor
  · intro ⟨within, all⟩
    exact unwinds_of_closesWithin (d := 0) within all
  · rintro ⟨p, rfl⟩
    refine ⟨?_, p.closed_commands⟩
    have within : ClosesWithin 0 (p.commands ++ []) := by
      rw [p.closesWithin_commands_append]
      intro ds hds
      rw [List.prefix_nil.1 hds]
      exact Nat.zero_le _
    rw [List.append_nil] at within
    exact within

/-! ### Balanced parts -/

theorem balanced_nil : Balanced [] := balanced_iff_exists_passage.2 ⟨.nil, rfl⟩

theorem balanced_singleton (plain : c.command.IsPlain) : Balanced [c] :=
  balanced_iff_exists_passage.2 ⟨.single c plain .nil, rfl⟩

/-- Balanced commands can follow each other. -/
theorem Balanced.append {ds : List Located} (h : Balanced cs) (k : Balanced ds) :
    Balanced (cs ++ ds) := by
  obtain ⟨p, rfl⟩ := balanced_iff_exists_passage.1 h
  refine ⟨(p.closesWithin_commands_append 0 ds).2 k.1, ?_⟩
  rw [closed_append, opened_append, p.closed_commands, k.2]

/-- Balanced commands can be put into a loop. -/
theorem Balanced.enclosed (h : Balanced cs) (line count last : Nat) :
    Balanced (⟨line, .loop count⟩ :: cs ++ [⟨last, .endLoop⟩]) := by
  obtain ⟨p, rfl⟩ := balanced_iff_exists_passage.1 h
  exact balanced_iff_exists_passage.2 ⟨.loop line count p last .nil, rfl⟩

end SongSheet
