/-
SongSheet/Proofs/Sheet/TrackOrder.lean

The order of the tracks of a sheet.

A builder finds its tracks by name and adds a track at the end of its list.  So the names
that it holds are those that its commands enter, each at the place where it is entered for
the first time, behind that of the first track (`Builder.names_of_run`).  They are distinct,
and a reached builder is one that holds a score (`Builder.exists_score`): declaring a track
again empties it where it stands, and there is always a target.
-/
import SongSheet.Proofs.Sheet.Reading
import SongSheet.Proofs.Sheet.Refusal

namespace SongSheet

open SheetError

/-! ### First occurrences -/

section FirstOccurrences

variable {α : Type} [BEq α] [LawfulBEq α]

/-- An element at the end is a first occurrence, or is dropped. -/
theorem eraseDups_concat (xs : List α) (x : α) :
    (xs ++ [x]).eraseDups = if x ∈ xs.eraseDups then xs.eraseDups else xs.eraseDups ++ [x] := by
  rw [List.eraseDups_append]
  by_cases h : x ∈ xs
  · rw [if_pos (List.mem_eraseDups.2 h)]
    simp [List.removeAll, h]
  · rw [if_neg (fun there => h (List.mem_eraseDups.1 there))]
    simp [List.removeAll, h, List.eraseDups_cons]

/-- First occurrences are distinct. -/
theorem nodup_eraseDups (xs : List α) : xs.eraseDups.Nodup := by
  induction xs using List.reverseRecOn with
  | nil => exact List.nodup_nil
  | append_singleton xs x ih =>
      rw [eraseDups_concat]
      split
      case isTrue => exact ih
      case isFalse new =>
        refine List.nodup_append.2 ⟨ih, List.nodup_singleton x, ?_⟩
        rintro a ha b hb rfl
        exact new (List.mem_singleton.1 hb ▸ ha)

end FirstOccurrences

/-! ### Names -/

/-- The tracks that commands enter, in order. -/
def enteredBy (cs : List Located) : List String := cs.flatMap (·.command.entered)

theorem enteredBy_concat (cs : List Located) (c : Located) :
    enteredBy (cs ++ [c]) = enteredBy cs ++ c.command.entered := by
  simp [enteredBy]

namespace Builder

variable {b b' : Builder} {cs : List Located}

/-- The names of the tracks, in order. -/
def names (b : Builder) : List String := b.tracks.map (·.name)

/-- A new name is the last one. -/
theorem names_declare (name : String) (ts : List Track) :
    (declare name ts).map (·.name) =
      if name ∈ ts.map (·.name) then ts.map (·.name) else ts.map (·.name) ++ [name] := by
  induction ts with
  | nil => rfl
  | cons t ts ih =>
      rw [declare, List.map_cons]
      by_cases h : t.name = name
      · rw [if_pos h, if_pos (List.mem_cons.2 (.inl h.symm)), List.map_cons]
      · rw [if_neg h, List.map_cons, ih]
        by_cases later : name ∈ ts.map (·.name)
        · rw [if_pos later, if_pos (List.mem_cons_of_mem _ later)]
        · have new : name ∉ t.name :: ts.map (·.name) := fun here =>
            (List.mem_cons.1 here).elim (fun eq => h eq.symm) later
          rw [if_neg later, if_neg new, List.cons_append]

/-- Notes are added to a track that is there. -/
theorem names_append {line : Nat} {notes : List Note} (declared : b.IsDeclared)
    (added : b.append line notes = .ok b') : b'.names = b.names := by
  obtain ⟨settings, active, loops, tracks⟩ := b
  cases loops with
  | cons l ls =>
      cases added
      rfl
  | nil =>
      obtain ⟨t, found⟩ := declared.exists_find?
      obtain ⟨ts, updated, same, -⟩ := updateTrack_of_find? (g := (· ++ notes)) found
      simp only [append, updated] at added
      cases added
      exact same

/-- A loop is closed onto a track that is there. -/
theorem names_closeLoop {line : Nat} (declared : b.IsDeclared)
    (closed : b.closeLoop line = .ok b') : b'.names = b.names := by
  rcases loops : b.loops with - | ⟨l, ls⟩
  · rw [closeLoop, loops] at closed
    cases closed
  · have outer : ({ b with loops := ls } : Builder).IsDeclared := declared
    obtain ⟨ns, target⟩ := outer.exists_target
    rw [closeLoop_of_target line loops target] at closed
    split at closed
    case isTrue => exact names_append (b := { b with loops := ls }) outer closed
    case isFalse => cases closed

/-- Only a new name changes the names. -/
theorem names_step {c : Located} (declared : b.IsDeclared) (h : b.step c = .ok b') :
    (c.command.entered = [] ∧ b'.names = b.names) ∨ ∃ name, c.command.entered = [name] ∧
      b'.names = if name ∈ b.names then b.names else b.names ++ [name] := by
  obtain ⟨line, command⟩ := c
  cases command with
  | bpm | pan | volume | type | loop =>
      cases h
      exact .inl ⟨rfl, rfl⟩
  | notes cells => exact .inl ⟨rfl, names_append declared h⟩
  | endLoop => exact .inl ⟨rfl, names_closeLoop declared h⟩
  | track name =>
      cases h
      exact .inr ⟨name, rfl, names_declare name b.tracks⟩

/-- A reached builder has the names that its commands enter, in the order in which they are
entered first. -/
theorem names_of_run (run : initial.run cs = .ok b) :
    b.IsDeclared ∧ b.names = (Sheet.defaultTrack :: enteredBy cs).eraseDups := by
  refine of_steps (P := fun cs b => b.names = (Sheet.defaultTrack :: enteredBy cs).eraseDups)
    rfl ?_ run
  intro cs c b b' declared ordered step
  rw [enteredBy_concat, ← List.cons_append]
  rcases names_step declared step with ⟨none, same⟩ | ⟨name, entered, renamed⟩
  · rw [none, List.append_nil, same, ordered]
  · rw [entered, eraseDups_concat, ← ordered, renamed]

/-- A reached builder holds a score. -/
theorem exists_score (run : initial.run cs = .ok b) :
    ∃ x : Score, b = x.builder b.settings b.loops := by
  obtain ⟨declared, ordered⟩ := names_of_run run
  have distinct : b.names.Nodup := ordered ▸ nodup_eraseDups _
  exact ⟨⟨b.active, b.tracks, distinct, declared⟩, rfl⟩

/-- The first track is there before any command. -/
theorem head?_names (run : initial.run cs = .ok b) :
    b.names.head? = some Sheet.defaultTrack := by
  rw [(names_of_run run).2, List.eraseDups_cons]
  rfl

/-- A declaration empties the track with the name, or adds one at the end. -/
theorem step_track_of_run (run : initial.run cs = .ok b) (line : Nat) (name : String) :
    b.step ⟨line, .track name⟩ = .ok { b with
      active := name
      tracks :=
        if name ∈ b.names then b.tracks.map fun t => if t.name = name then .empty t.name else t
        else b.tracks ++ [.empty name] } := by
  obtain ⟨x, eq⟩ := exists_score run
  rw [eq]
  exact x.step_track b.settings b.loops line name

/-- No command misses its track. -/
theorem step_ne_undeclared (run : initial.run cs = .ok b) (c : Located) (line : Nat)
    (name : String) : b.step c ≠ .error ⟨line, .undeclaredTrack name⟩ := by
  intro failed
  obtain ⟨-, ⟨-, eq⟩ | ⟨outer, line', count, body, -, -, eq⟩⟩ := fault_of_step run failed
  · cases eq
  · cases eq

end Builder

/-! ### Tracks on every run -/

/-- The names of the tracks are distinct and in the order of their first declaration, behind
the first track, whatever commands lead to a builder.  The active track is one of them, and
so there is a target, whatever loops are open.  Declaring a track again empties it where it
stands; all other tracks and the open loops stay as they are.  So neither a command nor a
whole list of them fails for want of a track. -/
theorem tracks_in_order_of_declaration (cs : List Located) :
    (∀ b, Builder.initial.run cs = .ok b →
      b.names = (Sheet.defaultTrack :: enteredBy cs).eraseDups ∧
      b.names.Nodup ∧
      b.names.head? = some Sheet.defaultTrack ∧
      b.active ∈ b.names ∧
      (∀ loops, ({ b with loops := loops } : Builder).target ≠ none) ∧
      (∀ line name, b.step ⟨line, .track name⟩ = .ok { b with
        active := name
        tracks :=
          if name ∈ b.names then b.tracks.map fun t => if t.name = name then .empty t.name else t
          else b.tracks ++ [.empty name] }) ∧
      ∀ c line name, b.step c ≠ .error ⟨line, .undeclaredTrack name⟩) ∧
    ∀ line name, Sheet.ofCommands cs ≠ .error ⟨line, .undeclaredTrack name⟩ := by
  refine ⟨fun b run => ?_, fun line name failed => ?_⟩
  · obtain ⟨declared, ordered⟩ := Builder.names_of_run run
    refine ⟨ordered, ordered ▸ nodup_eraseDups _, Builder.head?_names run, declared, ?_,
      Builder.step_track_of_run run, Builder.step_ne_undeclared run⟩
    intro loops missing
    have outer : ({ b with loops := loops } : Builder).IsDeclared := declared
    obtain ⟨ns, target⟩ := outer.exists_target
    rw [missing] at target
    cases target
  · -- a list of commands fails with the error of a command, or with a loop left open
    obtain ⟨⟨-, before, c, after, b, -, run, step, -⟩ | ⟨-, before, line', count, after, -, eq, -⟩,
      -⟩ := Builder.fault_of_ofCommands failed
    · exact Builder.step_ne_undeclared run c line name step
    · cases eq

/-- Two tracks, the first without a name, and a loop with notes of its own. -/
def unnamed : List Located :=
  [⟨1, .track ""⟩, ⟨2, .notes [⟨[], .whole, false⟩]⟩, ⟨3, .track "b"⟩, ⟨4, .loop 2⟩,
    ⟨5, .notes [⟨[], .half, false⟩]⟩]

/-- The track without a name is emptied from within the loop. -/
theorem tracks_in_order_of_declaration_unnamed :
    ∃ b, Builder.initial.run unnamed = .ok b ∧ b.names = ["default", "", "b"] ∧
      b.loops.map (·.notes.length) = [1] ∧
      b.step ⟨6, .track ""⟩ = .ok { b with
        active := ""
        tracks := b.tracks.map fun t => if t.name = "" then .empty t.name else t } := by
  have looped : ((Builder.initial.run unnamed).map fun b => b.loops.map (·.notes.length)) =
      .ok [1] := by
    decide +kernel
  rcases run : Builder.initial.run unnamed with e | b
  · rw [run] at looped
    cases looped
  · rw [run] at looped
    obtain ⟨ordered, -, -, -, -, entered, -⟩ := (tracks_in_order_of_declaration unnamed).1 b run
    have names : b.names = ["default", "", "b"] := by
      rw [ordered]
      decide
    refine ⟨b, rfl, names, Except.ok.inj looped, ?_⟩
    rw [entered, if_pos (by rw [names]; decide)]

end SongSheet
