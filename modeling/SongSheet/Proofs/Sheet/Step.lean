/-
SongSheet/Proofs/Sheet/Step.lean

What one command can do to a builder.

The active track of a builder that is reached is declared (`Builder.IsDeclared`), and so
there is a target at any time, and rows are always taken.  A command then does one of seven
things (`Builder.Does`, `IsDeclared.does_step`); whatever is added, is added to the target, and
nothing else that is stored changes (`Builder.Adds`).  What every command preserves holds of
every builder that is reached (`Builder.of_run`).
-/
import Mathlib.Data.List.Induction
import SongSheet.Proofs.Sheet.Passage

namespace SongSheet

/-- If two things done one after the other work, both do. -/
theorem exists_of_bind {ε α β : Type} {x : Except ε α} {f : α → Except ε β} {b : β}
    (h : (x >>= f) = .ok b) : ∃ a, x = .ok a ∧ f a = .ok b := by
  cases x with
  | error => cases h
  | ok a => exact ⟨a, rfl, h⟩

/-! ### What is read off a command -/

/-- The settings after a command. -/
def Settings.after (s : Settings) : Command → Settings
  | .bpm n => { s with bpm := n }
  | .pan x => { s with pan := Settings.clampPan x }
  | .volume x => { s with volume := Settings.clampVolume x }
  | .type t => { s with timbre := t }
  | _ => s

/-- The notes of a command: those of its cells, if it is a row. -/
def Settings.row (s : Settings) : Command → List Note
  | .notes cells => cells.map s.note
  | _ => []

/-- The command that opened a loop. -/
def OpenLoop.opening (l : OpenLoop) : Located := ⟨l.line, .loop l.count⟩

namespace Builder

open SheetError

variable {b b' : Builder} {name : String} {g : List Note → List Note} {notes : List Note}
  {t : Track} {ts : List Track}

/-! ### Tracks with a name -/

/-- The first track with a name is changed, and no other. -/
theorem updateTrack_of_find? (found : ts.find? (·.name = name) = some t) :
    ∃ ts', updateTrack name g ts = some ts' ∧ ts'.map (·.name) = ts.map (·.name) ∧
      ts'.find? (·.name = name) = some ⟨t.name, g t.notes⟩ ∧
      ∀ u ∈ ts', u ∈ ts ∨ u = ⟨t.name, g t.notes⟩ := by
  induction ts with
  | nil => cases found
  | cons u ts ih =>
      rw [updateTrack]
      by_cases h : u.name = name
      · obtain rfl : u = t := by simpa [h] using found
        refine ⟨_, if_pos h, by simp, by simp [h], fun v hv => ?_⟩
        exact (List.mem_cons.1 hv).elim .inr fun hv => .inl (List.mem_cons_of_mem u hv)
      · rw [List.find?_cons_of_neg (by simpa using h)] at found
        obtain ⟨ts', updated, names, first, others⟩ := ih found
        refine ⟨u :: ts', by rw [if_neg h, updated]; rfl, by simp [names], ?_, fun v hv => ?_⟩
        · rw [List.find?_cons_of_neg (by simpa using h), first]
        · rcases List.mem_cons.1 hv with rfl | hv
          · exact .inl List.mem_cons_self
          · exact (others v hv).imp_left (List.mem_cons_of_mem u)

/-- A track that is declared is there, and has no notes. -/
theorem mem_declare (name : String) (ts : List Track) :
    name ∈ (declare name ts).map (·.name) ∧ ∀ u ∈ declare name ts, u ∈ ts ∨ u.notes = [] := by
  induction ts with
  | nil => simp [declare, Track.empty]
  | cons t ts ih =>
      obtain ⟨there, others⟩ := ih
      rw [declare]
      split
      case isTrue h =>
        refine ⟨List.mem_cons.2 (.inl h.symm), fun u hu => ?_⟩
        rcases List.mem_cons.1 hu with rfl | hu
        · exact .inr rfl
        · exact .inl (List.mem_cons_of_mem t hu)
      case isFalse =>
        refine ⟨List.mem_cons_of_mem _ there, fun u hu => ?_⟩
        rcases List.mem_cons.1 hu with rfl | hu
        · exact .inl List.mem_cons_self
        · exact (others u hu).imp_left (List.mem_cons_of_mem t)

/-! ### The target -/

/-- The active track is declared. -/
def IsDeclared (b : Builder) : Prop := b.active ∈ b.tracks.map (·.name)

/-- All lists of notes: those of the open loops and those of the tracks. -/
def stores (b : Builder) : List (List Note) := b.loops.map (·.notes) ++ b.tracks.map (·.notes)

/-- The commands that opened the loops, the innermost first. -/
def openings (b : Builder) : List Located := b.loops.map (·.opening)

/-- Notes are added to the target, and nothing else changes. -/
structure Adds (b : Builder) (notes : List Note) (b' : Builder) : Prop where
  settings : b'.settings = b.settings
  openings : b'.openings = b.openings
  declared : b'.IsDeclared
  target : ∃ ns, b.target = some ns ∧ b'.target = some (ns ++ notes) ∧
    ∀ store ∈ b'.stores, store ∈ b.stores ∨ store = ns ++ notes

theorem IsDeclared.exists_find? (h : b.IsDeclared) :
    ∃ t, b.tracks.find? (·.name = b.active) = some t := by
  obtain ⟨t, ht, eq⟩ := List.mem_map.1 h
  exact Option.isSome_iff_exists.1 (List.find?_isSome.2 ⟨t, ht, decide_eq_true eq⟩)

/-- There is a target. -/
theorem IsDeclared.exists_target (h : b.IsDeclared) : ∃ ns, b.target = some ns := by
  rw [target]
  split
  case h_1 l ls loops => exact ⟨l.notes, rfl⟩
  case h_2 =>
    obtain ⟨t, found⟩ := h.exists_find?
    exact ⟨t.notes, by rw [found]; rfl⟩

/-- The target is stored. -/
theorem mem_stores_of_target (h : b.target = some notes) : notes ∈ b.stores := by
  rw [target] at h
  split at h
  case h_1 l ls loops =>
    cases h
    exact List.mem_append_left _ (List.mem_map_of_mem (loops ▸ List.mem_cons_self))
  case h_2 =>
    obtain ⟨t, found, rfl⟩ := Option.map_eq_some_iff.1 h
    exact List.mem_append_right _ (List.mem_map_of_mem (List.mem_of_find?_eq_some found))

/-- What is stored behind the innermost loop is stored with it. -/
theorem mem_stores_of_cons {l : OpenLoop} {ls : List OpenLoop} (loops : b.loops = l :: ls)
    {store : List Note} (h : store ∈ ({ b with loops := ls } : Builder).stores) :
    store ∈ b.stores := by
  rw [stores, loops]
  exact List.mem_cons_of_mem l.notes h

/-- A loop is closed onto the target behind it, unless that becomes too large. -/
theorem closeLoop_of_target {k : OpenLoop} {ls : List OpenLoop} {notes : List Note}
    (line : Nat) (loops : b.loops = k :: ls)
    (target : ({ b with loops := ls } : Builder).target = some notes) :
    b.closeLoop line =
      if k.notes.length * k.count + notes.length ≤ noteLimit then
        ({ b with loops := ls } : Builder).append line (repeated k.count k.notes)
      else .error ⟨k.line, .loopTooLarge noteLimit⟩ := by
  simp only [closeLoop, loops, target]

/-- Notes can be added. -/
theorem IsDeclared.exists_append (h : b.IsDeclared) (line : Nat) (notes : List Note) :
    ∃ b', b.append line notes = .ok b' ∧ b.Adds notes b' := by
  obtain ⟨settings, active, loops, tracks⟩ := b
  cases loops with
  | cons l ls =>
      refine ⟨_, rfl, rfl, rfl, h, l.notes, rfl, rfl, fun store hs => ?_⟩
      rcases List.mem_cons.1 hs with rfl | hs
      · exact .inr rfl
      · exact .inl (List.mem_cons_of_mem _ hs)
  | nil =>
      obtain ⟨t, found⟩ := h.exists_find?
      obtain ⟨ts, updated, names, first, others⟩ := updateTrack_of_find? (g := (· ++ notes)) found
      refine ⟨⟨settings, active, [], ts⟩, ?_, rfl, rfl, ?_, t.notes, ?_, ?_, fun store hs => ?_⟩
      · simp only [append, updated]
      · rw [IsDeclared, names]
        exact h
      · rw [target, found]
        rfl
      · rw [target, first]
        rfl
      · obtain ⟨u, hu, rfl⟩ := List.mem_map.1 hs
        rcases others u hu with old | rfl
        · exact .inl (List.mem_map_of_mem old)
        · exact .inr rfl

/-! ### Commands -/

/-- What a command does: the builder it makes of another one, or the error it gives. -/
inductive Does (b : Builder) : Located → Except SheetError Builder → Prop
  /-- Changes the settings. -/
  | set {line : Nat} {command : Command} : command.IsPlain → b.settings.row command = [] →
      Does b ⟨line, command⟩ (.ok { b with settings := b.settings.after command })
  | track {line : Nat} {name : String} : Does b ⟨line, .track name⟩
      (.ok { b with active := name, tracks := declare name b.tracks })
  | notes {line : Nat} {cells : List Cell} {b' : Builder} :
      b.Adds (cells.map b.settings.note) b' → Does b ⟨line, .notes cells⟩ (.ok b')
  | loop {line count : Nat} : Does b ⟨line, .loop count⟩
      (.ok { b with loops := ⟨count, [], line⟩ :: b.loops })
  | close {line : Nat} {l : OpenLoop} {ls : List OpenLoop} {ns : List Note} {b' : Builder} :
      b.loops = l :: ls → ({ b with loops := ls } : Builder).target = some ns →
      l.notes.length * l.count + ns.length ≤ noteLimit →
      ({ b with loops := ls } : Builder).Adds (repeated l.count l.notes) b' →
      Does b ⟨line, .endLoop⟩ (.ok b')
  /-- No loop is open. -/
  | unmatched {line : Nat} : b.loops = [] →
      Does b ⟨line, .endLoop⟩ (.error ⟨line, .unmatchedEndLoop⟩)
  | tooLarge {line : Nat} {l : OpenLoop} {ls : List OpenLoop} {ns : List Note} :
      b.loops = l :: ls → ({ b with loops := ls } : Builder).target = some ns →
      noteLimit < l.notes.length * l.count + ns.length →
      Does b ⟨line, .endLoop⟩ (.error ⟨l.line, .loopTooLarge noteLimit⟩)

/-- A command does nothing else. -/
theorem IsDeclared.does_step (h : b.IsDeclared) (c : Located) : b.Does c (b.step c) := by
  obtain ⟨line, command⟩ := c
  cases command with
  | bpm | pan | volume | type => exact .set ⟨rfl, rfl⟩ rfl
  | track name => exact .track
  | loop count => exact .loop
  | notes cells =>
      obtain ⟨b', added, adds⟩ := h.exists_append line (cells.map b.settings.note)
      have taken : b.step ⟨line, .notes cells⟩ = .ok b' := added
      rw [taken]
      exact .notes adds
  | endLoop =>
      -- what is behind the loop has a target, since the active track is declared
      show b.Does _ (b.closeLoop line)
      rcases loops : b.loops with - | ⟨l, ls⟩
      · have none : b.closeLoop line = .error ⟨line, .unmatchedEndLoop⟩ := by
          rw [closeLoop, loops]
        rw [none]
        exact .unmatched loops
      · have declared : ({ b with loops := ls } : Builder).IsDeclared := h
        obtain ⟨ns, target⟩ := declared.exists_target
        rw [closeLoop_of_target line loops target]
        split
        case isTrue small =>
          obtain ⟨b', added, adds⟩ := declared.exists_append line (repeated l.count l.notes)
          rw [added]
          exact .close loops target small adds
        case isFalse large => exact .tooLarge loops target (Nat.lt_of_not_le large)

/-- The active track stays declared. -/
theorem Does.isDeclared {c : Located} (h : b.Does c (.ok b')) (declared : b.IsDeclared) :
    b'.IsDeclared := by
  cases h with
  | set | loop => exact declared
  | track => exact (mem_declare _ _).1
  | notes adds => exact adds.declared
  | close _ _ _ adds => exact adds.declared

/-! ### Runs -/

/-- What holds at first, and is preserved by every step, holds after any commands. -/
theorem of_steps {P : List Located → Builder → Prop} (first : P [] initial)
    (next : ∀ {cs c b b'}, b.IsDeclared → P cs b → b.step c = .ok b' → P (cs ++ [c]) b')
    {cs : List Located} (run : initial.run cs = .ok b) : b.IsDeclared ∧ P cs b := by
  -- the last command meets a builder that the others have led to
  induction cs using List.reverseRecOn generalizing b with
  | nil =>
      cases run
      exact ⟨List.mem_singleton_self _, first⟩
  | append_singleton cs c ih =>
      rw [run_append] at run
      obtain ⟨b₀, before, last⟩ := exists_of_bind run
      obtain ⟨b₁, step, none⟩ := exists_of_bind last
      cases none
      obtain ⟨declared, holds⟩ := ih before
      have does := declared.does_step c
      rw [step] at does
      exact ⟨does.isDeclared declared, next declared holds step⟩

/-- What holds at first, and is preserved by all that a command can do, holds after any
commands. -/
theorem of_run {P : List Located → Builder → Prop} (first : P [] initial)
    (next : ∀ {cs c b b'}, b.IsDeclared → P cs b → b.Does c (.ok b') → P (cs ++ [c]) b')
    {cs : List Located} (run : initial.run cs = .ok b) : b.IsDeclared ∧ P cs b :=
  of_steps first (fun declared holds step => next declared holds (step ▸ declared.does_step _)) run

end Builder

end SongSheet
