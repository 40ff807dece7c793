/-
SongSheet/Proofs/Sheet/Provenance.lean

Where the notes of a sheet come from.

A builder stamps a note when its row is run, and from then on carries it through loops and
repeats without looking at it: it is a draft whose marks are notes (`Builder.step_draft`).
The settings are those of the commands that have been run (`Settings.inForce`), whatever
tracks were entered and loops were opened between them.  So the sheet of a list of commands
is the draft of its cells, with every cell exchanged for its note
(`Builder.ofCommands_eq_ofMarked`), and commands that set something cannot change its
structure.
-/
import SongSheet.Proofs.Sheet.Draft
import SongSheet.Proofs.Sheet.TrackOrder

namespace SongSheet

open SheetError

/-! ### Settings -/

namespace Command

/-- The tempo it sets. -/
def bpm? : Command → Option Nat
  | .bpm n => some n
  | _ => none

/-- The timbre it sets. -/
def timbre? : Command → Option Timbre
  | .type t => some t
  | _ => none

/-- The pan it sets, within the range of pans. -/
def pan? : Command → Option Single
  | .pan x => some (Settings.clampPan x)
  | _ => none

/-- The volume it sets, within the range of volumes. -/
def volume? : Command → Option Single
  | .volume x => some (Settings.clampVolume x)
  | _ => none

end Command

/-- What the last of the commands that sets it has set. -/
def lastSet {α : Type} (f : Command → Option α) (cs : List Located) : Option α :=
  cs.reverse.findSome? fun c => f c.command

theorem lastSet_concat {α : Type} (f : Command → Option α) (cs : List Located) (c : Located) :
    lastSet f (cs ++ [c]) = (f c.command).or (lastSet f cs) := by
  rw [lastSet, List.reverse_concat, List.findSome?_cons]
  cases f c.command <;> rfl

namespace Settings

/-- The settings after commands: each was set last, or is the one at the start. -/
def inForce (cs : List Located) : Settings where
  bpm := (lastSet Command.bpm? cs).getD initial.bpm
  timbre := (lastSet Command.timbre? cs).getD initial.timbre
  pan := (lastSet Command.pan? cs).getD initial.pan
  volume := (lastSet Command.volume? cs).getD initial.volume

theorem inForce_concat (cs : List Located) (c : Located) :
    inForce (cs ++ [c]) = (inForce cs).after c.command := by
  obtain ⟨line, command⟩ := c
  simp only [inForce, lastSet_concat]
  cases command <;> rfl

end Settings

/-! ### Cells -/

/-- A cell, and where it stands. -/
structure Origin where
  /-- The commands before its row. -/
  row : Nat
  /-- The cells before it in its row. -/
  number : Nat
  cell : Cell
  deriving DecidableEq

namespace Origin

/-- The cell stands there. -/
def IsIn (cs : List Located) (o : Origin) : Prop :=
  ∃ line cells, cs[o.row]? = some ⟨line, .notes cells⟩ ∧ cells[o.number]? = some o.cell

/-- The note of a cell: the settings are those of the commands before its row. -/
def note (cs : List Located) (o : Origin) : Note := (Settings.inForce (cs.take o.row)).note o.cell

end Origin

/-- The cells of a command with so many commands before it. -/
def Command.origins (row : Nat) : Command → List Origin
  | .notes cells => cells.mapIdx fun number cell => ⟨row, number, cell⟩
  | _ => []

/-- What does not depend on where a cell stands. -/
theorem map_origins {α : Type} {f : Origin → α} {g : Cell → α} {row : Nat}
    (h : ∀ number cell, f ⟨row, number, cell⟩ = g cell) (cells : List Cell) :
    ((Command.notes cells).origins row).map f = cells.map g := by
  show (cells.mapIdx fun number cell => Origin.mk row number cell).map f = _
  refine List.ext_getElem? fun number => ?_
  rw [List.getElem?_map, List.getElem?_mapIdx, List.getElem?_map, Option.map_map]
  exact congrArg (fun f => Option.map f cells[number]?) (funext (h number))

/-- The commands of a sheet with their cells. -/
def withOrigins (cs : List Located) : List (Marked Origin) :=
  cs.mapIdx fun row c => ⟨c, c.command.origins row⟩

theorem withOrigins_concat (cs : List Located) (c : Located) :
    withOrigins (cs ++ [c]) = withOrigins cs ++ [⟨c, c.command.origins cs.length⟩] :=
  List.mapIdx_concat

/-- Each cell stands where it says. -/
theorem isIn_of_mem_withOrigins {cs : List Located} {m : Marked Origin} {o : Origin}
    (hm : m ∈ withOrigins cs) (ho : o ∈ m.marks) : o.IsIn cs := by
  obtain ⟨row, inside, rfl⟩ := List.mem_mapIdx.1 hm
  have here : cs[row]? = some cs[row] := List.getElem?_eq_getElem inside
  rcases eq : cs[row] with ⟨line, command⟩
  rw [eq] at here ho
  cases command with
  | notes cells =>
      obtain ⟨number, within, rfl⟩ := List.mem_mapIdx.1 ho
      exact ⟨line, cells, here, List.getElem?_eq_getElem within⟩
  | _ => cases ho

/-- A row in front of the commands that follow it has the same notes. -/
theorem Origin.IsIn.note_append {cs : List Located} {o : Origin} (h : o.IsIn cs)
    (ds : List Located) : o.note (cs ++ ds) = o.note cs := by
  obtain ⟨line, cells, here, -⟩ := h
  obtain ⟨inside, -⟩ := List.getElem?_eq_some_iff.1 here
  rw [note, note, List.take_append_of_le_length (Nat.le_of_lt inside)]

/-! ### Builders are drafts -/

namespace OpenLoop

/-- A loop with notes for marks. -/
def draft (l : OpenLoop) : DraftLoop Note := ⟨l.count, l.notes, l.line⟩

end OpenLoop

/-- Tracks with notes for marks. -/
def draftTracks (ts : List Track) : List (String × List Note) := ts.map fun t => (t.name, t.notes)

namespace Builder

/-- The draft of a builder. -/
def draft (b : Builder) : Draft Note := ⟨b.active, b.loops.map (·.draft), draftTracks b.tracks⟩

variable {b : Builder}

/-- The settings of a builder are those in force. -/
theorem settings_of_run {cs : List Located} (run : initial.run cs = .ok b) :
    b.settings = Settings.inForce cs := by
  refine (of_run (P := fun cs b => b.settings = Settings.inForce cs) rfl ?_ run).2
  intro cs c b b' _ settings does
  rw [Settings.inForce_concat, ← settings]
  cases does with
  | set | track | loop => rfl
  | notes adds => exact adds.settings
  | close _ _ _ adds => exact adds.settings

end Builder

namespace Score

variable (x : Score) (s : Settings)

theorem draftTracks_change (name : String) (g : List Note → List Note) (ts : List Track) :
    draftTracks (change name g ts) = Draft.change name g (draftTracks ts) := by
  rw [draftTracks, draftTracks, change, Draft.change, List.map_map, List.map_map]
  refine List.map_congr_left fun t _ => ?_
  show ((if t.name = name then Track.mk t.name (g t.notes) else t).name,
    (if t.name = name then Track.mk t.name (g t.notes) else t).notes) =
      if t.name = name then (t.name, g t.notes) else (t.name, t.notes)
  by_cases eq : t.name = name
  · rw [if_pos eq, if_pos eq]
  · rw [if_neg eq, if_neg eq]

theorem names_draftTracks (ts : List Track) : (draftTracks ts).map (·.1) = ts.map (·.name) := by
  rw [draftTracks, List.map_map]
  rfl

/-- A track is entered in the draft. -/
theorem draft_enter (loops : List OpenLoop) (name : String) :
    ((x.enter name).builder s loops).draft = (x.builder s loops).draft.enter name := by
  show Draft.mk name (loops.map (·.draft)) (draftTracks (declared name x.tracks)) =
    Draft.mk name (loops.map (·.draft))
      (if name ∈ (draftTracks x.tracks).map (·.1) then
        Draft.change name (fun _ => []) (draftTracks x.tracks)
      else draftTracks x.tracks ++ [(name, [])])
  rw [names_draftTracks, declared]
  split
  case isTrue => rw [draftTracks_change]
  case isFalse =>
    rw [draftTracks, List.map_append]
    rfl

/-- Notes are added to the draft. -/
theorem append_draft (loops : List OpenLoop) (line : Nat) (notes : List Note) :
    ((x.builder s loops).append line notes).map Builder.draft =
      .ok ((x.builder s loops).draft.add notes) := by
  cases loops with
  | cons l ls => rfl
  | nil =>
      rw [append_builder]
      refine congrArg Except.ok ?_
      show Draft.mk x.active [] (draftTracks (change x.active (· ++ notes) x.tracks)) = _
      rw [draftTracks_change]
      rfl

/-- The target of the draft. -/
theorem target_draft (loops : List OpenLoop) :
    (x.builder s loops).target = some (x.builder s loops).draft.target := by
  cases loops with
  | cons l ls => rfl
  | nil =>
      rw [target_builder]
      refine congrArg some ?_
      show x.notes = (((draftTracks x.tracks).find? (·.1 = x.active)).map (·.2)).getD []
      rw [draftTracks, List.find?_map, Option.map_map]
      rfl

/-- A loop is closed in the draft. -/
theorem closeLoop_draft (loops : List OpenLoop) (line : Nat) :
    ((x.builder s loops).closeLoop line).map Builder.draft =
      (x.builder s loops).draft.closeLoop line := by
  cases loops with
  | nil => rfl
  | cons l ls =>
      rw [Builder.closeLoop_of_target line rfl (x.target_draft s ls),
        Draft.closeLoop_cons l.draft (ls.map (·.draft)) rfl line]
      show Except.map Builder.draft (if l.notes.length * l.count +
          (x.builder s ls).draft.target.length ≤ Builder.noteLimit then _ else _) =
        if l.notes.length * l.count +
          (x.builder s ls).draft.target.length ≤ Builder.noteLimit then _ else _
      split
      case isTrue =>
        rw [Builder.repeated_eq]
        exact x.append_draft s ls line _
      case isFalse => rfl

/-- A command does to the draft what it does to the builder. -/
theorem step_draft (loops : List OpenLoop) (c : Located) :
    ((x.builder s loops).step c).map Builder.draft =
      (x.builder s loops).draft.step ⟨c, s.row c.command⟩ := by
  obtain ⟨line, command⟩ := c
  cases command with
  | bpm | pan | volume | type | loop => rfl
  | track name =>
      rw [step_track]
      exact congrArg Except.ok (x.draft_enter s loops name)
  | notes cells => exact x.append_draft s loops line _
  | endLoop => exact x.closeLoop_draft s loops line

end Score

namespace Builder

/-- The row that follows some commands has the notes of its cells. -/
theorem origins_note (cs : List Located) (c : Located) :
    (c.command.origins cs.length).map (Origin.note (cs ++ [c])) =
      (Settings.inForce cs).row c.command := by
  obtain ⟨line, command⟩ := c
  cases command with
  | notes cells =>
      refine map_origins (fun number cell => ?_) cells
      show (Settings.inForce ((cs ++ [_]).take cs.length)).note cell = _
      rw [List.take_left]
  | _ => rfl

/-- The notes that stand for cells of commands do not change with what follows. -/
theorem withOrigins_note_concat (cs : List Located) (c : Located) :
    (withOrigins (cs ++ [c])).map (·.map (Origin.note (cs ++ [c]))) =
      (withOrigins cs).map (·.map (Origin.note cs)) ++
        [⟨c, (Settings.inForce cs).row c.command⟩] := by
  rw [withOrigins_concat, List.map_append, List.map_singleton]
  congr 1
  · refine List.map_congr_left fun m hm => ?_
    refine congrArg (Marked.mk m.located) (List.map_congr_left fun o ho => ?_)
    exact (isIn_of_mem_withOrigins hm ho).note_append [c]
  · rw [Marked.map, origins_note]

/-- A builder is reached as the draft of notes. -/
theorem run_draft (cs : List Located) :
    (initial.run cs).map draft =
      Draft.initial.run ((withOrigins cs).map (·.map (Origin.note cs))) := by
  induction cs using List.reverseRecOn with
  | nil => rfl
  | append_singleton cs c ih =>
      rw [withOrigins_note_concat, Draft.run_concat, ← ih, run_append]
      rcases run : initial.run cs with e | b
      · rfl
      · -- the builder so far holds a score, and its settings are those in force
        obtain ⟨x, eq⟩ := exists_score run
        have step := x.step_draft b.settings b.loops c
        rw [← eq, settings_of_run run] at step
        show Except.map draft ((b.step c).bind .ok) = b.draft.step _
        rw [← step]
        cases b.step c <;> rfl

theorem finish_draft (b : Builder) :
    b.finish.map (fun sheet => draftTracks sheet.tracks) = b.draft.finish := by
  obtain ⟨settings, active, loops, tracks⟩ := b
  cases loops with
  | nil => rfl
  | cons l ls => rfl

/-- A sheet is the draft of its cells, each exchanged for its note. -/
theorem ofCommands_eq_ofMarked (cs : List Located) :
    (Sheet.ofCommands cs).map (fun sheet => draftTracks sheet.tracks) =
      (Draft.ofMarked (withOrigins cs)).map (mapMarks (Origin.note cs)) := by
  rw [← Draft.ofMarked_map, Draft.ofMarked, ← run_draft]
  show Except.map _ ((initial.run cs).bind (·.finish)) = _
  cases initial.run cs with
  | error e => rfl
  | ok b => exact finish_draft b

end Builder

/-! ### Settings and structure -/

namespace Sheet

/-- The sheet with some tracks. -/
def ofTracks (ts : List (String × List Note)) : Sheet := ⟨ts.map fun t => ⟨t.1, t.2⟩⟩

/-- The tracks of a sheet with the pitches of their notes. -/
def skeleton (sheet : Sheet) : List (String × List (List Single)) :=
  sheet.tracks.map fun t => (t.name, t.notes.map (·.pitches))

theorem ofTracks_draftTracks (sheet : Sheet) : ofTracks (draftTracks sheet.tracks) = sheet := by
  obtain ⟨tracks⟩ := sheet
  rw [ofTracks, draftTracks, List.map_map]
  exact congrArg Sheet.mk (List.map_id tracks)

end Sheet

/-- A command with the pitches of its cells. -/
def Located.pitched (c : Located) : Marked (List Single) :=
  ⟨c, match c.command with
    | .notes cells => cells.map (·.pitches)
    | _ => []⟩

theorem withOrigins_pitches (cs : List Located) :
    (withOrigins cs).map (·.map (·.cell.pitches)) = cs.map Located.pitched := by
  refine List.ext_getElem? fun row => ?_
  rw [withOrigins, List.getElem?_map, List.getElem?_mapIdx, List.getElem?_map, Option.map_map]
  refine congrArg (fun f => Option.map f cs[row]?) (funext fun c => ?_)
  obtain ⟨line, command⟩ := c
  cases command with
  | notes cells => exact congrArg (Marked.mk _) (map_origins (fun _ _ => rfl) cells)
  | _ => rfl

/-- The structure of a sheet is the draft of its pitches. -/
theorem map_skeleton (cs : List Located) :
    (Sheet.ofCommands cs).map Sheet.skeleton = Draft.ofMarked (cs.map Located.pitched) := by
  have pitches : (Sheet.ofCommands cs).map Sheet.skeleton =
      ((Sheet.ofCommands cs).map fun sheet => draftTracks sheet.tracks).map
        (mapMarks (·.pitches)) := by
    cases Sheet.ofCommands cs with
    | error e => rfl
    | ok sheet =>
        show Except.ok _ = Except.ok (mapMarks _ (draftTracks sheet.tracks))
        rw [mapMarks, draftTracks, List.map_map]
        rfl
  rw [pitches, Builder.ofCommands_eq_ofMarked, ← withOrigins_pitches, Draft.ofMarked_map]
  cases Draft.ofMarked (withOrigins cs) with
  | error e => rfl
  | ok ts => exact congrArg Except.ok (Draft.mapMarks_mapMarks _ _ ts)

/-- Settings and structure do not interfere.

Without the commands that set something, a list of commands works as well, or fails with the
same error; it makes the same tracks in the same order, with as many notes of the same
pitches.

And the sheet that commands make is that of a draft in which every mark is a cell of theirs
and becomes the note of this cell: its length is that of the code of the cell in the last tempo
before its row, and its timbre, pan and volume are those that were set last before its row,
pan and volume within their ranges.  So loops, tracks and later commands do not matter, and
all copies of a cell are the same note. -/
theorem settings_apart_from_structure (cs : List Located) :
    (Sheet.ofCommands cs).map Sheet.skeleton =
        (Sheet.ofCommands (cs.filter fun c => !c.command.isSetting)).map Sheet.skeleton ∧
      Sheet.ofCommands cs = (Draft.ofMarked (withOrigins cs)).map (fun ts =>
        Sheet.ofTracks (mapMarks (Origin.note cs) ts)) ∧
      ∀ ts, Draft.ofMarked (withOrigins cs) = .ok ts → ∀ t ∈ ts, ∀ o ∈ t.2, o.IsIn cs := by
  refine ⟨?_, ?_, fun ts made => ?_⟩
  · rw [map_skeleton, map_skeleton, Draft.ofMarked, Draft.ofMarked,
      Draft.run_filter Draft.initial Located.pitched (fun _ => rfl)]
  · have stamped := congrArg (Except.map Sheet.ofTracks) (Builder.ofCommands_eq_ofMarked cs)
    have same : ((Sheet.ofCommands cs).map fun sheet => draftTracks sheet.tracks).map
        Sheet.ofTracks = Sheet.ofCommands cs := by
      cases Sheet.ofCommands cs with
      | error e => rfl
      | ok sheet => exact congrArg Except.ok (Sheet.ofTracks_draftTracks sheet)
    rw [same] at stamped
    rw [stamped]
    cases Draft.ofMarked (withOrigins cs) <;> rfl
  · exact Draft.forall_mem_ofMarked (fun m hm o ho => isIn_of_mem_withOrigins hm ho) made

/-- A loop in which the tempo and the track change, and a pan out of range. -/
def ritardando : List Located :=
  [⟨1, .loop 2⟩, ⟨2, .notes [⟨[Binary.ofNat 440], .half, false⟩]⟩, ⟨3, .bpm 60⟩,
    ⟨4, .track "b"⟩, ⟨5, .endLoop⟩, ⟨6, .pan (Binary.ofNat 2)⟩,
    ⟨7, .notes [⟨[Binary.ofNat 220], .half, false⟩]⟩]

/-- Both copies of the first cell have the tempo before the loop, the other cell has the one
that was set in the loop. -/
theorem settings_apart_from_structure_ritardando :
    ∃ first last : Origin, first.IsIn ritardando ∧ last.IsIn ritardando ∧
      Sheet.ofCommands ritardando = .ok (Sheet.ofTracks [("default", []),
        ("b", [first.note ritardando, first.note ritardando, last.note ritardando])]) ∧
      (first.note ritardando).duration = NoteValue.seconds ⟨.half, false⟩ 120 ∧
      (last.note ritardando).duration = NoteValue.seconds ⟨.half, false⟩ 60 ∧
      (last.note ritardando).pan = Settings.clampPan (Binary.ofNat 2) := by
  let first : Origin := ⟨1, 0, ⟨[Binary.ofNat 440], .half, false⟩⟩
  let last : Origin := ⟨6, 0, ⟨[Binary.ofNat 220], .half, false⟩⟩
  have made : Draft.ofMarked (withOrigins ritardando) =
      .ok [("default", []), ("b", [first, first, last])] := rfl
  obtain ⟨-, sheet, cells⟩ := settings_apart_from_structure ritardando
  refine ⟨first, last, ?_, ?_, ?_, rfl, rfl, rfl⟩
  · exact cells _ made ("b", [first, first, last]) (by simp) first (by simp)
  · exact cells _ made ("b", [first, first, last]) (by simp) last (by simp)
  · rw [sheet, made]
    rfl

end SongSheet
