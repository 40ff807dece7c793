/-
SongSheet/Proofs/Sheet/Draft.lean

The structure of a sheet, without its sounds.

A draft is what a builder is when nobody looks at the notes: the rows of its commands hold
marks of any type, and marks go where notes would go.  A draft has no settings, so commands
that set something do nothing to it (`Draft.step_of_isSetting`).

A draft never looks at its marks either.  So it does not matter whether the marks of the rows
are exchanged before the commands run, or afterwards in the draft (`Draft.run_map`,
`Draft.ofMarked_map`).
-/
import SongSheet.Builder

namespace SongSheet

open SheetError

/-! ### Marks -/

/-- A command, and what stands for the cells of its row. -/
structure Marked (α : Type) where
  located : Located
  marks : List α

/-- The command sets something for the notes that follow. -/
def Command.isSetting : Command → Bool
  | .bpm _ | .pan _ | .volume _ | .type _ => true
  | _ => false

/-- A loop of a draft that is not closed yet. -/
structure DraftLoop (α : Type) where
  count : Nat
  marks : List α
  /-- The line it was opened on. -/
  line : Nat

/-- A sheet under construction, with marks for its notes. -/
structure Draft (α : Type) where
  /-- The name of the active track. -/
  active : String
  /-- The open loops, the innermost first. -/
  loops : List (DraftLoop α)
  /-- The tracks with their names. -/
  tracks : List (String × List α)

variable {α β : Type}

namespace Draft

/-! ### Commands -/

/-- One empty track. -/
def initial : Draft α := ⟨Sheet.defaultTrack, [], [(Sheet.defaultTrack, [])]⟩

/-- Changes the marks of the tracks with a name. -/
def change (name : String) (g : List α → List α) (ts : List (String × List α)) :
    List (String × List α) :=
  ts.map fun t => if t.1 = name then (t.1, g t.2) else t

/-- Makes an empty track with a name the active one. -/
def enter (d : Draft α) (name : String) : Draft α :=
  { d with
    active := name
    tracks :=
      if name ∈ d.tracks.map (·.1) then change name (fun _ => []) d.tracks
      else d.tracks ++ [(name, [])] }

/-- The marks that new ones are added to. -/
def target (d : Draft α) : List α :=
  match d.loops with
  | l :: _ => l.marks
  | [] => ((d.tracks.find? (·.1 = d.active)).map (·.2)).getD []

/-- Adds marks to the target. -/
def add (d : Draft α) (marks : List α) : Draft α :=
  match d.loops with
  | l :: ls => { d with loops := { l with marks := l.marks ++ marks } :: ls }
  | [] => { d with tracks := change d.active (· ++ marks) d.tracks }

/-- Closes the innermost loop. -/
def closeLoop (d : Draft α) (line : Nat) : Except SheetError (Draft α) :=
  match d.loops with
  | [] => .error ⟨line, .unmatchedEndLoop⟩
  | l :: ls =>
      let outer := { d with loops := ls }
      if l.marks.length * l.count + outer.target.length ≤ Builder.noteLimit then
        .ok (outer.add (List.replicate l.count l.marks).flatten)
      else .error ⟨l.line, .loopTooLarge Builder.noteLimit⟩

/-- Runs one command. -/
def step (d : Draft α) (m : Marked α) : Except SheetError (Draft α) :=
  match m.located.command with
  | .track name => .ok (d.enter name)
  | .loop n => .ok { d with loops := ⟨n, [], m.located.line⟩ :: d.loops }
  | .endLoop => d.closeLoop m.located.line
  | .notes _ => .ok (d.add m.marks)
  | _ => .ok d

/-- Runs commands from a draft on. -/
def run (d : Draft α) (ms : List (Marked α)) : Except SheetError (Draft α) := ms.foldlM step d

/-- The tracks of a draft in which no loop is open. -/
def finish (d : Draft α) : Except SheetError (List (String × List α)) :=
  match d.loops with
  | l :: _ => .error ⟨l.line, .unclosedLoop⟩
  | [] => .ok d.tracks

/-- The tracks that commands make. -/
def ofMarked (ms : List (Marked α)) : Except SheetError (List (String × List α)) :=
  (initial.run ms).bind finish

theorem closeLoop_cons {d : Draft α} (l : DraftLoop α) (ls : List (DraftLoop α))
    (loops : d.loops = l :: ls) (line : Nat) :
    d.closeLoop line =
      if l.marks.length * l.count + ({ d with loops := ls } : Draft α).target.length ≤
          Builder.noteLimit then
        .ok (({ d with loops := ls } : Draft α).add (List.replicate l.count l.marks).flatten)
      else .error ⟨l.line, .loopTooLarge Builder.noteLimit⟩ := by
  rw [closeLoop, loops]

theorem run_cons (d : Draft α) (m : Marked α) (ms : List (Marked α)) :
    d.run (m :: ms) = (d.step m).bind (·.run ms) := rfl

theorem run_concat (d : Draft α) (ms : List (Marked α)) (m : Marked α) :
    d.run (ms ++ [m]) = (d.run ms).bind (·.step m) := by
  rw [run, List.foldlM_append]
  show (d.run ms).bind (fun d' => (d'.step m).bind .ok) = _
  refine congrArg _ (funext fun d' => ?_)
  cases d'.step m <;> rfl

/-! ### Settings -/

/-- A setting does nothing to a draft. -/
theorem step_of_isSetting {d : Draft α} {m : Marked α}
    (h : m.located.command.isSetting = true) : d.step m = .ok d := by
  rw [step]
  cases command : m.located.command with
  | bpm | pan | volume | type => rfl
  | track | loop | endLoop | notes =>
      rw [command] at h
      cases h

/-- Settings can be left out. -/
theorem run_filter (d : Draft α) (f : Located → Marked α) (located : ∀ c, (f c).located = c)
    (cs : List Located) :
    d.run ((cs.filter fun c => !c.command.isSetting).map f) = d.run (cs.map f) := by
  induction cs generalizing d with
  | nil => rfl
  | cons c cs ih =>
      rw [List.map_cons, run_cons]
      cases set : c.command.isSetting with
      | true =>
          rw [step_of_isSetting (by rw [located]; exact set),
            List.filter_cons_of_neg (by simp [set])]
          exact ih d
      | false =>
          rw [List.filter_cons_of_pos (by simp [set]), List.map_cons, run_cons]
          exact congrArg _ (funext fun d' => ih d')

end Draft

/-! ### Marks are not looked at -/

/-- Exchanges the marks of a row. -/
def Marked.map (f : α → β) (m : Marked α) : Marked β := ⟨m.located, m.marks.map f⟩

/-- Exchanges the marks of a loop. -/
def DraftLoop.map (f : α → β) (l : DraftLoop α) : DraftLoop β :=
  ⟨l.count, l.marks.map f, l.line⟩

/-- Exchanges the marks of tracks. -/
def mapMarks (f : α → β) (ts : List (String × List α)) : List (String × List β) :=
  ts.map fun t => (t.1, t.2.map f)

namespace Draft

/-- Exchanges all marks. -/
def map (f : α → β) (d : Draft α) : Draft β :=
  ⟨d.active, d.loops.map (·.map f), mapMarks f d.tracks⟩

variable (f : α → β)

theorem initial_map : (initial.map f : Draft β) = initial := rfl

@[simp] theorem names_mapMarks (ts : List (String × List α)) :
    (mapMarks f ts).map (·.1) = ts.map (·.1) := by
  rw [mapMarks, List.map_map]
  rfl

theorem mapMarks_mapMarks {γ : Type} (g : β → γ) (ts : List (String × List α)) :
    mapMarks g (mapMarks f ts) = mapMarks (fun a => g (f a)) ts := by
  rw [mapMarks, mapMarks, mapMarks, List.map_map]
  refine List.map_congr_left fun t _ => ?_
  show (t.1, (t.2.map f).map g) = _
  rw [List.map_map]
  rfl

theorem mapMarks_change {g : List α → List α} (g' : List β → List β)
    (h : ∀ marks, (g marks).map f = g' (marks.map f)) (name : String)
    (ts : List (String × List α)) :
    mapMarks f (change name g ts) = change name g' (mapMarks f ts) := by
  rw [change, change, mapMarks, mapMarks, List.map_map, List.map_map]
  refine List.map_congr_left fun t _ => ?_
  show ((if t.1 = name then (t.1, g t.2) else t).1,
      (if t.1 = name then (t.1, g t.2) else t).2.map f) =
    if t.1 = name then (t.1, g' (t.2.map f)) else (t.1, t.2.map f)
  by_cases eq : t.1 = name
  · rw [if_pos eq, if_pos eq, h]
  · rw [if_neg eq, if_neg eq]

theorem map_enter (d : Draft α) (name : String) : (d.enter name).map f = (d.map f).enter name := by
  have tracks : mapMarks f (d.enter name).tracks = ((d.map f).enter name).tracks := by
    show mapMarks f (if name ∈ d.tracks.map (·.1) then _ else _) =
      if name ∈ (mapMarks f d.tracks).map (·.1) then _ else _
    rw [names_mapMarks]
    by_cases old : name ∈ d.tracks.map (·.1)
    · rw [if_pos old, if_pos old]
      exact mapMarks_change f (fun _ => []) (fun _ => rfl) name d.tracks
    · rw [if_neg old, if_neg old]
      show mapMarks f (d.tracks ++ [(name, [])]) = mapMarks f d.tracks ++ [(name, [])]
      rw [mapMarks, List.map_append]
      rfl
  show Draft.mk name (d.loops.map (·.map f)) (mapMarks f (d.enter name).tracks) = _
  rw [tracks]
  rfl

theorem target_map (d : Draft α) : (d.map f).target = d.target.map f := by
  obtain ⟨active, loops, tracks⟩ := d
  cases loops with
  | cons l ls => rfl
  | nil =>
      show (((mapMarks f tracks).find? (·.1 = active)).map (·.2)).getD [] =
        (((tracks.find? (·.1 = active)).map (·.2)).getD []).map f
      induction tracks with
      | nil => rfl
      | cons t ts ih =>
          show (((((t.1, t.2.map f) : String × List β) :: mapMarks f ts).find? _).map
            (·.2)).getD [] = _
          by_cases eq : t.1 = active
          · rw [List.find?_cons_of_pos (by simpa using eq),
              List.find?_cons_of_pos (by simpa using eq)]
            rfl
          · rw [List.find?_cons_of_neg (by simpa using eq),
              List.find?_cons_of_neg (by simpa using eq)]
            exact ih

theorem map_add (d : Draft α) (marks : List α) :
    (d.add marks).map f = (d.map f).add (marks.map f) := by
  obtain ⟨active, loops, tracks⟩ := d
  cases loops with
  | cons l ls =>
      show Draft.mk active (⟨l.count, (l.marks ++ marks).map f, l.line⟩ :: ls.map (·.map f)) _ = _
      rw [List.map_append]
      rfl
  | nil =>
      show Draft.mk active [] (mapMarks f (change active (· ++ marks) tracks)) = _
      rw [mapMarks_change f (· ++ marks.map f) (fun _ => List.map_append) active tracks]
      rfl

theorem closeLoop_map (d : Draft α) (line : Nat) :
    (d.map f).closeLoop line = (d.closeLoop line).map (map f) := by
  obtain ⟨active, loops, tracks⟩ := d
  cases loops with
  | nil => rfl
  | cons l ls =>
      have outer := target_map f ⟨active, ls, tracks⟩
      rw [closeLoop_cons l ls rfl line, closeLoop_cons (l.map f) (ls.map (·.map f)) rfl line]
      show (if (l.marks.map f).length * l.count +
          (Draft.map f ⟨active, ls, tracks⟩).target.length ≤ Builder.noteLimit then _ else _) = _
      rw [outer, List.length_map, List.length_map]
      split
      case isTrue =>
        refine congrArg Except.ok ?_
        rw [map_add, List.map_flatten, List.map_replicate]
        rfl
      case isFalse => rfl

theorem step_map (d : Draft α) (m : Marked α) :
    (d.map f).step (m.map f) = (d.step m).map (map f) := by
  obtain ⟨⟨line, command⟩, marks⟩ := m
  cases command with
  | bpm | pan | volume | type | loop => rfl
  | track name => exact congrArg Except.ok (map_enter f d name).symm
  | endLoop => exact closeLoop_map f d line
  | notes cells => exact congrArg Except.ok (map_add f d marks).symm

theorem run_map (d : Draft α) (ms : List (Marked α)) :
    (d.map f).run (ms.map (·.map f)) = (d.run ms).map (map f) := by
  induction ms generalizing d with
  | nil => rfl
  | cons m ms ih =>
      rw [List.map_cons, run_cons, run_cons, step_map]
      cases d.step m with
      | error e => rfl
      | ok d' => exact ih d'

theorem finish_map (d : Draft α) : (d.map f).finish = d.finish.map (mapMarks f) := by
  obtain ⟨active, loops, tracks⟩ := d
  cases loops with
  | nil => rfl
  | cons l ls => rfl

/-- Marks are exchanged before the commands run, or afterwards. -/
theorem ofMarked_map (ms : List (Marked α)) :
    ofMarked (ms.map (·.map f)) = (ofMarked ms).map (mapMarks f) := by
  rw [ofMarked, ofMarked, ← initial_map f, run_map]
  cases initial.run ms with
  | error e => rfl
  | ok d => exact finish_map f d

/-- What holds of all marks of the rows, holds of all marks of the tracks. -/
theorem forall_mem_ofMarked {P : α → Prop} {ms : List (Marked α)} {ts : List (String × List α)}
    (rows : ∀ m ∈ ms, ∀ a ∈ m.marks, P a) (made : ofMarked ms = .ok ts) :
    ∀ t ∈ ts, ∀ a ∈ t.2, P a := by
  -- the marks are exchanged for those with the property, and the tracks are made of these
  have narrow : ∃ ms' : List (Marked { a // P a }), ms'.map (·.map Subtype.val) = ms := by
    clear made
    induction ms with
    | nil => exact ⟨[], rfl⟩
    | cons m ms ih =>
        obtain ⟨first, later⟩ := List.forall_mem_cons.1 rows
        obtain ⟨ms', rfl⟩ := ih later
        refine ⟨⟨m.located, m.marks.attachWith P first⟩ :: ms', ?_⟩
        rw [List.map_cons, Marked.map, List.attachWith_map_subtype_val]
  obtain ⟨ms', rfl⟩ := narrow
  rw [ofMarked_map] at made
  rcases tracks : ofMarked ms' with e | ts'
  · rw [tracks] at made
    cases made
  · rw [tracks] at made
    cases made
    intro t ht a ha
    obtain ⟨t', -, rfl⟩ := List.mem_map.1 ht
    obtain ⟨a', -, rfl⟩ := List.mem_map.1 ha
    exact a'.2

end Draft

end SongSheet
