/-
SongSheet/Proofs/Sheet/Score.lean

The tracks of a sheet under construction.

A builder finds tracks by name, the first one with a name counts.  A score is a list of
tracks in which that makes no difference: names are distinct, and the active track is
there.  So a track can be entered and notes be added to it by a change of all tracks
with its name, and a builder that holds a score does just that.  Its target is the innermost
open loop or the active track (`Score.load`, `Score.filled`).
-/
import Mathlib.Data.List.Nodup
import SongSheet.Builder

namespace SongSheet

/-- Tracks with distinct names, one of which is active. -/
structure Score where
  active : String
  tracks : List Track
  distinct : (tracks.map (·.name)).Nodup
  present : active ∈ tracks.map (·.name)

namespace Score

/-- One empty track. -/
def initial : Score where
  active := Sheet.defaultTrack
  tracks := [Track.empty Sheet.defaultTrack]
  distinct := List.nodup_singleton _
  present := List.mem_singleton_self _

/-- Changes the notes of the tracks with a name. -/
def change (name : String) (g : List Note → List Note) (ts : List Track) : List Track :=
  ts.map fun t => if t.name = name then ⟨t.name, g t.notes⟩ else t

/-- A change of notes leaves the names. -/
@[simp] theorem names_change (name : String) (g : List Note → List Note) (ts : List Track) :
    (change name g ts).map (·.name) = ts.map (·.name) := by
  rw [change, List.map_map]
  refine List.map_congr_left fun t _ => ?_
  by_cases h : t.name = name
  · simp [h]
  · simp [h]

/-- Empties the track with a name, or adds an empty one at the end. -/
def declared (name : String) (ts : List Track) : List Track :=
  if name ∈ ts.map (·.name) then change name (fun _ => []) ts else ts ++ [Track.empty name]

/-- Makes an empty track with a name the active one. -/
def enter (x : Score) (name : String) : Score where
  active := name
  tracks := declared name x.tracks
  distinct := by
    rw [declared]
    split
    case isTrue => rw [names_change]; exact x.distinct
    case isFalse new =>
      rw [List.map_append, List.nodup_append]
      refine ⟨x.distinct, List.nodup_singleton _, ?_⟩
      rintro a ha b hb rfl
      obtain rfl : a = name := List.mem_singleton.1 hb
      exact new ha
  present := by
    rw [declared]
    split
    case isTrue old => rwa [names_change]
    case isFalse => simp [Track.empty]

/-- Adds notes to the active track. -/
def add (x : Score) (notes : List Note) : Score where
  active := x.active
  tracks := change x.active (· ++ notes) x.tracks
  distinct := by rw [names_change]; exact x.distinct
  present := by rw [names_change]; exact x.present

/-- The notes of the active track. -/
def notes (x : Score) : List Note :=
  ((x.tracks.find? (·.name = x.active)).map (·.notes)).getD []

end Score

/-! ### The first track with a name -/

namespace Score

variable {name : String} {g : List Note → List Note} {t : Track} {ts : List Track}

theorem change_cons_of_eq (h : t.name = name) :
    change name g (t :: ts) = ⟨t.name, g t.notes⟩ :: change name g ts := by
  rw [change, List.map_cons, if_pos h]
  rfl

theorem change_cons_of_ne (h : t.name ≠ name) :
    change name g (t :: ts) = t :: change name g ts := by
  rw [change, List.map_cons, if_neg h]
  rfl

/-- A change of no track. -/
theorem change_of_not_mem (h : name ∉ ts.map (·.name)) : change name g ts = ts := by
  induction ts with
  | nil => rfl
  | cons t ts ih =>
      rw [List.map_cons, List.mem_cons, not_or] at h
      rw [change_cons_of_ne (Ne.symm h.1), ih h.2]

/-- The first track with a name is the only one. -/
theorem updateTrack_eq (distinct : (ts.map (·.name)).Nodup) (here : name ∈ ts.map (·.name)) :
    Builder.updateTrack name g ts = some (change name g ts) := by
  induction ts with
  | nil => cases here
  | cons t ts ih =>
      rw [List.map_cons, List.nodup_cons] at distinct
      rw [Builder.updateTrack]
      by_cases h : t.name = name
      · rw [if_pos h, change_cons_of_eq h, change_of_not_mem (h ▸ distinct.1)]
      · have later : name ∈ ts.map (·.name) :=
          (List.mem_cons.1 here).resolve_left fun eq => h eq.symm
        rw [if_neg h, ih distinct.2 later, change_cons_of_ne h]
        rfl

/-- A track is declared where it is, or at the end. -/
theorem declare_eq (distinct : (ts.map (·.name)).Nodup) :
    Builder.declare name ts = declared name ts := by
  induction ts with
  | nil => rfl
  | cons t ts ih =>
      rw [List.map_cons, List.nodup_cons] at distinct
      rw [Builder.declare, declared]
      by_cases h : t.name = name
      · have here : name ∈ (t :: ts).map (·.name) := List.mem_cons.2 (.inl h.symm)
        rw [if_pos h, if_pos here, change_cons_of_eq h, change_of_not_mem (h ▸ distinct.1)]
      · have same : name ∈ (t :: ts).map (·.name) ↔ name ∈ ts.map (·.name) := by
          rw [List.map_cons, List.mem_cons]
          exact or_iff_right fun eq => h eq.symm
        rw [if_neg h, ih distinct.2, declared]
        by_cases later : name ∈ ts.map (·.name)
        · rw [if_pos later, if_pos (same.2 later), change_cons_of_ne h]
        · rw [if_neg later, if_neg (fun here => later (same.1 here))]
          rfl

/-- The active track is found. -/
theorem find?_active (x : Score) :
    (x.tracks.find? (·.name = x.active)).map (·.notes) = some x.notes := by
  obtain ⟨t, ht, eq⟩ := List.mem_map.1 x.present
  have found : (x.tracks.find? (·.name = x.active)).isSome := by
    rw [List.find?_isSome]
    exact ⟨t, ht, decide_eq_true eq⟩
  obtain ⟨u, hu⟩ := Option.isSome_iff_exists.1 found
  rw [notes, hu]
  rfl

/-! ### Builders that hold a score -/

/-- The builder with a score, settings and open loops. -/
def builder (x : Score) (s : Settings) (loops : List OpenLoop) : Builder :=
  ⟨s, x.active, loops, x.tracks⟩

theorem builder_initial : initial.builder .initial [] = Builder.initial := rfl

/-- The notes of the target, behind open loops. -/
def load (x : Score) : List OpenLoop → List Note
  | [] => x.notes
  | l :: _ => l.notes

/-- The builder with notes added to the target. -/
def filled (x : Score) (s : Settings) (notes : List Note) : List OpenLoop → Builder
  | [] => (x.add notes).builder s []
  | l :: ls => x.builder s ({ l with notes := l.notes ++ notes } :: ls)

/-- There is a target, whatever loops are open. -/
theorem target_builder (x : Score) (s : Settings) (loops : List OpenLoop) :
    (x.builder s loops).target = some (x.load loops) := by
  cases loops with
  | nil => exact x.find?_active
  | cons l ls => rfl

/-- The target takes the notes. -/
theorem append_builder (x : Score) (s : Settings) (loops : List OpenLoop) (line : Nat)
    (notes : List Note) :
    (x.builder s loops).append line notes = .ok (x.filled s notes loops) := by
  cases loops with
  | nil =>
      simp only [Builder.append, builder, updateTrack_eq x.distinct x.present]
      rfl
  | cons l ls => rfl

/-- A track is entered, whatever loops are open. -/
theorem step_track (x : Score) (s : Settings) (loops : List OpenLoop) (line : Nat)
    (name : String) :
    (x.builder s loops).step ⟨line, .track name⟩ = .ok ((x.enter name).builder s loops) := by
  show Except.ok { x.builder s loops with active := name, tracks := Builder.declare name x.tracks }
    = _
  rw [declare_eq x.distinct]
  rfl

end Score

end SongSheet
