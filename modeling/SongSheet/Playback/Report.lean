/-
SongSheet/Playback/Report.lean

What is reported of a playback.

A report has an entry for every track, in the order of the sheet: the notes that
were scheduled, the tones that ended well and that did not, and whether the track
was cut short.  A track that crashed is reported with no notes at all.
-/
import SongSheet.Playback.Tone
import SongSheet.Yaml.Node
import SongSheet.Yaml.Scalar

namespace SongSheet.Playback

open Yaml

/-- What is reported of a track. -/
structure TrackReport where
  name : String
  notesScheduled : Nat
  tonesCompleted : Nat
  tonesFailed : Nat
  /-- Not all of the track was played. -/
  cancelled : Bool
  deriving DecidableEq, Repr

namespace TrackReport

/-- Before the first note. -/
def initial (name : String) : TrackReport := ⟨name, 0, 0, 0, false⟩

/-- A track that crashed. -/
def lost (name : String) : TrackReport := ⟨name, 0, 0, 0, true⟩

/-- Counts a tone. -/
def count (r : TrackReport) : Outcome → TrackReport
  | .completed => { r with tonesCompleted := r.tonesCompleted + 1 }
  | .failed _ | .crashed => { r with tonesFailed := r.tonesFailed + 1 }

end TrackReport

/-- What is reported of all tracks. -/
structure Report where
  tracks : List TrackReport
  deriving DecidableEq, Repr

namespace Report

/-- The first entry with a name. -/
def track? (r : Report) (name : String) : Option TrackReport := r.tracks.find? (·.name == name)

/-- Some track was cut short. -/
def wasCancelled (r : Report) : Bool := r.tracks.any (·.cancelled)

/-- The notes scheduled on all tracks. -/
def notesScheduled (r : Report) : Nat := r.tracks.foldr (fun t n => t.notesScheduled + n) 0

/-- The tones that failed on all tracks. -/
def tonesFailed (r : Report) : Nat := r.tracks.foldr (fun t n => t.tonesFailed + n) 0

end Report

/-! ### As a document -/

/-- A count in a document. -/
def countNode (n : Nat) : Node := .scalar (Nat.toDigits 10 n)

/-- A flag in a document. -/
def flagNode (b : Bool) : Node := .scalar (if b then "true" else "false").toList

/-- The document of an entry. -/
def TrackReport.document (r : TrackReport) : Node :=
  .mapping [
    ("name".toList, .scalar (Scalar.render r.name.toList)),
    ("notesScheduled".toList, countNode r.notesScheduled),
    ("tonesCompleted".toList, countNode r.tonesCompleted),
    ("tonesFailed".toList, countNode r.tonesFailed),
    ("cancelled".toList, flagNode r.cancelled)]

/-- The document of a report. -/
def Report.document (r : Report) : Node :=
  .mapping [("tracks".toList, .list (r.tracks.map TrackReport.document))]

/-- The YAML text of a report. -/
def Report.toYaml (r : Report) : String := String.ofList r.document.render

end SongSheet.Playback
