/-
SongSheet/SheetDocument.lean

The YAML document of a sheet.

Everything a sheet holds is written, in the order in which it holds it; numbers
with the fewest digits that read back.
-/
import SongSheet.Sheet
import SongSheet.Binary.Layout
import SongSheet.Yaml.Scalar
import SongSheet.Yaml.Node

namespace SongSheet

open Yaml

namespace Note

/-- The document of a note. -/
def document (n : Note) : Node :=
  .mapping [
    ("pitches".toList, .list (n.pitches.map fun p => .scalar (Layout.documentSingle.render p))),
    ("duration".toList, .scalar (Layout.documentDouble.render n.duration)),
    ("timbre".toList, .scalar n.timbre.name.toList),
    ("pan".toList, .scalar (Layout.documentSingle.render n.pan)),
    ("volume".toList, .scalar (Layout.documentSingle.render n.volume))]

end Note

namespace Track

/-- The document of a track. -/
def document (t : Track) : Node :=
  .mapping [
    ("name".toList, .scalar (Scalar.render t.name.toList)),
    ("notes".toList, .list (t.notes.map Note.document))]

end Track

namespace Sheet

/-- The document of a sheet. -/
def document (s : Sheet) : Node := .mapping [("tracks".toList, .list (s.tracks.map Track.document))]

/-- The YAML text of a sheet. -/
def toYaml (s : Sheet) : String := String.ofList s.document.render

end Sheet

end SongSheet
