/-
SongSheet/Config.lean

The configuration of a playback, and reading it from YAML.

A configuration is a mapping with two fields, both of them optional and both a
positive number of seconds:

    look-ahead-secs: 5.0       how far a track may be ahead of the clock
    throttle-tick-secs: 1.0    how long a track waits when it is further ahead

All fields are read, in the order of the document, before a value is judged; the
look-ahead is judged first.  Seconds become whole nanoseconds; a number that is
finite and positive, but larger than any length of time, ends the program.
-/
import SongSheet.Binary.Layout
import SongSheet.Clock
import SongSheet.Text.Blank
import SongSheet.Text.Quoted
import SongSheet.Text.Split
import SongSheet.Yaml.Document
import SongSheet.Yaml.Plain

namespace SongSheet

open Yaml

/-- The timing of a playback, in nanoseconds. -/
structure Config where
  /-- How far the cursor of a track may be ahead of the clock. -/
  lookAhead : Nat
  /-- How long a track waits before it looks again. -/
  throttleTick : Nat
  deriving DecidableEq, Repr

namespace Config

/-- Five seconds ahead, and a second of waiting. -/
def initial : Config := ⟨5 * Clock.second, Clock.second⟩

/-- The fields of a configuration. -/
inductive Field where
  | lookAhead
  | throttleTick
  deriving DecidableEq, Repr

namespace Field

/-- All fields. -/
def all : List Field := [lookAhead, throttleTick]

/-- The key of a field. -/
def key : Field → String
  | lookAhead => "look-ahead-secs"
  | throttleTick => "throttle-tick-secs"

/-- The field with a key. -/
def ofKey (s : String) : Option Field := all.find? (·.key == s)

end Field

/-! ### What is found in a document -/

/-- What stands where something else was expected. -/
inductive Found where
  | unit
  | boolean (b : Bool)
  | integer (n : Int)
  | float (x : Double)
  | text (s : List Char)
  | list
  | mapping

namespace Found

/-- An integer, with its width where it is beyond 64 bits. -/
def integerText (n : Int) : String :=
  let wide :=
    if n < -(Nat.pow 2 63 : Nat) then " as i128"
    else if Nat.pow 2 64 ≤ n then " as u128"
    else ""
  s!"integer `{n}`{wide}"

/-- A float, with a point. -/
def floatText (x : Double) : String :=
  let layout := { Layout.running with wholeEnd := ['.', '0'] }
  s!"floating point `{String.ofList (layout.render x)}`"

/-- The wording of what was found. -/
def describe : Found → String
  | unit => "unit value"
  | boolean b => s!"boolean `{b}`"
  | integer n => integerText n
  | float x => floatText x
  | text s => s!"string {String.ofList (Text.quoted s)}"
  | list => "sequence"
  | mapping => "map"

/-- What an unquoted scalar is found to be. -/
def ofPlain (s : List Char) : Found :=
  match Plain.ofText s with
  | .null => unit
  | .boolean b => boolean b
  | .integer n => integer n
  | .float x => float x
  | .text => text s

end Found

/-! ### Errors -/

/-- Where in a configuration something is wrong. -/
inductive Place where
  | whole
  | value (field : Field)
  /-- The value of a key that is an alias. -/
  | unnamedValue
  deriving DecidableEq, Repr

/-- The wording of a place, in front of what is wrong there. -/
def Place.label : Place → String
  | whole => ""
  | value field => field.key ++ ": "
  | unnamedValue => "?: "

/-- Why a configuration is refused. -/
inductive Refusal where
  | notPositive (field : Field) (value : Double)
  /-- Something else stands in place of a field's value, of a key, or of the mapping. -/
  | invalidType (place : Place) (found : Found) (expected : String)
  /-- A text is not what its tag says. -/
  | invalidValue (place : Place) (text : List Char) (expected : String)
  | unknownField (name : String)
  | duplicateField (field : Field)
  /-- The document is not well formed, or is more than one. -/
  | unreadable

namespace Refusal

/-- The wording of a refusal; nothing is said of documents that are not well formed. -/
def wording : Refusal → Option String
  | notPositive field value =>
      let shown := String.ofList (Layout.running.render value)
      some s!"{field.key} must be a positive number of seconds, got {shown}"
  | invalidType place found expected =>
      some s!"{place.label}invalid type: {found.describe}, expected {expected}"
  | invalidValue place text expected =>
      some s!"{place.label}invalid value: {(Found.text text).describe}, expected {expected}"
  | unknownField name =>
      let known := s!"`{Field.lookAhead.key}` or `{Field.throttleTick.key}`"
      some s!"unknown field `{name}`, expected {known}"
  | duplicateField field => some s!"duplicate field `{field.key}`"
  | unreadable => none

/-- The words of which a message has to hold one to be shown. -/
def tellingWords : List String :=
  ["must be a positive number", "unknown field", "duplicate field", "invalid type"]

/-- What stands in front of a place in the text of a document. -/
def placeWord : String := " at line "

/-- The message of a refusal, up to the first place that it speaks of. -/
def message (r : Refusal) : Option String :=
  r.wording.bind fun s =>
    let cs := s.toList
    if tellingWords.any fun w => (Text.before? w.toList cs).isSome then
      some (String.ofList ((Text.before? placeWord.toList cs).getD cs))
    else none

end Refusal

/-- What comes of reading a configuration. -/
inductive Reading where
  | config (c : Config)
  | refused (r : Refusal)
  /-- A number of seconds that no length of time can hold: the program ends. -/
  | crash

/-! ### Reading the fields -/

/-- The name that a mapping has in messages. -/
def mappingName : String := "struct RawPlaybackConfig"

/-- The tags of the kinds of scalars. -/
def kindTag (kind : String) : Tag := Tag.ofText ("tag:yaml.org,2002:" ++ kind).toList

/-- What a scalar with this style and tag is found to be; where the text is not what
the tag says, what it should have been. -/
def foundScalar (s : List Char) (style : Style) (tag : Option Tag) : Except String Found :=
  match tag with
  | none => .ok (if style = .plain then .ofPlain s else .text s)
  | some tag =>
      if tag = kindTag "bool" then
        if Plain.trueWords.contains s then .ok (.boolean true)
        else if Plain.falseWords.contains s then .ok (.boolean false)
        else .error "a boolean"
      else if tag = kindTag "int" then
        match Plain.readInteger s with
        | some n => .ok (.integer n)
        | none => .error "an integer"
      else if tag = kindTag "float" then
        match Plain.readFloat s with
        | some x => .ok (.float x)
        | none => .error "a float"
      else if tag = kindTag "null" then
        if Plain.nullWords.contains s then .ok .unit else .error "null"
      else if Tag.bang.isPrefixOf tag ∧ style = .plain then .ok (.ofPlain s)
      else .ok (.text s)

/-- A scalar where something else was expected. -/
def misplaced (place : Place) (expected : String) (s : List Char) (style : Style)
    (tag : Option Tag) : Refusal :=
  match foundScalar s style tag with
  | .ok found => .invalidType place found expected
  | .error kind => .invalidValue place s kind

/-- Reads the value of a field: `none` where it is null. -/
def readValue (place : Place) : Content → Except Refusal (Option Double)
  | .scalar s style tag =>
      let isNumber := style = .plain ∨ (style = .literal ∧ tag = some (kindTag "float"))
      let number : Except Refusal (Option Double) :=
        match if isNumber then Plain.readFloat s else none with
        | some x => .ok (some x)
        | none => .error (misplaced place "f64" s style tag)
      if style ≠ .plain then number
      else match tag with
        | none => if Plain.isNull s then .ok none else number
        | some tag =>
            if tag = kindTag "null" then
              if Plain.nullWords.contains s then .ok none
              else .error (.invalidValue .whole s "null")
            else number
  | .list => .error (.invalidType place .list "f64")
  | .mapping => .error (.invalidType place .mapping "f64")

/-- The field that a key names. -/
def readKey : Content → Except Refusal Field
  | .scalar key _ _ =>
      match Field.ofKey (String.ofList key) with
      | some field => .ok field
      | none => .error (.unknownField (String.ofList key))
  | .list => .error (.invalidType .whole .list "field identifier")
  | .mapping => .error (.invalidType .whole .mapping "field identifier")

/-- The place of the value of a key. -/
def placeOfValue (field : Field) : Part → Place
  | .named _ => .unnamedValue
  | _ => .value field

/-- The fields read so far, with their values. -/
abbrev Fields := List (Field × Option Double)

/-- Reads the fields of a mapping, up to its end. -/
def readFields : Fields → List Part → Except Refusal Fields
  | _, [] => .error .unreadable
  | fields, key :: parts =>
      match key.content? with
      | none => .ok fields
      | some content =>
          match readKey content with
          | .error r => .error r
          | .ok field =>
              if (fields.lookup field).isSome then .error (.duplicateField field)
              else match parts with
                | [] => .error .unreadable
                | value :: parts =>
                    match value.content? with
                    | none => .error .unreadable
                    | some content =>
                        match readValue (placeOfValue field key) content with
                        | .error r => .error r
                        | .ok x => readFields ((field, x) :: fields) parts

/-- Reads the fields of a document; one that is empty has none. -/
def readRoot (d : Document) : Except Refusal Fields :=
  match d.parts with
  | [] => if d.complete then .ok [] else .error .unreadable
  | root :: parts =>
      match root.content? with
      | none => .error .unreadable
      | some (.scalar s style tag) =>
          if s = [] ∧ style = .plain then .ok []
          else .error (misplaced .whole mappingName s style tag)
      | some .list => .error (.invalidType .whole .list mappingName)
      | some .mapping => readFields [] parts

/-! ### Judging the values -/

/-- The length of time of a field's value; the default where there is none. -/
def lengthOf (field : Field) (initial : Nat) : Option Double → Except Refusal (Option Nat)
  | none => .ok (some initial)
  | some x =>
      if x.isFinite && (Binary.zero false).lt x then .ok (Clock.nanoseconds x)
      else .error (.notPositive field x)

/-- The configuration of two values, either of which may be absent. -/
def ofValues (lookAhead throttleTick : Option Double) : Reading :=
  match lengthOf .lookAhead initial.lookAhead lookAhead with
  | .error r => .refused r
  | .ok none => .crash
  | .ok (some a) =>
      match lengthOf .throttleTick initial.throttleTick throttleTick with
      | .error r => .refused r
      | .ok none => .crash
      | .ok (some t) => .config ⟨a, t⟩

/-- The configuration of the fields of a document. -/
def ofFields (fields : Fields) : Reading :=
  ofValues ((fields.lookup .lookAhead).bind id) ((fields.lookup .throttleTick).bind id)

/-- The configuration of a YAML text.  A text of blanks is the initial one. -/
def ofYaml (text : List Char) : Reading :=
  if (Text.trim text).isEmpty then .config initial
  else
    let document := Document.ofText text
    match readRoot document with
    | .error r => .refused r
    | .ok fields => if document.complete then ofFields fields else .refused .unreadable

end Config

end SongSheet
