/-
SongSheet/Yaml/Event.lean

The events of a YAML document.

A document is read as a list of events: its scalars and aliases, and the starts
and ends of its lists and mappings.  What is open is a stack of frames, the
innermost first, and each frame says what comes next in it.  A step reads one
event and looks at no more tokens than it needs, so that the events in front of a
mistake are found.

A node that is left out is an empty scalar without quotes.
-/
import SongSheet.Yaml.Token

namespace SongSheet.Yaml

/-- An event of a document; a node may be given a name by an anchor. -/
inductive Event where
  | scalar (anchor : Option (List Char)) (text : List Char) (style : Style) (tag : Option Tag)
  | alias (name : List Char)
  | listStart (anchor : Option (List Char))
  | listEnd
  | mappingStart (anchor : Option (List Char))
  | mappingEnd
  deriving DecidableEq, Repr

namespace Event

/-- The tag handles, and what they stand for. -/
abbrev Handles := List (List Char × Tag)

/-- The handles that need no directive. -/
def defaultHandles : Handles :=
  [(['!'], Tag.bang), (['!', '!'], Tag.ofText "tag:yaml.org,2002:".toList)]

/-- The tag that a handle and a suffix stand for. -/
def resolve (handles : Handles) (handle : List Char) (suffix : Tag) : Option Tag :=
  if handle = [] then some suffix else (handles.lookup handle).map (· ++ suffix)

/-- What comes next inside a list or mapping. -/
inductive Frame where
  /-- An item of a block list. -/
  | item
  /-- An item of a block list without an indentation of its own. -/
  | dash
  /-- A key of a block mapping. -/
  | key
  /-- The value of a key of a block mapping. -/
  | value
  /-- An item of a list in brackets. -/
  | flowItem (first : Bool)
  /-- The key of a mapping of one entry, which stands in a list without braces. -/
  | pairKey
  | pairValue
  | pairEnd
  /-- A key of a mapping in braces. -/
  | flowKey (first : Bool)
  | flowValue
  /-- The value that an item without a key indicator does not have. -/
  | flowNothing
  deriving DecidableEq, Repr

/-- An event, the frames that are open behind it, and the tokens behind it. -/
abbrev Step := Event × List Frame × List Token

/-- A node that is left out. -/
def nothing : Event := .scalar none [] .plain none

/-! ### Nodes -/

/-- The properties in front of a node: an anchor and a tag. -/
structure Properties where
  anchor : Option (List Char)
  tag : Option Tag

/-- Reads the properties in front of a node, in either order. -/
def properties (handles : Handles) : List Token → Option (Properties × List Token)
  | .anchor a :: .tag h s :: ts => (resolve handles h s).map fun tag => (⟨some a, some tag⟩, ts)
  | .tag h s :: .anchor a :: ts => (resolve handles h s).map fun tag => (⟨some a, some tag⟩, ts)
  | .anchor a :: ts => some (⟨some a, none⟩, ts)
  | .tag h s :: ts => (resolve handles h s).map fun tag => (⟨none, some tag⟩, ts)
  | ts => some (⟨none, none⟩, ts)

/-- Reads a node behind its properties.  A node of which only the properties are
written is empty; the tag `!` says nothing of a scalar that is written. -/
def body (p : Properties) (block dashes : Bool) (frames : List Frame) : List Token → Option Step
  | [] => none
  | t :: ts =>
      match t with
      | .scalar text style =>
          some (.scalar p.anchor text style (p.tag.filter (· != .bang)), frames, ts)
      | .flowListStart => some (.listStart p.anchor, .flowItem true :: frames, ts)
      | .flowMappingStart => some (.mappingStart p.anchor, .flowKey true :: frames, ts)
      | _ =>
          if dashes && t == .blockEntry then some (.listStart p.anchor, .dash :: frames, t :: ts)
          else if block && t == .blockListStart then some (.listStart p.anchor, .item :: frames, ts)
          else if block && t == .blockMappingStart then
            some (.mappingStart p.anchor, .key :: frames, ts)
          else if p.anchor.isSome || p.tag.isSome then
            some (.scalar p.anchor [] .plain p.tag, frames, t :: ts)
          else none

/-- Reads a node or an alias.  Outside brackets blocks may stand here, and behind a
key a list may stand without an indentation of its own. -/
def node (handles : Handles) (block dashes : Bool) (frames : List Frame) :
    List Token → Option Step
  | .alias name :: ts => some (.alias name, frames, ts)
  | ts => (properties handles ts).bind fun (p, ts) => body p block dashes frames ts

/-- Reads a node, which is left out in front of one of the given tokens. -/
def nodeUnless (ends : List Token) (handles : Handles) (block dashes : Bool)
    (frames : List Frame) : List Token → Option Step
  | [] => none
  | t :: ts =>
      if ends.contains t then some (nothing, frames, t :: ts)
      else node handles block dashes frames (t :: ts)

/-! ### Steps -/

/-- The tokens behind the comma in front of all items but the first. -/
def behindComma (first : Bool) (close : Token) : List Token → Option (List Token)
  | [] => none
  | t :: ts =>
      if first || t == close then some (t :: ts) else if t == .flowEntry then some ts else none

/-- Reads an item of a list in brackets, or its end. -/
def flowItem (handles : Handles) (frames : List Frame) : List Token → Option Step
  | .flowListEnd :: ts => some (.listEnd, frames, ts)
  | .key :: ts => some (.mappingStart none, .pairKey :: .flowItem false :: frames, ts)
  | ts => node handles false false (.flowItem false :: frames) ts

/-- Reads a key of a mapping in braces, or its end. -/
def flowKey (handles : Handles) (frames : List Frame) : List Token → Option Step
  | .flowMappingEnd :: ts => some (.mappingEnd, frames, ts)
  | .key :: ts =>
      nodeUnless [.value, .flowEntry, .flowMappingEnd] handles false false (.flowValue :: frames) ts
  | ts => node handles false false (.flowNothing :: frames) ts

/-- Reads the event that comes next in a frame, which is open inside `frames`. -/
def inFrame (handles : Handles) (frame : Frame) (frames : List Frame) (t : Token)
    (ts : List Token) : Option Step :=
  match frame with
  | .item =>
      match t with
      | .blockEntry =>
          nodeUnless [.blockEntry, .blockEnd] handles true false (.item :: frames) ts
      | .blockEnd => some (.listEnd, frames, ts)
      | _ => none
  | .dash =>
      match t with
      | .blockEntry =>
          nodeUnless [.blockEntry, .key, .value, .blockEnd] handles true false (.dash :: frames) ts
      | _ => some (.listEnd, frames, t :: ts)
  | .key =>
      match t with
      | .key => nodeUnless [.key, .value, .blockEnd] handles true true (.value :: frames) ts
      | .blockEnd => some (.mappingEnd, frames, ts)
      | _ => none
  | .value =>
      match t with
      | .value => nodeUnless [.key, .value, .blockEnd] handles true true (.key :: frames) ts
      | _ => some (nothing, .key :: frames, t :: ts)
  | .flowItem first => (behindComma first .flowListEnd (t :: ts)).bind (flowItem handles frames)
  | .pairKey =>
      -- what stands in place of a key that is left out is passed over
      if [.value, .flowEntry, .flowListEnd].contains t then some (nothing, .pairValue :: frames, ts)
      else node handles false false (.pairValue :: frames) (t :: ts)
  | .pairValue =>
      match t with
      | .value =>
          nodeUnless [.flowEntry, .flowListEnd] handles false false (.pairEnd :: frames) ts
      | _ => some (nothing, .pairEnd :: frames, t :: ts)
  | .pairEnd => some (.mappingEnd, frames, t :: ts)
  | .flowKey first => (behindComma first .flowMappingEnd (t :: ts)).bind (flowKey handles frames)
  | .flowValue =>
      match t with
      | .value =>
          nodeUnless [.flowEntry, .flowMappingEnd] handles false false (.flowKey false :: frames) ts
      | _ => some (nothing, .flowKey false :: frames, t :: ts)
  | .flowNothing => some (nothing, .flowKey false :: frames, t :: ts)

/-- Reads events until no frame is open: the events in front of the first mistake,
and the tokens behind them where there is none. -/
def untilClosed (handles : Handles) : Nat → List Frame → List Token →
    List Event × Option (List Token)
  | _, [], ts => ([], some ts)
  | 0, _, _ => ([], none)
  | _, _, [] => ([], none)
  | fuel + 1, frame :: frames, t :: ts =>
      match inFrame handles frame frames t ts with
      | none => ([], none)
      | some (e, frames, ts) =>
          let (es, rest) := untilClosed handles fuel frames ts
          (e :: es, rest)

/-- Reads the root of a document, with all that it holds.  Every token is the cause
of four events at most. -/
def ofRoot (handles : Handles) (ts : List Token) : List Event × Option (List Token) :=
  match node handles true false [] ts with
  | none => ([], none)
  | some (e, frames, rest) =>
      let (es, rest) := untilClosed handles (4 * ts.length) frames rest
      (e :: es, rest)

end Event

end SongSheet.Yaml
