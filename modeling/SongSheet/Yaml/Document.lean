/-
SongSheet/Yaml/Document.lean

The first document of a YAML text.

A document is the list of its parts: its scalars, and the starts and ends of its
lists and mappings.  The parts are listed as far as the text is well formed, and
`complete` says that the document was read to its end and that nothing follows it.

An alias is the part that it names.  The numbers of names are given out in order:
each anchor takes the number of different names so far, so that a name that is
given again has the number of the next new one.  An alias stands for the last
part of the whole document with the number that its name had at the alias.
-/
import SongSheet.Yaml.Event

namespace SongSheet.Yaml

/-- What stands in a place of a document; of a list or mapping only its start. -/
inductive Content where
  | scalar (text : List Char) (style : Style) (tag : Option Tag)
  | list
  | mapping
  deriving DecidableEq, Repr

/-- A part of a document. -/
inductive Part where
  | node (content : Content)
  /-- An alias for this. -/
  | named (content : Content)
  /-- The end of a list or mapping. -/
  | close
  deriving DecidableEq, Repr

namespace Part

/-- What a part holds. -/
def content? : Part → Option Content
  | node c => some c
  | named c => some c
  | close => none

end Part

/-- A document, as far as it is well formed. -/
structure Document where
  /-- Empty for a text without a document. -/
  parts : List Part
  complete : Bool
  deriving Repr

namespace Document

/-! ### Names -/

/-- The names that anchors have given so far. -/
structure Names where
  /-- The number of each name. -/
  numbers : List (List Char × Nat)
  /-- What has been given each number, the latest first. -/
  targets : List (Nat × Content)

namespace Names

/-- No names. -/
def none : Names := ⟨[], []⟩

/-- Gives something a name. -/
def give (names : Names) (name : List Char) (c : Content) : Names :=
  let number := names.numbers.length
  ⟨(name, number) :: names.numbers.filter (·.1 != name), (number, c) :: names.targets⟩

/-- Gives something the name of its anchor. -/
def giveAny (names : Names) (anchor : Option (List Char)) (c : Content) : Names :=
  match anchor with
  | some name => names.give name c
  | .none => names

/-- A name has one number at most. -/
theorem nodup_give {names : Names} (h : (names.numbers.map (·.1)).Nodup) (name : List Char)
    (c : Content) : ((names.give name c).numbers.map (·.1)).Nodup := by
  rw [give, List.map_cons, List.nodup_cons]
  constructor
  · simp [List.mem_map]
  · exact h.sublist (List.filter_sublist.map _)

end Names

/-- A part of which aliases are not resolved yet. -/
inductive Draft where
  | part (p : Part)
  | named (number : Nat)

/-- The drafts of events, and the names given in them; up to the first alias whose name
has not been given, which makes the answer `false`. -/
def drafts : Names → List Event → List Draft × Names × Bool
  | names, [] => ([], names, true)
  | names, e :: es =>
      let node (anchor : Option (List Char)) (c : Content) : List Draft × Names × Bool :=
        let (ds, names, known) := drafts (names.giveAny anchor c) es
        (.part (.node c) :: ds, names, known)
      match e with
      | .scalar anchor text style tag => node anchor (.scalar text style tag)
      | .listStart anchor => node anchor .list
      | .mappingStart anchor => node anchor .mapping
      | .listEnd | .mappingEnd =>
          let (ds, names, known) := drafts names es
          (.part .close :: ds, names, known)
      | .alias name =>
          match names.numbers.lookup name with
          | none => ([], names, false)
          | some number =>
              let (ds, names, known) := drafts names es
              (.named number :: ds, names, known)

/-- The part of a draft, once all names are given. -/
def Draft.resolve (names : Names) : Draft → Option Part
  | part p => some p
  | named number => (names.targets.lookup number).map .named

/-- The parts of events; the answer says whether all aliases are known. -/
def partsOfEvents (es : List Event) : List Part × Bool :=
  let (ds, names, known) := drafts .none es
  (ds.filterMap (·.resolve names), known)

/-! ### Documents -/

/-- Reads the directives in front of a document: the handles they declare.  A version
may be given once and has to be 1.1 or 1.2, and a handle may be declared once. -/
def directives : Bool → Event.Handles → List Token → Option (Event.Handles × List Token)
  | seen, handles, .version major minor :: ts =>
      if seen || major != 1 || !(minor == 1 || minor == 2) then none
      else directives true handles ts
  | seen, handles, .tagDirective handle text :: ts =>
      if (handles.lookup handle).isSome then none
      else directives seen ((handle, text) :: handles) ts
  | _, handles, ts => some (handles, ts)

/-- Nothing but the end of the text is left behind a document. -/
def nothingFollows : List Token → Bool
  | .documentEnd :: ts => nothingFollows ts
  | [.streamEnd] => true
  | _ => false

/-- A document of events, with the tokens behind it where it is well formed. -/
def ofEvents (es : List Event) (rest : Option (List Token)) : Document :=
  let (ps, known) := partsOfEvents es
  ⟨ps, known && rest.any nothingFollows⟩

/-- A document from its root on. -/
def ofRoot (handles : Event.Handles) (ts : List Token) : Document :=
  let (es, rest) := Event.ofRoot handles ts
  ofEvents es rest

/-- A document behind its start marker, which may be empty. -/
def ofContent (handles : Event.Handles) (ts : List Token) : Document :=
  match ts with
  | .version .. :: _ | .tagDirective .. :: _ | .documentStart :: _ | .documentEnd :: _
  | .streamEnd :: _ => ofEvents [Event.nothing] (some ts)
  | ts => ofRoot handles ts

/-- The first document of a list of tokens. -/
def ofTokens (ts : List Token) : Document :=
  match ts with
  | [.streamEnd] => ⟨[], true⟩
  | .version .. :: _ | .tagDirective .. :: _ | .documentStart :: _ =>
      match directives false [] ts with
      | some (handles, .documentStart :: ts) => ofContent (handles ++ Event.defaultHandles) ts
      | _ => ⟨[], false⟩
  | ts => ofRoot Event.defaultHandles ts

/-- The first document of a text. -/
def ofText (text : List Char) : Document := ofTokens (tokens text)

end Document

end SongSheet.Yaml
