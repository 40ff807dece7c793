/-
SongSheet/Yaml/Node.lean

YAML documents, and writing them in block style.

A document is a tree of scalars, lists and mappings; a scalar holds the text
that is written for it.  A list item starts with `- ` and its further lines are
indented by two; a mapping has a line `key: value` per field.  A list under a key
is not indented, a mapping under a key is; an empty list or mapping takes no
lines of its own.
-/

namespace SongSheet.Yaml

/-- A YAML document. -/
inductive Node where
  | scalar (written : List Char)
  | list (items : List Node)
  | mapping (fields : List (List Char × Node))

namespace Node

/-- A line two columns further to the right. -/
def indent (l : List Char) : List Char := ' ' :: ' ' :: l

/-- The lines of a list item. -/
def itemLines : List (List Char) → List (List Char)
  | [] => []
  | l :: ls => ('-' :: ' ' :: l) :: ls.map indent

/-- The lines of a field whose value has the given lines. -/
def fieldLines (key : List Char) : Node → List (List Char) → List (List Char)
  | list (_ :: _), ls => (key ++ [':']) :: ls
  | mapping (_ :: _), ls => (key ++ [':']) :: ls.map indent
  | _, ls => match ls with
    | [] => [key ++ [':']]
    | l :: ls => (key ++ ':' :: ' ' :: l) :: ls

mutual

/-- The lines of a document. -/
def lines : Node → List (List Char)
  | scalar written => [written]
  | list [] => [['[', ']']]
  | list (n :: ns) => listLines (n :: ns)
  | mapping [] => [['\x7b', '\x7d']]
  | mapping (f :: fs) => mappingLines (f :: fs)

/-- The lines of list items. -/
def listLines : List Node → List (List Char)
  | [] => []
  | n :: ns => itemLines n.lines ++ listLines ns

/-- The lines of mapping fields. -/
def mappingLines : List (List Char × Node) → List (List Char)
  | [] => []
  | (key, n) :: fs => fieldLines key n n.lines ++ mappingLines fs

end

/-- The text of a document; every line ends in a line feed. -/
def render (n : Node) : List Char := n.lines.flatMap (· ++ ['\n'])

end Node

end SongSheet.Yaml
