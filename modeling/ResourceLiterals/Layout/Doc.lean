import ResourceLiterals.Log.Record

/-!
# Layout documents

A document describes how a value may be laid out, without fixing where its lines end.  It is built
from a handful of combinators and then resolved against a width.

* The type `Doc` with its eight kinds of node.
* The combinators that keep concatenations flat: `Doc.join`, `++`, `Doc.separate`.
-/

namespace ResourceLiterals.Layout

open Log (Record)

/-- A document to be laid out.

A group is laid out flat when its own content fits in the rest of the line, and broken otherwise;
`ifFlat` and `brk` follow the enclosing group.  A `column` node builds the rest of a document from
the column at which it starts, and says what there is to report whenever that happens. -/
inductive Doc where
  /-- Literal text, which is expected to hold no line break. -/
  | text (content : String)
  /-- The parts one after the other. -/
  | concat (parts : List Doc)
  /-- A line break that never fits flat. -/
  | hardline
  /-- So many blanks when flat, a line break when broken. -/
  | brk (width : Int)
  /-- One of two documents, by the mode of the enclosing group. -/
  | ifFlat (flat broken : Doc)
  /-- A unit that is either flat or broken as a whole. -/
  | group (child : Doc)
  /-- Extra indentation for the line breaks inside a document. -/
  | nest (amount : Int) (child : Doc)
  /-- A document that depends on the column at which it starts. -/
  | column (build : Int → Doc) (reports : Int → List Record)

namespace Doc

def empty : Doc := .text ""

/-- What a document contributes to a flat concatenation: the parts of a concatenation, nothing for
the empty text, itself otherwise. -/
def pieces : Doc → List Doc
  | .concat parts => parts
  | .text content => if content = "" then [] else [.text content]
  | doc => [doc]

/-- A concatenation node around two or more pieces; fewer need no node. -/
def ofPieces : List Doc → Doc
  | [] => empty
  | [doc] => doc
  | docs => .concat docs

/-- The documents one after the other, without nested concatenations and empty texts. -/
def join (docs : List Doc) : Doc :=
  ofPieces (docs.flatMap pieces)

instance : Append Doc where
  append first second := join [first, second]

/-- The documents one after the other, with `separator` between each two. -/
def separate (separator : Doc) (docs : List Doc) : Doc :=
  join (docs.intersperse separator)

/-- A document for each item, with `separator` between each two. -/
def separateMap (separator : Doc) (layout : α → Doc) (items : List α) : Doc :=
  separate separator (items.map layout)

end Doc

end ResourceLiterals.Layout
