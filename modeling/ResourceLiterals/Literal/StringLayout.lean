import ResourceLiterals.Layout.Render
import ResourceLiterals.Literal.Escape

/-!
# The layout of string literals

A content is laid out in one of two ways.

* Text is written character by character.  Every character is a group of its own: it stands on the
  current line or, if it does not fit, on a continuation line after a backslash and a line break.
  When the literal as a whole does not fit, the line ends of the content also end lines of the
  literal.
* Everything else is written as blocks of hex escapes, one block per line, as many to a block as
  fit between the start column and the width.

A reader skips the blanks that start a continuation line, so a blank that must survive there is
escaped.
-/

namespace ResourceLiterals.Literal

open Layout
open Log (Record)

/-! ## Text -/

/-- A backslash, a line break, and `tail` at the start of the next line. -/
def continuation (tail : String) : Doc :=
  (.text "\\" ++ .hardline) ++ .text tail

/-- The escape on the current line, or on a continuation line if it does not fit. -/
def breakable (escape : String) : Doc :=
  .group (.ifFlat (.text escape) (continuation (" " ++ escape)))

/-- The layout of one byte, which depends on the byte that follows. -/
def charDoc (current : UInt8) (next : Option UInt8) : Doc :=
  if current = space then
    .group (.ifFlat (.text " ") (continuation "\\ "))
  else if current = carriageReturn ∧ next = some lineFeed then
    -- The line ends after the line feed.
    breakable "\\r"
  else if current = carriageReturn ∨ current = lineFeed then
    let escape := if current = carriageReturn then "\\r" else "\\n"
    -- A bare backslash keeps a blank that starts the next line from being skipped.
    let tail := if next = some space then "\\" else " "
    .ifFlat (.text escape) (breakable escape ++ continuation tail)
  else
    breakable (charEscape current)

/-- The layouts of the bytes of a text, one by one. -/
def charDocs : Bytes → List Doc
  | [] => []
  | byte :: rest => charDoc byte rest.head? :: charDocs rest

/-- The layout of a content that looks like text. -/
def textDoc (data : Bytes) : Doc :=
  .group (.join (.text "\"" :: charDocs data ++ [.text "\""]))

/-! ## Hex blocks -/

/-- How many hex escapes go into the space between `column` and `width`. -/
def blockRoom (column width : Int) : Int :=
  (width - column) / hexEscapeWidth

/-- How many bytes a line of hex escapes holds, which is never less than one. -/
def blockLength (column width : Int) : Nat :=
  (max 1 (blockRoom column width)).toNat

theorem blockLength_eq (column width : Int) :
    (blockLength column width : Int) = max 1 ((width - column) / 4) := by
  have hroom : blockRoom column width = (width - column) / 4 := rfl
  rw [blockLength, hroom]
  omega

theorem one_le_blockLength (column width : Int) : 1 ≤ blockLength column width := by
  have heq := blockLength_eq column width
  omega

/-- A list cut into stretches of `length` items, the last one possibly shorter. -/
def blocks (length : Nat) : List α → List (List α)
  | [] => []
  | first :: rest =>
    (first :: rest.take (length - 1)) :: blocks length (rest.drop (length - 1))
termination_by items => items.length

/-- The hex escapes of a stretch of bytes. -/
def hexBlock (data : Bytes) : String :=
  String.join (data.map hexEscape)

/-- The layouts of the lines of a hex blob; all but the first one start with a blank. -/
def blockDocs : List Bytes → List Doc
  | [] => []
  | first :: rest => .text (hexBlock first) :: rest.map fun block => .text (" " ++ hexBlock block)

/-- The layout of a content that does not look like text. -/
def blobDoc (column width : Int) (data : Bytes) : Doc :=
  (.text "\"" ++
    .separate (.text "\\" ++ .hardline) (blockDocs (blocks (blockLength column width) data))) ++
    .text "\""

def blobReports (column width : Int) (data : Bytes) : List Record :=
  let length := blockLength column width
  (if blockRoom column width < 1 then
    [⟨.debug, s!"No room for a hex escape (column={column}, width={width}); " ++
      "using one escape per line"⟩]
  else []) ++
    [⟨.trace, s!"Hex blob: {(blocks length data).length} block(s) of up to {length} byte(s)"⟩]

/-! ## Either way -/

/-- The layout of a string literal that starts at `column`, in lines of about `width`. -/
def stringDoc (column width : Int) (data : Bytes) : Doc :=
  if looksLikeText data then textDoc data else blobDoc column width data

def stringReports (column width : Int) (data : Bytes) : List Record :=
  if looksLikeText data then [] else blobReports column width data

/-! ## Lists -/

/-- How far the elements of a list are indented under its bracket. -/
def listIndent : Int := 2

/-- An element of a list, laid out from the column at which it turns out to start. -/
def elementDoc (width : Int) (element : Bytes) : Doc :=
  .column (fun column => stringDoc column width element)
    (fun column => stringReports column width element)

/-- The layout of a list of string literals. -/
def listDoc (width : Int) (elements : List Bytes) : Doc :=
  if elements.isEmpty then
    .text "[]"
  else
    let contents := Doc.separateMap (.text " ;" ++ .brk 1) (elementDoc width) elements
    .group ((.text "[ " ++ .nest listIndent contents) ++ .text " ]")

end ResourceLiterals.Literal
