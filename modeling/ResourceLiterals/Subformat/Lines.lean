import ResourceLiterals.Literal.Escape
import ResourceLiterals.Text.Split

/-!
# Contents as lists of lines

Every carriage return and every line feed separates two lines.  A separator at the very start or at
the very end of a content is ignored, so that a final line end makes no empty line.  Lines are put
together again with line feeds only.

* `fields` splits at every separator; `splitLines` ignores one at either end.
* `joinLines` is the way back.
-/

namespace ResourceLiterals.Subformat

open Literal (lineFeed carriageReturn)

/-- Whether a byte separates two lines. -/
def isSeparator (byte : UInt8) : Bool :=
  byte == lineFeed || byte == carriageReturn

/-- The stretches of a content between its separators. -/
def fields (data : Bytes) : List Bytes :=
  Text.splitWhere isSeparator data

/-- The lines of a content. -/
def splitLines (data : Bytes) : List Bytes :=
  if data.isEmpty then
    []
  else
    let lines := fields data
    let lines := if data.getLast?.any isSeparator then lines.dropLast else lines
    if data.head?.any isSeparator then lines.drop 1 else lines

/-- The content that consists of the lines, with a line feed between each two. -/
def joinLines (lines : List Bytes) : Bytes :=
  [lineFeed].intercalate lines

@[simp] theorem splitLines_nil : splitLines [] = [] := rfl

@[simp] theorem joinLines_nil : joinLines [] = [] := rfl

end ResourceLiterals.Subformat
