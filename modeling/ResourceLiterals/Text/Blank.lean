import ResourceLiterals.Text.Ranges

/-!
# Blank characters

Which characters count as blank, and texts without the blanks at their ends.
-/

namespace ResourceLiterals.Text

/-- The code points that are blank. -/
def blankRanges : Ranges :=
  [
    (0x0009, 0x000D), (0x001C, 0x0020), (0x0085, 0x0085), (0x00A0, 0x00A0), (0x1680, 0x1680),
    (0x2000, 0x200A), (0x2028, 0x2029), (0x202F, 0x202F), (0x205F, 0x205F), (0x3000, 0x3000)
  ]

/-- Whether a character is blank in any script. -/
def isBlank (c : Char) : Bool :=
  blankRanges.holds c

/-- A list without its longest end whose members all satisfy `p`. -/
def dropEndWhile (p : α → Bool) (items : List α) : List α :=
  (items.reverse.dropWhile p).reverse

/-- A list without its longest start and its longest end whose members all satisfy `p`. -/
def stripWhile (p : α → Bool) (items : List α) : List α :=
  dropEndWhile p (items.dropWhile p)

/-- A text without the blanks at both ends. -/
def strip (chars : List Char) : List Char :=
  stripWhile isBlank chars

end ResourceLiterals.Text
