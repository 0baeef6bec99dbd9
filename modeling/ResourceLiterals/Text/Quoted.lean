import ResourceLiterals.Text.Positional
import ResourceLiterals.Text.Printable

/-!
# Quoted text

How a text is shown inside a message: between quotes, with everything escaped that would not show.
-/

namespace ResourceLiterals.Text

/-- The quote that goes around a text: the single one, unless only that occurs inside. -/
def quoteFor (chars : List Char) : Char :=
  if chars.contains '\'' && !chars.contains '"' then '"' else '\''

/-- A character between `delimiter`s. -/
def quotedChar (delimiter c : Char) : List Char :=
  if c = '\\' || c = delimiter then ['\\', c]
  else if c = '\t' then ['\\', 't']
  else if c = '\n' then ['\\', 'n']
  else if c = '\r' then ['\\', 'r']
  else if isPrintable c then [c]
  else if c.toNat < 0x100 then '\\' :: 'x' :: padded 16 2 c.toNat
  else if c.toNat < 0x10000 then '\\' :: 'u' :: padded 16 4 c.toNat
  else '\\' :: 'U' :: padded 16 8 c.toNat

def quotedChars (chars : List Char) : List Char :=
  let delimiter := quoteFor chars
  delimiter :: chars.flatMap (quotedChar delimiter) ++ [delimiter]

def quoted (text : String) : String :=
  String.ofList (quotedChars text.toList)

end ResourceLiterals.Text
