/-!
# Bytes as escapes

Contents are lists of bytes, and a literal shows each byte either as itself or as an escape.

* `needsHexEscape` singles out the bytes that have no shorter form than `\xHH`.
* `looksLikeText` decides from their share whether a content is shown as text.
* `charEscape` is the form of one byte inside a text literal.
-/

namespace ResourceLiterals

/-- The content of a resource. -/
abbrev Bytes := List UInt8

namespace Literal

/-- The ASCII codes that the layout of literals treats in their own way. -/
def tab : UInt8 := 0x09
def lineFeed : UInt8 := 0x0A
def carriageReturn : UInt8 := 0x0D
def space : UInt8 := 0x20
def quote : UInt8 := 0x22
def backslash : UInt8 := 0x5C
def delete : UInt8 := 0x7F

/-- Whether a byte can only be shown as `\xHH`: the control codes but for tab, line feed and
carriage return, and everything from `delete` on. -/
def needsHexEscape (byte : UInt8) : Bool :=
  byte ≥ 0x80 || byte == delete ||
    (byte < space && byte != tab && byte != lineFeed && byte != carriageReturn)

/-- Whether a content is shown as text: at most one byte in ten needs a hex escape. -/
def looksLikeText (data : Bytes) : Bool :=
  data.countP needsHexEscape * 10 ≤ data.length

/-- The digit for a value below sixteen, in upper case. -/
def hexDigit (value : Nat) : Char :=
  if value < 10 then Char.ofNat ('0'.toNat + value) else Char.ofNat ('A'.toNat + (value - 10))

/-- The escape `\xHH` of a byte. -/
def hexEscape (byte : UInt8) : String :=
  String.ofList ['\\', 'x', hexDigit (byte.toNat / 16), hexDigit (byte.toNat % 16)]

/-- How many characters `hexEscape` takes. -/
def hexEscapeWidth : Nat := 4

/-- The form of a byte that is neither a blank nor a line end, inside a text literal. -/
def charEscape (byte : UInt8) : String :=
  if byte = tab then "\\t"
  else if byte = quote then "\\\""
  else if byte = backslash then "\\\\"
  else if needsHexEscape byte then hexEscape byte
  else String.singleton (Char.ofNat byte.toNat)

end Literal

end ResourceLiterals
