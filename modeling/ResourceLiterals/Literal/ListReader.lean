import ResourceLiterals.Literal.StringReader

/-!
# Reading list literals

A list literal holds string literals between brackets, with a semicolon between each two and
possibly one after the last; blanks may stand around each of them.
-/

namespace ResourceLiterals.Literal

/-- Reads elements up to the closing bracket. -/
def readElements (cursor : Cursor) : Except ReadError (List Bytes × Cursor) :=
  if cursor.rest.head? = some ']' then
    .ok ([], cursor.advance 1)
  else
    match _helement : readString cursor with
    | .error error => .error error
    | .ok (element, after) =>
      let place := after.skipGap
      match _hplace : place.rest with
      | ';' :: _ =>
        match readElements (place.advance 1).skipGap with
        | .error error => .error error
        | .ok (elements, last) => .ok (element :: elements, last)
      | ']' :: _ => .ok ([element], place.advance 1)
      | _ => .error ⟨.noSeparator, place.offset⟩
termination_by cursor.rest.length
decreasing_by
  have element_shorter := length_lt_of_readString _helement
  have gap_shorter := after.length_skipWhile_le isGap
  have rest_shorter := ((after.skipGap).advance 1).length_skipWhile_le isGap
  simp only [Cursor.rest_advance, List.length_drop] at rest_shorter
  simp only [Cursor.skipGap] at *
  omega

/-- Reads a text that is one list literal, with blanks around it. -/
def parseList (text : String) : Except ReadError (List Bytes) := do
  let start := (Cursor.start text).skipGap
  if start.rest.head? ≠ some '[' then
    throw ⟨.noBracket, start.offset⟩
  let (elements, after) ← readElements (start.advance 1).skipGap
  after.expectEnd
  return elements

end ResourceLiterals.Literal
