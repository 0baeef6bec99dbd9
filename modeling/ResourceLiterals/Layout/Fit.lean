import ResourceLiterals.Layout.Agenda

/-!
# The fit check

Whether a document, laid out flat from a given column, stays within a width.  The check walks
through the flat reading of the document and keeps count of the room that is left; it stops as soon
as the room is used up or a forced line break turns up.

* `fits` is the verdict.
* `fitVisits` tells which `column` nodes the check has come across, in order.
-/

namespace ResourceLiterals.Layout

open Log (Record)

/-- An evaluation of a `column` node: the column it was given and what it reported. -/
structure Visit where
  column : Int
  reports : List Record
deriving DecidableEq, Repr

/-- Whether the pending documents, laid out flat with `room` columns left of `width`, fit. -/
def fitsWithin (width : Int) : List Doc → (room : Int) → Bool
  | [], room => 0 ≤ room
  | doc :: rest, room =>
    if room < 0 then
      false
    else
      match doc with
      | .text content => fitsWithin width rest (room - content.length)
      | .concat parts => fitsWithin width (parts ++ rest) room
      | .hardline => false
      | .brk blanks => fitsWithin width rest (room - blanks)
      | .ifFlat flat _ => fitsWithin width (flat :: rest) room
      | .group child => fitsWithin width (child :: rest) room
      | .nest _ child => fitsWithin width (child :: rest) room
      | .column build _ => fitsWithin width (build (width - room) :: rest) room
termination_by docs => Agenda.mk docs
decreasing_by all_goals constructor

/-- Whether `doc`, laid out flat from `column`, stays within `width`. -/
def fits (doc : Doc) (column width : Int) : Bool :=
  fitsWithin width [doc] (width - column)

/-- The `column` nodes that `fitsWithin` evaluates before it has its verdict. -/
def visitsWithin (width : Int) : List Doc → (room : Int) → List Visit
  | [], _ => []
  | doc :: rest, room =>
    if room < 0 then
      []
    else
      match doc with
      | .text content => visitsWithin width rest (room - content.length)
      | .concat parts => visitsWithin width (parts ++ rest) room
      | .hardline => []
      | .brk blanks => visitsWithin width rest (room - blanks)
      | .ifFlat flat _ => visitsWithin width (flat :: rest) room
      | .group child => visitsWithin width (child :: rest) room
      | .nest _ child => visitsWithin width (child :: rest) room
      | .column build reports =>
        let column := width - room
        ⟨column, reports column⟩ :: visitsWithin width (build column :: rest) room
termination_by docs => Agenda.mk docs
decreasing_by all_goals constructor

/-- The `column` nodes that `fits` evaluates. -/
def fitVisits (doc : Doc) (column width : Int) : List Visit :=
  visitsWithin width [doc] (width - column)

end ResourceLiterals.Layout
