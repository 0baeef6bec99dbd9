import ResourceLiterals.Layout.Meaning

/-!
# The fit check, node by node

What the fit check makes of a document, as equations that open one node each.  They hold without
any condition on the room, since nothing fits where there is none.
-/

namespace ResourceLiterals.Layout

variable {width room : Int} {docs : List Doc}

/-- Documents fit only where there is room to begin with. -/
theorem room_of_fitsWithin (h : fitsWithin width docs room = true) : 0 ≤ room := by
  rcases Int.lt_or_le room 0 with hroom | hroom
  · rw [fitsWithin_of_neg docs hroom] at h
    simp at h
  · exact hroom

@[simp] theorem fitsWithin_text (content : String) :
    fitsWithin width (.text content :: docs) room =
      fitsWithin width docs (room - content.length) := by
  rw [fitsWithin]
  split
  · exact (fitsWithin_of_neg docs (by omega)).symm
  · rfl

@[simp] theorem fitsWithin_concat (parts : List Doc) :
    fitsWithin width (.concat parts :: docs) room = fitsWithin width (parts ++ docs) room := by
  rw [fitsWithin]
  split
  · exact (fitsWithin_of_neg _ ‹_›).symm
  · rfl

@[simp] theorem fitsWithin_hardline : fitsWithin width (.hardline :: docs) room = false := by
  rw [fitsWithin]
  simp

@[simp] theorem fitsWithin_brk {count : Int} (hcount : 0 ≤ count) :
    fitsWithin width (.brk count :: docs) room = fitsWithin width docs (room - count) := by
  rw [fitsWithin]
  split
  · exact (fitsWithin_of_neg docs (by omega)).symm
  · rfl

@[simp] theorem fitsWithin_ifFlat (whenFlat whenBroken : Doc) :
    fitsWithin width (.ifFlat whenFlat whenBroken :: docs) room =
      fitsWithin width (whenFlat :: docs) room := by
  rw [fitsWithin]
  split
  · exact (fitsWithin_of_neg _ ‹_›).symm
  · rfl

@[simp] theorem fitsWithin_group (child : Doc) :
    fitsWithin width (.group child :: docs) room = fitsWithin width (child :: docs) room := by
  rw [fitsWithin]
  split
  · exact (fitsWithin_of_neg _ ‹_›).symm
  · rfl

@[simp] theorem fitsWithin_nest (amount : Int) (child : Doc) :
    fitsWithin width (.nest amount child :: docs) room = fitsWithin width (child :: docs) room := by
  rw [fitsWithin]
  split
  · exact (fitsWithin_of_neg _ ‹_›).symm
  · rfl

@[simp] theorem fitsWithin_column (build : Int → Doc) (reports : Int → List Log.Record) :
    fitsWithin width (.column build reports :: docs) room =
      fitsWithin width (build (width - room) :: docs) room := by
  rw [fitsWithin]
  split
  · exact (fitsWithin_of_neg _ ‹_›).symm
  · rfl

/-- The pieces of a document fit as the document does. -/
theorem fitsWithin_pieces (doc : Doc) :
    fitsWithin width (doc.pieces ++ docs) room = fitsWithin width (doc :: docs) room := by
  cases doc with
  | text content =>
    rw [Doc.pieces]
    split
    · rename_i hempty
      simp [hempty]
    · rfl
  | concat parts => exact (fitsWithin_concat parts).symm
  | _ => rfl

/-- Only what comes after a document decides what it makes of different rests. -/
theorem fitsWithin_cons_congr {first second : List Doc}
    (h : ∀ room, fitsWithin width first room = fitsWithin width second room) (doc : Doc) :
    fitsWithin width (doc :: first) room = fitsWithin width (doc :: second) room := by
  by_cases hroom : room < 0
  · rw [fitsWithin_of_neg _ hroom, fitsWithin_of_neg _ hroom]
  · rw [fitsWithin_cons width doc first room hroom, fitsWithin_cons width doc second room hroom,
      funext h]

theorem fitsWithin_ofPieces (parts : List Doc) :
    fitsWithin width (Doc.ofPieces parts :: docs) room = fitsWithin width (parts ++ docs) room := by
  match parts with
  | [] => simp [Doc.ofPieces, Doc.empty]
  | [_] => rfl
  | _ :: _ :: _ => exact fitsWithin_concat _

/-- A concatenation fits as its parts do. -/
@[simp] theorem fitsWithin_join (parts : List Doc) :
    fitsWithin width (Doc.join parts :: docs) room = fitsWithin width (parts ++ docs) room := by
  rw [Doc.join, fitsWithin_ofPieces]
  induction parts generalizing room with
  | nil => rfl
  | cons part parts ih =>
    rw [List.flatMap_cons, List.append_assoc, fitsWithin_pieces]
    exact fitsWithin_cons_congr (fun _ => ih) part

@[simp] theorem fitsWithin_doc_append (first second : Doc) :
    fitsWithin width ((first ++ second) :: docs) room =
      fitsWithin width (first :: second :: docs) room :=
  fitsWithin_join [first, second]

end ResourceLiterals.Layout
