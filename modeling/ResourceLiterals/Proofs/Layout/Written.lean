import ResourceLiterals.Layout.Meaning

/-!
# What a document writes

Laying out a document from a column writes some characters and ends at another column.  Nothing
that was written before matters, so documents can be reasoned about one by one.

* `Doc.written` is the pair of the two, by recursion on the document; `lay_eq_written` says that the
  renderer adds just that to what has been done.
* `written_join` and `written_append` say that the combinators write their parts in order.
-/

namespace ResourceLiterals.Layout

/-! ## Characters and the column after them -/

/-- The characters that have been written and the column after them. -/
@[ext] structure Written where
  chars : List Char
  column : Int

namespace Written

/-- First what is written already, then what `next` writes from the column after it. -/
def andThen (first : Written) (next : Int → Written) : Written :=
  ⟨first.chars ++ (next first.column).chars, (next first.column).column⟩

@[simp] theorem chars_andThen (first : Written) (next : Int → Written) :
    (first.andThen next).chars = first.chars ++ (next first.column).chars := rfl

@[simp] theorem column_andThen (first : Written) (next : Int → Written) :
    (first.andThen next).column = (next first.column).column := rfl

/-- It does not matter how three are grouped. -/
theorem andThen_assoc (first : Written) (second third : Int → Written) :
    (first.andThen second).andThen third =
      first.andThen fun column => (second column).andThen third := by
  simp [andThen]

/-- Writing nothing first changes nothing. -/
@[simp] theorem nil_andThen (column : Int) (next : Int → Written) :
    (Written.mk [] column).andThen next = next column := by
  simp [andThen]

/-- Writing nothing afterwards changes nothing. -/
@[simp] theorem andThen_nil (first : Written) : first.andThen (⟨[], ·⟩) = first := by
  simp [andThen]

end Written

/-- A line break and the indentation of the next line. -/
def lineBreak (indent : Int) : List Char :=
  '\n' :: List.replicate indent.toNat ' '

/-! ## Documents -/

mutual

/-- What a document writes with an indentation and in a mode, from a column. -/
def Doc.written (width : Int) : Doc → (indent : Int) → (flat : Bool) → (column : Int) → Written
  | .text content, _, _, column => ⟨content.toList, column + content.length⟩
  | .concat parts, indent, flat, column => writtenAll width parts indent flat column
  | .hardline, indent, _, _ => ⟨lineBreak indent, indent⟩
  | .brk count, indent, flat, column =>
    if flat then ⟨List.replicate count.toNat ' ', column + count⟩ else ⟨lineBreak indent, indent⟩
  | .ifFlat whenFlat whenBroken, indent, flat, column =>
    if flat then whenFlat.written width indent flat column
    else whenBroken.written width indent flat column
  | .nest amount child, indent, flat, column => child.written width (indent + amount) flat column
  | .group child, indent, flat, column =>
    child.written width indent (flat || child.fitsFlat width column) column
  | .column build _, indent, flat, column => (build column).written width indent flat column
termination_by structural doc => doc

/-- What several documents write one after the other. -/
def writtenAll (width : Int) :
    List Doc → (indent : Int) → (flat : Bool) → (column : Int) → Written
  | [], _, _, column => ⟨[], column⟩
  | doc :: docs, indent, flat, column =>
    (doc.written width indent flat column).andThen (writtenAll width docs indent flat)
termination_by structural docs => docs

end

/-- What has been done once something has been written. -/
def Progress.Adds (before after : Progress) (written : Written) : Prop :=
  after.output.toList = before.output.toList ++ written.chars ∧ after.column = written.column

theorem Progress.Adds.trans {first second third : Progress} {written : Written}
    {next : Int → Written} (hfirst : first.Adds second written)
    (hsecond : second.Adds third (next second.column)) :
    first.Adds third (written.andThen next) := by
  obtain ⟨hchars, hcolumn⟩ := hfirst
  rw [hcolumn] at hsecond
  exact ⟨by rw [hsecond.1, hchars, Written.chars_andThen, List.append_assoc], hsecond.2⟩

theorem Progress.adds_newline (progress : Progress) (indent : Int) :
    progress.Adds (progress.newline indent) ⟨lineBreak indent, indent⟩ := by
  simp [Adds, newline, blanks, lineBreak]

mutual

/-- Laying out a document adds what it writes, and nothing else. -/
theorem lay_adds_written (width : Int) : (doc : Doc) → (indent : Int) → (flat : Bool) →
    (progress : Progress) →
    progress.Adds (doc.lay width indent flat progress)
      (doc.written width indent flat progress.column)
  | .text content, indent, flat, progress => by
    simp [Doc.lay, Doc.written, Progress.Adds, Progress.write]
  | .concat parts, indent, flat, progress => by
    rw [Doc.lay, Doc.written]
    exact layAll_adds_written width parts indent flat progress
  | .hardline, indent, flat, progress => by
    rw [Doc.lay, Doc.written]
    exact progress.adds_newline indent
  | .brk count, indent, flat, progress => by
    rw [Doc.lay, Doc.written]
    cases flat with
    | true => simp [Progress.Adds, Progress.write, blanks]
    | false => exact progress.adds_newline indent
  | .ifFlat whenFlat whenBroken, indent, flat, progress => by
    rw [Doc.lay, Doc.written]
    cases flat with
    | true => exact lay_adds_written width whenFlat indent true progress
    | false => exact lay_adds_written width whenBroken indent false progress
  | .nest amount child, indent, flat, progress => by
    rw [Doc.lay, Doc.written]
    exact lay_adds_written width child (indent + amount) flat progress
  | .group child, indent, flat, progress => by
    rw [Doc.lay, Doc.written]
    cases flat with
    | true => exact lay_adds_written width child indent true progress
    | false =>
      rw [← fits_eq_fitsFlat]
      exact lay_adds_written width child indent _ (progress.decide width child)
  | .column build reports, indent, flat, progress => by
    rw [Doc.lay, Doc.written]
    exact lay_adds_written width (build progress.column) indent flat (progress.visit reports)
termination_by structural doc => doc

/-- Laying out several documents adds what they write, and nothing else. -/
theorem layAll_adds_written (width : Int) : (docs : List Doc) → (indent : Int) → (flat : Bool) →
    (progress : Progress) →
    progress.Adds (layAll width docs indent flat progress)
      (writtenAll width docs indent flat progress.column)
  | [], indent, flat, progress => by
    simp [layAll, writtenAll, Progress.Adds]
  | doc :: docs, indent, flat, progress => by
    rw [layAll, writtenAll]
    exact (lay_adds_written width doc indent flat progress).trans
      (layAll_adds_written width docs indent flat (doc.lay width indent flat progress))
termination_by structural docs => docs

end

/-- The text of a document is what it writes when it is laid out broken from the first column. -/
theorem toList_render (doc : Doc) (width : Int) :
    (render doc width).toList = (doc.written width 0 false 0).chars := by
  rw [render_eq_lay, (lay_adds_written width doc 0 false .start).1]
  rfl

/-! ## Combinators -/

section Combinators

variable (width indent : Int) (flat : Bool) (column : Int)

@[simp] theorem written_text (content : String) :
    (Doc.text content).written width indent flat column =
      ⟨content.toList, column + content.length⟩ := rfl

@[simp] theorem written_hardline :
    Doc.hardline.written width indent flat column = ⟨lineBreak indent, indent⟩ := rfl

@[simp] theorem written_brk (count : Int) :
    (Doc.brk count).written width indent flat column =
      if flat then ⟨List.replicate count.toNat ' ', column + count⟩
      else ⟨lineBreak indent, indent⟩ := rfl

@[simp] theorem written_ifFlat (whenFlat whenBroken : Doc) :
    (Doc.ifFlat whenFlat whenBroken).written width indent flat column =
      if flat then whenFlat.written width indent flat column
      else whenBroken.written width indent flat column := rfl

@[simp] theorem written_nest (amount : Int) (child : Doc) :
    (Doc.nest amount child).written width indent flat column =
      child.written width (indent + amount) flat column := rfl

@[simp] theorem written_group (child : Doc) :
    (Doc.group child).written width indent flat column =
      child.written width indent (flat || fits child column width) column := by
  rw [fits_eq_fitsFlat]
  rfl

@[simp] theorem written_column (build : Int → Doc) (reports : Int → List Log.Record) :
    (Doc.column build reports).written width indent flat column =
      (build column).written width indent flat column := rfl

@[simp] theorem writtenAll_nil : writtenAll width [] indent flat column = ⟨[], column⟩ := rfl

@[simp] theorem writtenAll_cons (doc : Doc) (docs : List Doc) :
    writtenAll width (doc :: docs) indent flat column =
      (doc.written width indent flat column).andThen (writtenAll width docs indent flat) := rfl

theorem writtenAll_append (first second : List Doc) :
    writtenAll width (first ++ second) indent flat column =
      (writtenAll width first indent flat column).andThen
        (writtenAll width second indent flat) := by
  induction first generalizing column with
  | nil => simp
  | cons doc docs ih =>
    simp only [List.cons_append, writtenAll_cons, Written.andThen_assoc]
    congr 1
    funext reached
    exact ih reached

/-- The pieces of a document write what the document writes. -/
theorem writtenAll_pieces (doc : Doc) :
    writtenAll width doc.pieces indent flat column = doc.written width indent flat column := by
  have single (doc : Doc) : writtenAll width [doc] indent flat column =
      doc.written width indent flat column := Written.andThen_nil _
  cases doc with
  | text content =>
    rw [Doc.pieces]
    split
    · rename_i hempty
      simp [hempty]
    · exact single _
  | concat parts => rfl
  | hardline => exact single _
  | brk count => exact single _
  | ifFlat whenFlat whenBroken => exact single _
  | group child => exact single _
  | nest amount child => exact single _
  | column build reports => exact single _

/-- Pieces around which a node is put only when it is needed write the same. -/
theorem written_ofPieces (docs : List Doc) :
    (Doc.ofPieces docs).written width indent flat column =
      writtenAll width docs indent flat column := by
  match docs with
  | [] => simp [Doc.ofPieces, Doc.empty]
  | [doc] => exact (Written.andThen_nil _).symm
  | _ :: _ :: _ => rfl

/-- A concatenation writes its parts one after the other. -/
theorem written_join (docs : List Doc) :
    (Doc.join docs).written width indent flat column =
      writtenAll width docs indent flat column := by
  rw [Doc.join, written_ofPieces]
  induction docs generalizing column with
  | nil => rfl
  | cons doc docs ih =>
    rw [List.flatMap_cons, writtenAll_append, writtenAll_pieces, writtenAll_cons]
    congr 1
    funext reached
    exact ih reached

@[simp] theorem written_append (first second : Doc) :
    (first ++ second).written width indent flat column =
      (first.written width indent flat column).andThen (second.written width indent flat) := by
  show (Doc.join [first, second]).written width indent flat column = _
  rw [written_join, writtenAll_cons]
  congr 1
  funext reached
  exact Written.andThen_nil _

end Combinators

end ResourceLiterals.Layout
