import ResourceLiterals.Proofs.Literal.Plain
import ResourceLiterals.Proofs.Literal.ReadBack

/-!
# Reading lists of literals back

The elements of a list stand on one line, or each on a line of its own.  Either way they are read
one by one, so a list is read as what its elements are read as.

* `four_le_of_fits` says that a list on one line leaves every element enough room.
* `elements_contents` is the induction over the elements, in either layout.
* `parseList_render` says what a list is read as, whatever the page.
-/

namespace ResourceLiterals.Literal

open Layout

/-! ## Room for a list -/

section Room

variable {width : Int}

/-- The separator between two elements. -/
def separatorDoc : Doc := .text " ;" ++ .brk 1

/-- The elements between their brackets. -/
def bracketedDoc (size : Int) (elements : List Bytes) : Doc :=
  (.text "[ " ++ .nest listIndent (Doc.separateMap separatorDoc (elementDoc size) elements)) ++
    .text " ]"

theorem listDoc_cons (size : Int) (first : Bytes) (more : List Bytes) :
    listDoc size (first :: more) = .group (bracketedDoc size (first :: more)) := rfl

theorem plain_contents (size : Int) (elements : List Bytes) :
    (Doc.separateMap separatorDoc (elementDoc size) elements).Plain := by
  have hsemicolon : (Doc.text " ;").Plain := plain_text (by decide)
  have hblank : (Doc.brk 1).Plain := Int.one_nonneg
  apply (hsemicolon.append hblank).separate
  intro doc hdoc
  obtain ⟨element, -, rfl⟩ := List.mem_map.mp hdoc
  intro column
  exact plain_stringDoc column size element

theorem plain_bracketedDoc (size : Int) (elements : List Bytes) :
    (bracketedDoc size elements).Plain := by
  have hopen : (Doc.text "[ ").Plain := plain_text (by decide)
  have hclose : (Doc.text " ]").Plain := plain_text (by decide)
  have hnest : (Doc.nest listIndent
      (Doc.separateMap separatorDoc (elementDoc size) elements)).Plain :=
    plain_contents size elements
  exact (hopen.append hnest).append hclose

/-- What a list writes, in either layout: its elements start at their indentation. -/
theorem chars_bracketedDoc (size : Int) (elements : List Bytes) (flat : Bool) :
    ((bracketedDoc size elements).written width 0 flat 0).chars =
      '[' :: ' ' ::
        ((writtenAll width ((elements.map (elementDoc size)).intersperse separatorDoc) listIndent
          flat listIndent).chars ++ [' ', ']']) := by
  have hopen : 0 + ("[ ".length : Int) = listIndent := rfl
  rw [bracketedDoc, written_append, written_append, Doc.separateMap, Doc.separate]
  simp only [Written.chars_andThen, written_text, written_nest, written_join, hopen, Int.zero_add]
  rfl

/-- The brackets of a list and the blanks inside them take four columns. -/
theorem four_le_of_fits {size : Int} {elements : List Bytes}
    (h : fits (bracketedDoc size elements) 0 width = true) : 4 ≤ width := by
  have hopen : ("[ ".length : Int) = 2 := rfl
  have hclose : (" ]".length : Int) = 2 := rfl
  rw [fits, bracketedDoc, fitsWithin_doc_append, fitsWithin_doc_append, fitsWithin_text,
    fitsWithin_nest] at h
  obtain ⟨left, hleft, hrest⟩ := exists_room_of_plain (plain_contents size elements) h
  rw [fitsWithin_text] at hrest
  have hroom := room_of_fitsWithin hrest
  omega

end Room

/-! ## The elements -/

section Elements

variable (width : Int) {indent : Int} {flat : Bool}

theorem gap_blank : Gap [' '] := by simp [Gap, gapChars]

/-- Where the elements of a list start, if it is broken. -/
def StartsElement (indent : Int) (flat : Bool) (column : Int) : Prop :=
  flat = true ∨ column = indent

theorem stringLiteral_elementDoc {column : Int} (hcolumn : StartsElement indent flat column)
    (size : Int) (element : Bytes) :
    StringLiteral ((elementDoc size element).written width indent flat column).chars
      (readAs width indent flat element) := by
  have hwrapped : Wrapped width indent flat element ↔ Wrapped width column flat element := by
    rcases hcolumn with rfl | rfl
    · simp [Wrapped]
    · rfl
  rw [elementDoc, written_column, readAs]
  simp only [hwrapped]
  exact stringLiteral_stringDoc column size element

/-- After the separator the next element starts, with nothing but blanks between the two. -/
theorem written_separatorDoc (indent : Int) (flat : Bool) (column : Int) : ∃ gap next,
    separatorDoc.written width indent flat column = ⟨' ' :: ';' :: gap, next⟩ ∧
      Gap gap ∧ StartsElement indent flat next := by
  cases flat with
  | true =>
    refine ⟨[' '], column + 2 + 1, ?_, ?_, .inl rfl⟩
    · have hlength : (" ;".length : Int) = 2 := rfl
      simp [separatorDoc, Written.andThen, hlength]
    · exact gap_blank
  | false =>
    refine ⟨lineBreak indent, indent, ?_, ?_, .inr rfl⟩
    · simp [separatorDoc, Written.andThen]
    · intro c hc
      rcases List.mem_cons.mp hc with rfl | hc
      · decide
      · rw [List.eq_of_mem_replicate hc]
        decide

/-- The elements of a list are read one by one, up to the blank before the bracket. -/
theorem elements_contents (size : Int) (element : Bytes) (more : List Bytes) {column : Int}
    (hcolumn : StartsElement indent flat column) :
    Elements ((writtenAll width (((element :: more).map (elementDoc size)).intersperse separatorDoc)
        indent flat column).chars ++ [' '])
      ((element :: more).map (readAs width indent flat)) := by
  induction more generalizing element column with
  | nil =>
    have hliteral := stringLiteral_elementDoc width hcolumn size element
    simpa using Elements.last hliteral gap_blank
  | cons second more ih =>
    have hliteral := stringLiteral_elementDoc width hcolumn size element
    obtain ⟨gap, next, hseparator, hgap, hnext⟩ := written_separatorDoc width indent flat
      ((elementDoc size element).written width indent flat column).column
    have hmore := ih second hnext
    rw [List.map_cons, List.map_cons, List.intersperse_cons_cons, writtenAll_cons,
      Written.chars_andThen, writtenAll_cons, Written.chars_andThen, hseparator]
    simpa using Elements.cons hliteral gap_blank hgap hmore

end Elements

/-! ## Rendered lists -/

/-- A list is laid out as a list literal.  It makes no difference whether it is broken: where it is
not, there is room for whatever an element holds. -/
theorem listLiteral_listDoc (size width : Int) (elements : List Bytes) :
    ListLiteral ((listDoc size elements).written width 0 false 0).chars
      (elements.map (readAs width listIndent false)) := by
  cases elements with
  | nil => exact .bracketed gap_nil .nil
  | cons first more =>
    have hstarts (flat : Bool) : StartsElement listIndent flat listIndent := .inr rfl
    have hliteral (flat : Bool) :=
      ListLiteral.bracketed gap_blank (elements_contents width size first more (hstarts flat))
    rw [listDoc_cons, written_group, Bool.false_or]
    have hroom : fits (bracketedDoc size (first :: more)) 0 width = true → listIndent + 2 ≤ width :=
      four_le_of_fits
    generalize fits (bracketedDoc size (first :: more)) 0 width = flat at hroom
    rw [← funext (readAs_flat hroom), chars_bracketedDoc]
    simpa using hliteral flat

theorem parseList_render (size page : Int) (elements : List Bytes) :
    parseList (render (listDoc size elements) page) =
      .ok (elements.map (readAs page listIndent false)) :=
  parseList_of_listLiteral (toList_render_between _ page) gap_nil gap_nil
    (listLiteral_listDoc size page elements)

end ResourceLiterals.Literal
