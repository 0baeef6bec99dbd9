import ResourceLiterals.Proofs.Layout.FitCheck
import ResourceLiterals.Proofs.Layout.Written

/-!
# Documents on one line

A document may fit because a break is negative, and its text may hold line feeds of its own.  Where
neither is the case, what fits is one line, and it takes up the room that its characters need.

* `Doc.Plain` singles out these documents.
* `onOneLine_written` says what they write when they fit, and `exists_room_of_plain` how much room is
  left after them.
* `plain_join` and the lemmas after it say that the combinators make plain documents of such.
-/

namespace ResourceLiterals.Layout

/-! ## Plain documents -/

mutual

/-- No text of the document holds a line feed, and no break is negative. -/
def Doc.Plain : Doc → Prop
  | .text content => '\n' ∉ content.toList
  | .concat parts => PlainAll parts
  | .hardline => True
  | .brk count => 0 ≤ count
  | .ifFlat whenFlat whenBroken => whenFlat.Plain ∧ whenBroken.Plain
  | .group child => child.Plain
  | .nest _ child => child.Plain
  | .column build _ => ∀ column, (build column).Plain
termination_by structural doc => doc

def PlainAll : List Doc → Prop
  | [] => True
  | doc :: docs => doc.Plain ∧ PlainAll docs
termination_by structural docs => docs

end

theorem plainAll_iff {docs : List Doc} : PlainAll docs ↔ ∀ doc ∈ docs, doc.Plain := by
  induction docs with
  | nil => simp [PlainAll]
  | cons doc docs ih => rw [PlainAll, ih, List.forall_mem_cons]

/-- What is written stands on one line, from `column` to the column after it, and leaves room for
`docs`. -/
structure OnOneLine (width column : Int) (written : Written) (docs : List Doc) : Prop where
  no_lineFeed : '\n' ∉ written.chars
  column_eq : written.column = column + written.chars.length
  fits : fitsWithin width docs (width - written.column) = true

mutual

/-- A plain document that fits is laid out flat on one line. -/
theorem onOneLine_written (width indent : Int) : (doc : Doc) → doc.Plain → (docs : List Doc) →
    (column : Int) → fitsWithin width (doc :: docs) (width - column) = true →
    OnOneLine width column (doc.written width indent true column) docs
  | .text content, hplain, docs, column, h => by
    have hroom : width - column - content.length = width - (column + content.length) := by omega
    rw [fitsWithin_text, hroom] at h
    exact ⟨hplain, by rw [written_text, String.length_toList], h⟩
  | .concat parts, hplain, docs, column, h => by
    rw [fitsWithin_concat] at h
    exact onOneLine_writtenAll width indent parts hplain docs column h
  | .hardline, _, docs, column, h => by
    simp at h
  | .brk count, hplain, docs, column, h => by
    have hcount : 0 ≤ count := hplain
    have hroom : width - column - count = width - (column + count) := by omega
    rw [fitsWithin_brk hcount, hroom] at h
    refine ⟨?_, ?_, h⟩
    · simp
    · simp
      omega
  | .ifFlat whenFlat whenBroken, hplain, docs, column, h => by
    rw [fitsWithin_ifFlat] at h
    exact onOneLine_written width indent whenFlat hplain.1 docs column h
  | .group child, hplain, docs, column, h => by
    rw [fitsWithin_group] at h
    exact onOneLine_written width indent child hplain docs column h
  | .nest amount child, hplain, docs, column, h => by
    rw [fitsWithin_nest] at h
    exact onOneLine_written width (indent + amount) child hplain docs column h
  | .column build reports, hplain, docs, column, h => by
    have hcolumn : width - (width - column) = column := by omega
    rw [fitsWithin_column, hcolumn] at h
    exact onOneLine_written width indent (build column) (hplain column) docs column h
termination_by structural doc => doc

theorem onOneLine_writtenAll (width indent : Int) : (parts : List Doc) → PlainAll parts →
    (docs : List Doc) → (column : Int) →
    fitsWithin width (parts ++ docs) (width - column) = true →
    OnOneLine width column (writtenAll width parts indent true column) docs
  | [], _, docs, column, h => by
    exact ⟨by simp, by simp, h⟩
  | part :: parts, hplain, docs, column, h => by
    have hpart := onOneLine_written width indent part hplain.1 (parts ++ docs) column h
    have hparts := onOneLine_writtenAll width indent parts hplain.2 docs _ hpart.fits
    refine ⟨?_, ?_, hparts.fits⟩
    · simp [hpart.no_lineFeed, hparts.no_lineFeed]
    · rw [writtenAll_cons, Written.column_andThen, hparts.column_eq, hpart.column_eq,
        Written.chars_andThen, List.length_append, hpart.column_eq]
      omega
termination_by structural parts => parts

end

/-- After a plain document that fits there is no more room than before it. -/
theorem exists_room_of_plain {width room : Int} {doc : Doc} (hplain : doc.Plain) {docs : List Doc}
    (h : fitsWithin width (doc :: docs) room = true) :
    ∃ left ≤ room, fitsWithin width docs left = true := by
  have hroom : room = width - (width - room) := by omega
  rw [hroom] at h
  have hline := onOneLine_written width 0 doc hplain docs (width - room) h
  have hcolumn := hline.column_eq
  exact ⟨_, by omega, hline.fits⟩

/-! ## Combinators -/

theorem plain_text {content : String} (h : '\n' ∉ content.toList) : (Doc.text content).Plain := h

theorem plain_pieces {doc : Doc} (h : doc.Plain) : ∀ piece ∈ doc.pieces, piece.Plain := by
  cases doc with
  | text content =>
    rw [Doc.pieces]
    split
    · simp
    · simpa using h
  | concat parts => exact plainAll_iff.mp h
  | _ => simpa [Doc.pieces] using h

theorem plain_ofPieces {docs : List Doc} (h : ∀ doc ∈ docs, doc.Plain) :
    (Doc.ofPieces docs).Plain := by
  match docs with
  | [] => simp [Doc.ofPieces, Doc.empty, Doc.Plain]
  | [doc] => exact h doc List.mem_cons_self
  | _ :: _ :: _ => exact plainAll_iff.mpr h

theorem plain_join {docs : List Doc} (h : ∀ doc ∈ docs, doc.Plain) : (Doc.join docs).Plain := by
  refine plain_ofPieces fun piece hpiece => ?_
  obtain ⟨doc, hdoc, hmem⟩ := List.mem_flatMap.mp hpiece
  exact plain_pieces (h doc hdoc) piece hmem

theorem Doc.Plain.append {first second : Doc} (hfirst : first.Plain) (hsecond : second.Plain) :
    (first ++ second).Plain := by
  refine plain_join fun doc hdoc => ?_
  rcases List.mem_cons.mp hdoc with rfl | hmem
  · exact hfirst
  · rw [List.mem_singleton.mp hmem]
    exact hsecond

theorem mem_or_eq_of_mem_intersperse {item separator : α} {items : List α}
    (h : item ∈ items.intersperse separator) : item ∈ items ∨ item = separator := by
  fun_induction List.intersperse separator items with
  | case1 => exact .inl h
  | case2 => exact .inl h
  | case3 first rest more ih =>
    rcases List.mem_cons.mp h with rfl | h
    · exact .inl List.mem_cons_self
    · rcases List.mem_cons.mp h with rfl | h
      · exact .inr rfl
      · exact (ih h).imp_left (List.mem_cons_of_mem _)

theorem Doc.Plain.separate {separator : Doc} (hseparator : separator.Plain) {docs : List Doc}
    (h : ∀ doc ∈ docs, doc.Plain) : (Doc.separate separator docs).Plain := by
  refine plain_join fun doc hdoc => ?_
  rcases mem_or_eq_of_mem_intersperse hdoc with hmem | rfl
  · exact h doc hmem
  · exact hseparator

end ResourceLiterals.Layout
