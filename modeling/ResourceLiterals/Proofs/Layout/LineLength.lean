import Mathlib.Data.List.MinMax
import Mathlib.Order.Nat
import ResourceLiterals.Proofs.Layout.OneLine

/-!
# How long lines are

A text is measured by its longest line.  Texts are put together from pieces that start and end
inside lines, so the measure is taken of a piece that starts after some characters of a line.

* `longestLine` is the measure, and `LinesWithin` the form of a bound on it that goes along the
  characters; `longestLine_le_of_linesWithin` brings the two together.
* `StaysWithin` is a bound on what a document writes, `linesWithin_of_fits` that for a document which
  fits.
-/

namespace ResourceLiterals.Layout

/-! ## Lines of a text -/

/-- The length of the longest line of a text. -/
def longestLine (text : String) : Nat :=
  ((text.toList.splitOn '\n').map List.length).foldr max 0

/-- All lines of a text are at most `bound` long, the first one together with the `column`
characters that come before the text. -/
def LinesWithin (bound : Int) : (column : Int) → List Char → Prop
  | column, [] => column ≤ bound
  | column, c :: rest =>
    if c = '\n' then column ≤ bound ∧ LinesWithin bound 0 rest
    else LinesWithin bound (column + 1) rest

section LinesWithin

variable {bound column : Int} {chars rest : List Char}

@[simp] theorem linesWithin_nil : LinesWithin bound column [] ↔ column ≤ bound := Iff.rfl

@[simp] theorem linesWithin_lineFeed :
    LinesWithin bound column ('\n' :: rest) ↔ column ≤ bound ∧ LinesWithin bound 0 rest := by
  rw [LinesWithin, if_pos rfl]

theorem linesWithin_cons {c : Char} (h : c ≠ '\n') :
    LinesWithin bound column (c :: rest) ↔ LinesWithin bound (column + 1) rest := by
  rw [LinesWithin, if_neg h]

/-- Characters inside a line move the column. -/
theorem linesWithin_append (h : '\n' ∉ chars) :
    LinesWithin bound column (chars ++ rest) ↔ LinesWithin bound (column + chars.length) rest := by
  induction chars generalizing column with
  | nil => simp
  | cons c chars ih =>
    rw [List.mem_cons, not_or] at h
    have hlength : column + 1 + chars.length = column + (c :: chars).length := by
      rw [List.length_cons]
      omega
    rw [List.cons_append, linesWithin_cons (Ne.symm h.1), ih h.2, hlength]

/-- The lines of a text that is cut at its line feeds. -/
theorem splitOn_of_linesWithin (h : LinesWithin bound column chars) :
    ∃ first others, chars.splitOn '\n' = first :: others ∧ column + first.length ≤ bound ∧
      ∀ line ∈ others, (line.length : Int) ≤ bound := by
  induction chars generalizing column with
  | nil => exact ⟨[], [], List.splitOn_nil _, by simpa using h, by simp⟩
  | cons c chars ih =>
    rw [List.splitOn, List.splitOnP_cons_eq_if_modifyHead, ← List.splitOn]
    by_cases hc : c = '\n'
    · subst hc
      obtain ⟨hcolumn, hrest⟩ := linesWithin_lineFeed.mp h
      obtain ⟨first, others, hsplit, hfirst, hothers⟩ := ih hrest
      refine ⟨[], first :: others, by simp [hsplit], by simpa using hcolumn, ?_⟩
      intro line hline
      rcases List.mem_cons.mp hline with rfl | hmem
      · omega
      · exact hothers line hmem
    · obtain ⟨first, others, hsplit, hfirst, hothers⟩ := ih ((linesWithin_cons hc).mp h)
      refine ⟨c :: first, others, by simp [hc, hsplit], ?_, hothers⟩
      rw [List.length_cons]
      omega

theorem longestLine_le_of_linesWithin {text : String} (h : LinesWithin bound 0 text.toList) :
    longestLine text ≤ bound := by
  obtain ⟨first, others, hsplit, hfirst, hothers⟩ := splitOn_of_linesWithin h
  have hall : ∀ length ∈ (first :: others).map List.length, length ≤ bound.toNat := by
    intro length hlength
    obtain ⟨line, hline, rfl⟩ := List.mem_map.mp hlength
    rcases List.mem_cons.mp hline with rfl | hmem
    · omega
    · have := hothers line hmem
      omega
  have hlongest : longestLine text ≤ bound.toNat := by
    rw [longestLine, hsplit]
    exact List.max_le_of_forall_le _ _ hall
  omega

end LinesWithin

/-! ## Lines of what is written -/

/-- What is written from `column` ends at a column with `ends`.  Whatever comes after it, no line
gets longer than `bound` before that column. -/
structure StaysWithin (bound column : Int) (ends : Int → Prop) (written : Written) : Prop where
  ends_column : ends written.column
  within : ∀ rest, LinesWithin bound written.column rest →
    LinesWithin bound column (written.chars ++ rest)

namespace StaysWithin

variable {bound column : Int} {starts ends : Int → Prop} {written : Written}

theorem linesWithin (h : StaysWithin bound column ends written)
    (hends : ∀ reached, ends reached → reached ≤ bound) :
    LinesWithin bound column written.chars := by
  simpa using h.within [] (hends _ h.ends_column)

theorem mono (h : StaysWithin bound column starts written)
    (himp : ∀ reached, starts reached → ends reached) : StaysWithin bound column ends written :=
  ⟨himp _ h.ends_column, h.within⟩

/-- Characters inside a line. -/
theorem inLine {chars : List Char} {reached : Int} (h : '\n' ∉ chars)
    (hreached : reached = column + chars.length) (hends : ends reached) :
    StaysWithin bound column ends ⟨chars, reached⟩ := by
  subst hreached
  exact ⟨hends, fun _ hrest => (linesWithin_append h).mpr hrest⟩

theorem lineBreak {indent : Int} (hindent : 0 ≤ indent) (hcolumn : column ≤ bound) :
    StaysWithin bound column (· = indent) ⟨lineBreak indent, indent⟩ := by
  refine ⟨rfl, fun rest hrest => ?_⟩
  have hblanks : '\n' ∉ List.replicate indent.toNat ' ' := by simp
  rw [Layout.lineBreak, List.cons_append, linesWithin_lineFeed, linesWithin_append hblanks,
    List.length_replicate, Int.toNat_of_nonneg hindent, Int.zero_add]
  exact ⟨hcolumn, hrest⟩

theorem andThen {next : Int → Written} (hfirst : StaysWithin bound column starts written)
    (hnext : ∀ reached, starts reached → StaysWithin bound reached ends (next reached)) :
    StaysWithin bound column ends (written.andThen next) := by
  have hsecond := hnext _ hfirst.ends_column
  refine ⟨hsecond.ends_column, fun rest hrest => ?_⟩
  rw [Written.chars_andThen, List.append_assoc]
  exact hfirst.within _ (hsecond.within rest hrest)

/-- Documents with a separator between each two: what holds where the first one ends holds where
the others do, if the separator gets them to where they may start. -/
theorem intersperse {width indent : Int} {flat : Bool} {separator first : Doc} {others : List Doc}
    (hfirst : StaysWithin bound column ends (first.written width indent flat column))
    (hseparator : ∀ reached, ends reached →
      StaysWithin bound reached starts (separator.written width indent flat reached))
    (hothers : ∀ doc ∈ others, ∀ reached, starts reached →
      StaysWithin bound reached ends (doc.written width indent flat reached)) :
    StaysWithin bound column ends
      (writtenAll width ((first :: others).intersperse separator) indent flat column) := by
  induction others generalizing first column with
  | nil =>
    have hone : writtenAll width [first] indent flat column =
        first.written width indent flat column := Written.andThen_nil _
    rw [List.intersperse, hone]
    exact hfirst
  | cons second others ih =>
    rw [List.intersperse_cons_cons, writtenAll_cons]
    refine hfirst.andThen fun reached hreached => ?_
    rw [writtenAll_cons]
    refine (hseparator reached hreached).andThen fun start hstart => ?_
    exact ih (hothers second List.mem_cons_self start hstart)
      fun doc hdoc => hothers doc (List.mem_cons_of_mem _ hdoc)

end StaysWithin

/-- A plain document that fits is laid out flat on a line within the width. -/
theorem linesWithin_of_fits {doc : Doc} (hplain : doc.Plain) {column width bound : Int}
    (hfits : fits doc column width = true) (hbound : width ≤ bound) (indent : Int) :
    LinesWithin bound column (doc.written width indent true column).chars := by
  have hline := onOneLine_written width indent doc hplain [] column hfits
  have hroom := room_of_fitsWithin hline.fits
  have hcolumn := hline.column_eq
  have hwithin : LinesWithin bound column ((doc.written width indent true column).chars ++ []) :=
    (linesWithin_append hline.no_lineFeed).mpr (linesWithin_nil.mpr (by omega))
  rwa [List.append_nil] at hwithin

end ResourceLiterals.Layout
