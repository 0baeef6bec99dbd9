import ResourceLiterals.Proofs.Literal.ListReadBack
import ResourceLiterals.Proofs.Text.Split
import ResourceLiterals.Subformat.Value

/-!
# Lines and their literals

A list of byte strings is written as a list literal, whether or not it comes from a content.  Read
back, the literal gives the list again unless the page is narrow and an element has a blank after a
line end.  Lines have no line ends, so those of a content always come back.
-/

namespace ResourceLiterals.Subformat

open Layout (render)
open Literal

theorem splitLines_sublist_fields (data : Bytes) : (splitLines data).Sublist (fields data) := by
  unfold splitLines
  split
  · exact List.nil_sublist _
  · have hlast : (if data.getLast?.any isSeparator then (fields data).dropLast
        else fields data).Sublist (fields data) := by
      split
      · exact List.dropLast_sublist _
      · exact List.Sublist.refl _
    dsimp only
    split
    · exact (List.drop_sublist 1 _).trans hlast
    · exact hlast

/-- A line holds no line end, so no blank stands after one. -/
theorem not_blankAfterBreak_of_mem_splitLines {line data : Bytes} (h : line ∈ splitLines data) :
    ¬ BlankAfterBreak line := by
  have hfield : line ∈ fields data := (splitLines_sublist_fields data).subset h
  have hplain := Text.not_isSeparator_of_mem_splitWhere hfield
  rintro (hreturn | hfeed)
  · have hmem : carriageReturn ∈ line := hreturn.subset List.mem_cons_self
    exact absurd (hplain _ hmem) (by decide)
  · have hmem : lineFeed ∈ line := hfeed.subset List.mem_cons_self
    exact absurd (hplain _ hmem) (by decide)

/-! ## Rendered lists -/

theorem map_readAs_eq_self_iff (page : Int) (elements : List Bytes) :
    elements.map (readAs page listIndent false) = elements ↔
      4 ≤ page ∨
        ∀ element ∈ elements, looksLikeText element = true → ¬ BlankAfterBreak element := by
  have hmap : elements.map (readAs page listIndent false) = elements ↔
      ∀ element ∈ elements, readAs page listIndent false element = element := by
    simpa using List.map_inj_left (l := elements) (f := readAs page listIndent false) (g := id)
  have hroom : listIndent + 2 ≤ page ↔ 4 ≤ page := Iff.rfl
  rw [hmap]
  simp only [readAs_eq_self_iff, hroom]
  by_cases hpage : 4 ≤ page
  · simp [hpage]
  · simp only [hpage, false_or, ← Bool.not_eq_true, ← imp_iff_not_or]

theorem parseList_render_splitLines (size page : Int) (data : Bytes) :
    parseList (render (listDoc size (splitLines data)) page) = .ok (splitLines data) := by
  have hlines := (map_readAs_eq_self_iff page (splitLines data)).mpr
    (.inr fun line hline _ => not_blankAfterBreak_of_mem_splitLines hline)
  have hread := parseList_render size page (splitLines data)
  rw [hlines] at hread
  exact hread

/-- Whether a rendered list is read as the list that it was made from; it is always read as a list
of the same length.  In particular the lines of a content are. -/
theorem parseList_render_list (column width page : Int) :
    (∀ elements, ∃ values,
      parseList (render ((Value.list elements).doc column width) page) = .ok values ∧
      values.length = elements.length ∧
      (values = elements ↔
        4 ≤ page ∨
          ∀ element ∈ elements, looksLikeText element = true → ¬ BlankAfterBreak element)) ∧
    ∀ data, parseList (render ((Value.list (splitLines data)).doc column width) page) =
      .ok (splitLines data) := by
  constructor
  · intro elements
    exact ⟨elements.map (readAs page listIndent false), parseList_render width page elements,
      List.length_map _, map_readAs_eq_self_iff page elements⟩
  · intro data
    exact parseList_render_splitLines width page data

end ResourceLiterals.Subformat
