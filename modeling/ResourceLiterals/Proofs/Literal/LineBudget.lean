import ResourceLiterals.Proofs.Layout.LineLength
import ResourceLiterals.Proofs.Literal.ListReadBack
import ResourceLiterals.Subformat.Value

/-!
# How far literals exceed the width

Literals are laid out for a width that they do not always keep: a backslash or a quote comes after
the last token of a line, a token may be wider than the page, and the separators of a list come
after its elements.  That is all there is, so a line is too long by a constant at most.

* `staysWithin_wrap` is the induction over a text, `staysWithin_blobDoc` the one over hex blocks.
* `longestLine_render_le` has the bounds for texts, for other contents and for lists.
-/

namespace ResourceLiterals.Literal

open Layout

/-! ## Wrapped text -/

section Text

variable {width bound peak indent column : Int}

/-- The end of a line and the start of the next one: the line gets one character longer, and the
next one has its indentation and one character. -/
theorem staysWithin_turn (hindent : 0 ≤ indent) (hcolumn : column + 1 ≤ bound)
    (next : Option UInt8) :
    StaysWithin bound column (· = indent + 1) ⟨turn indent next, indent + 1⟩ := by
  have hbackslash : StaysWithin bound column (· = column + 1) ⟨['\\'], column + 1⟩ :=
    .inLine (by decide) rfl rfl
  have hbreak : StaysWithin bound (column + 1) (· = indent) ⟨lineBreak indent, indent⟩ :=
    .lineBreak hindent hcolumn
  have hlead : StaysWithin bound indent (· = indent + 1) ⟨[lead next], indent + 1⟩ :=
    .inLine (by simpa using lineFeed_ne_lead next) rfl rfl
  show StaysWithin bound column _ ((Written.mk ['\\'] (column + 1)).andThen fun _ =>
    (Written.mk (lineBreak indent) indent).andThen fun _ => ⟨[lead next], indent + 1⟩)
  apply hbackslash.andThen
  rintro _ rfl
  apply hbreak.andThen
  rintro _ rfl
  exact hlead

theorem staysWithin_wrapToken (hindent : 0 ≤ indent) (hwidth : width ≤ peak)
    (hpeak : indent + 5 ≤ peak) (hbound : peak + 1 ≤ bound) (hcolumn : column ≤ peak)
    (byte : UInt8) :
    StaysWithin bound column (· ≤ peak) (wrapToken width indent byte column) := by
  have hplain := lineFeed_not_mem_token byte
  have hlength : (token byte).length ≤ 4 := length_token_le byte
  unfold wrapToken
  split
  · exact .inLine hplain rfl (by omega)
  · have hturn : StaysWithin bound column (· = indent + 1)
        ⟨turn indent (some byte), indent + 1⟩ := staysWithin_turn hindent (by omega) (some byte)
    show StaysWithin bound column _ ((Written.mk (turn indent (some byte)) (indent + 1)).andThen
      fun _ => ⟨token byte, indent + 1 + (token byte).length⟩)
    apply hturn.andThen
    rintro _ rfl
    exact .inLine hplain rfl (by omega)

theorem staysWithin_wrapByte (hindent : 0 ≤ indent) (hwidth : width ≤ peak)
    (hpeak : indent + 5 ≤ peak) (hbound : peak + 1 ≤ bound) (hcolumn : column ≤ peak)
    (byte : UInt8) (next : Option UInt8) :
    StaysWithin bound column (· ≤ peak) (wrapByte width indent byte next column) := by
  have htoken := staysWithin_wrapToken hindent hwidth hpeak hbound hcolumn byte
  unfold wrapByte
  split
  · apply htoken.andThen
    intro reached hreached
    have hturn := staysWithin_turn hindent (show reached + 1 ≤ bound by omega) next
    apply hturn.mono
    rintro _ rfl
    omega
  · exact htoken

/-- The lines of a wrapped text go up to the width, or to where the widest token takes them, and one
character further. -/
theorem staysWithin_wrap (hindent : 0 ≤ indent) (hwidth : width ≤ peak)
    (hpeak : indent + 5 ≤ peak) (hbound : peak + 1 ≤ bound) (data : Bytes)
    (hcolumn : column ≤ peak) :
    StaysWithin bound column (· ≤ peak) (wrap width indent data column) := by
  induction data generalizing column with
  | nil => exact ⟨hcolumn, fun _ hrest => hrest⟩
  | cons byte rest ih =>
    rw [wrap]
    apply (staysWithin_wrapByte hindent hwidth hpeak hbound hcolumn byte rest.head?).andThen
    intro reached hreached
    exact ih hreached

theorem staysWithin_textDoc (hindent : 0 ≤ indent) (hwidth : width ≤ peak)
    (hpeak : indent + 5 ≤ peak) (hbound : peak + 1 ≤ bound) (data : Bytes) :
    StaysWithin bound indent (· ≤ peak + 1)
      ((textDoc data).written width indent false indent) := by
  have hquote : '\n' ∉ ['"'] := by decide
  rw [written_textDoc]
  split
  · rename_i hone
    have hfits := hone.resolve_left Bool.false_ne_true
    exact .inLine (lineFeed_not_mem_oneLine data) rfl (by omega)
  · have hopen : StaysWithin bound indent (· = indent + 1) ⟨['"'], indent + 1⟩ :=
      .inLine hquote rfl rfl
    have hwrap : StaysWithin bound (indent + 1) (· ≤ peak) (wrap width indent data (indent + 1)) :=
      staysWithin_wrap hindent hwidth hpeak hbound data (by omega)
    show StaysWithin bound indent _ ((Written.mk ['"'] (indent + 1)).andThen fun _ =>
      (wrap width indent data (indent + 1)).andThen fun reached => ⟨['"'], reached + 1⟩)
    apply hopen.andThen
    rintro _ rfl
    apply hwrap.andThen
    intro reached hreached
    exact .inLine hquote rfl (by omega)

end Text

/-! ## Hex blocks -/

theorem length_le_of_mem_blocks {length : Nat} (hlength : 1 ≤ length) {items block : List α}
    (h : block ∈ blocks length items) : block.length ≤ length := by
  fun_induction blocks length items with
  | case1 => simp at h
  | case2 first rest ih =>
    rcases List.mem_cons.mp h with rfl | hmem
    · rw [List.length_cons, List.length_take]
      omega
    · exact ih hmem

section Blocks

variable {width bound indent limit : Int} {flat : Bool}

theorem staysWithin_blockDocs (hindent : 0 ≤ indent) (hbound : indent + limit + 2 ≤ bound)
    (hzero : 0 ≤ limit) {parts : List Bytes}
    (hlimit : ∀ block ∈ parts, (hexBlock block).length ≤ limit) :
    StaysWithin bound (indent + 1) (· ≤ indent + limit + 1)
      (writtenAll width ((blockDocs parts).intersperse (.text "\\" ++ .hardline)) indent flat
        (indent + 1)) := by
  have hseparator (reached : Int) (hreached : reached ≤ indent + limit + 1) :
      StaysWithin bound reached (· = indent)
        ((Doc.text "\\" ++ .hardline).written width indent flat reached) := by
    have hbackslash : StaysWithin bound reached (· = reached + 1)
        ((Doc.text "\\").written width indent flat reached) := .inLine (by decide) rfl rfl
    rw [written_append]
    apply hbackslash.andThen
    rintro _ rfl
    exact .lineBreak hindent (by omega)
  cases parts with
  | nil => exact ⟨show indent + 1 ≤ indent + limit + 1 by omega, fun _ hrest => hrest⟩
  | cons first more =>
    rw [List.forall_mem_cons] at hlimit
    rw [blockDocs]
    apply StaysWithin.intersperse ?_ hseparator
    · intro doc hdoc reached hreached
      obtain ⟨block, hblock, rfl⟩ := List.mem_map.mp hdoc
      have hlength := hlimit.2 block hblock
      have hblank : '\n' ∉ (" " ++ hexBlock block).toList := by
        simpa using lineFeed_not_mem_hexBlock block
      refine .inLine hblank (by rw [String.length_toList]) ?_
      rw [String.length_append]
      subst hreached
      show reached + ((1 + (hexBlock block).length : Nat) : Int) ≤ reached + limit + 1
      omega
    · have hlength := hlimit.1
      exact .inLine (lineFeed_not_mem_hexBlock first) (by rw [String.length_toList]) (by omega)

/-- The lines of a hex blob hold the indentation, the escapes of a block and two characters. -/
theorem staysWithin_blobDoc (hindent : 0 ≤ indent) (start size : Int) (data : Bytes)
    (hbound : indent + hexEscapeWidth * blockLength start size + 2 ≤ bound) :
    StaysWithin bound indent (· ≤ indent + hexEscapeWidth * blockLength start size + 2)
      ((blobDoc start size data).written width indent flat indent) := by
  have hquote : '\n' ∉ ['"'] := by decide
  have hblock : ∀ block ∈ blocks (blockLength start size) data,
      ((hexBlock block).length : Int) ≤ hexEscapeWidth * blockLength start size := by
    intro block hmem
    rw [length_hexBlock]
    have hlength := length_le_of_mem_blocks (one_le_blockLength start size) hmem
    exact_mod_cast Nat.mul_le_mul_left hexEscapeWidth hlength
  have hopen : StaysWithin bound indent (· = indent + 1)
      ((Doc.text "\"").written width indent flat indent) := .inLine hquote rfl rfl
  rw [blobDoc, written_append, written_append, Written.andThen_assoc]
  apply hopen.andThen
  rintro _ rfl
  rw [Doc.separate, written_join]
  have hzero : 0 ≤ (hexEscapeWidth * blockLength start size : Int) :=
    Int.mul_nonneg (Int.natCast_nonneg _) (Int.natCast_nonneg _)
  apply (staysWithin_blockDocs hindent hbound hzero hblock).andThen
  intro reached hreached
  refine .inLine hquote rfl ?_
  show reached + 1 ≤ _
  omega

end Blocks

/-! ## String literals -/

section Literals

variable {width bound peak indent : Int}

/-- Either kind of literal, at the start of a line. -/
theorem staysWithin_stringDoc (hindent : 0 ≤ indent) (start size : Int) (data : Bytes)
    (hpeak : (if looksLikeText data then max width (indent + 5) + 1
      else indent + hexEscapeWidth * blockLength start size + 2) ≤ peak)
    (hbound : peak ≤ bound) :
    StaysWithin bound indent (· ≤ peak)
      ((stringDoc start size data).written width indent false indent) := by
  unfold stringDoc
  split
  · rename_i htext
    rw [if_pos htext] at hpeak
    refine (staysWithin_textDoc hindent (Int.le_max_left width (indent + 5))
      (Int.le_max_right width (indent + 5)) (hpeak.trans hbound) data).mono ?_
    intro reached hreached
    exact hreached.trans hpeak
  · rename_i htext
    rw [if_neg htext] at hpeak
    refine (staysWithin_blobDoc hindent start size data (hpeak.trans hbound)).mono ?_
    intro reached hreached
    exact hreached.trans hpeak

end Literals

/-- The length of a hex block, as it goes into the bounds. -/
theorem width_blockLength (start size : Int) :
    (hexEscapeWidth * blockLength start size : Int) = 4 * max 1 ((size - start) / 4) := by
  rw [blockLength_eq]
  rfl

/-- A literal on its own goes beyond the width by a constant at most. -/
theorem longestLine_render_stringDoc (column width : Int) (data : Bytes) :
    longestLine (render (stringDoc column width data) width) ≤
      if looksLikeText data then max width 5 + 1 else 4 * max 1 ((width - column) / 4) + 2 := by
  apply longestLine_le_of_linesWithin
  rw [toList_render]
  have hpeak : (if looksLikeText data then max width (0 + 5) + 1
      else 0 + hexEscapeWidth * blockLength column width + 2 : Int) =
      if looksLikeText data then max width 5 + 1 else 4 * max 1 ((width - column) / 4) + 2 := by
    rw [width_blockLength, Int.zero_add, Int.zero_add]
  refine (staysWithin_stringDoc (Int.le_refl 0) column width data (Int.le_of_eq hpeak)
    (Int.le_refl _)).linesWithin ?_
  intro reached hreached
  exact hreached

/-! ## Lists -/

section Lists

variable {width : Int}

/-- An element where the elements of a broken list start. -/
theorem staysWithin_elementDoc (element : Bytes) :
    StaysWithin (max (width + 4) 10) listIndent (· ≤ max (width + 2) 8)
      ((elementDoc width element).written width listIndent false listIndent) := by
  have hblock := width_blockLength listIndent width
  rw [elementDoc, written_column]
  apply staysWithin_stringDoc (by decide)
  · unfold listIndent at *
    split <;> omega
  · omega

theorem staysWithin_separatorDoc {reached : Int} (h : reached ≤ max (width + 2) 8) :
    StaysWithin (max (width + 4) 10) reached (· = listIndent)
      (separatorDoc.written width listIndent false reached) := by
  have hsemicolon : StaysWithin (max (width + 4) 10) reached (· = reached + 2)
      ((Doc.text " ;").written width listIndent false reached) := .inLine (by decide) rfl rfl
  rw [separatorDoc, written_append]
  apply hsemicolon.andThen
  rintro _ rfl
  exact .lineBreak (by decide) (by omega)

/-- A broken list: its elements take up the most room, and a bracket or a semicolon goes after
them. -/
theorem staysWithin_bracketedDoc (first : Bytes) (more : List Bytes) :
    StaysWithin (max (width + 4) 10) 0 (· ≤ max (width + 4) 10)
      ((bracketedDoc width (first :: more)).written width 0 false 0) := by
  have hopen : StaysWithin (max (width + 4) 10) 0 (· = listIndent)
      ((Doc.text "[ ").written width 0 false 0) := .inLine (by decide) rfl rfl
  rw [bracketedDoc, written_append, written_append, Written.andThen_assoc]
  apply hopen.andThen
  rintro _ rfl
  have hcontents : StaysWithin (max (width + 4) 10) listIndent (· ≤ max (width + 2) 8)
      ((Doc.nest listIndent (Doc.separateMap separatorDoc (elementDoc width)
        (first :: more))).written width 0 false listIndent) := by
    rw [written_nest, Doc.separateMap, Doc.separate, written_join, Int.zero_add, List.map_cons]
    apply StaysWithin.intersperse (staysWithin_elementDoc first)
    · intro reached hreached
      exact staysWithin_separatorDoc hreached
    · intro doc hdoc reached hreached
      obtain ⟨element, -, rfl⟩ := List.mem_map.mp hdoc
      subst hreached
      exact staysWithin_elementDoc element
  apply hcontents.andThen
  intro reached hreached
  refine .inLine (by decide) rfl ?_
  show reached + 2 ≤ _
  omega

theorem longestLine_render_listDoc (elements : List Bytes) :
    longestLine (render (listDoc width elements) width) ≤
      if elements = [] then 2 else max (width + 4) 10 := by
  apply longestLine_le_of_linesWithin
  rw [toList_render]
  cases elements with
  | nil =>
    show LinesWithin 2 0 ['[', ']']
    rw [linesWithin_cons (by decide), linesWithin_cons (by decide), linesWithin_nil]
    decide
  | cons first more =>
    rw [listDoc_cons, written_group, Bool.false_or, if_neg (by simp)]
    cases hfits : fits (bracketedDoc width (first :: more)) 0 width with
    | true =>
      exact linesWithin_of_fits (plain_bracketedDoc width (first :: more)) hfits (by omega) 0
    | false =>
      apply (staysWithin_bracketedDoc first more).linesWithin
      intro reached hreached
      exact hreached

end Lists

/-- Lines go beyond the width by a constant at most.  The bounds are for the literal of a text, for
that of another content, and for a list; where the width has no room for an escape, they are those
of a width that has. -/
theorem longestLine_render_le (column width : Int) :
    (∀ data, longestLine (render (stringDoc column width data) width) ≤
      if looksLikeText data then max width 5 + 1 else 4 * max 1 ((width - column) / 4) + 2) ∧
    ∀ elements,
      longestLine (render ((Subformat.Value.list elements).doc column width) width) ≤
        if elements = [] then 2 else max (width + 4) 10 :=
  ⟨longestLine_render_stringDoc column width, longestLine_render_listDoc⟩

end ResourceLiterals.Literal
