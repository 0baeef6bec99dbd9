import ResourceLiterals.Proofs.Literal.ListLayout

/-!
# Wider pages need no more lines

Widening moves every later line break, so the lines of two widths cannot be compared one by one.  What
can be compared is how far the two layouts have got after the same bytes.

* `KeepsUp` is the invariant for texts: the wider layout is on an earlier line, or on the same line and
  no further along it.  `keepsUp_wrap` is the induction over the bytes.
* `count_hexLines` counts blocks instead: longer blocks hold the same bytes in fewer lines.
* `lineFeeds_render_le` is about rendered literals and lists.
-/

namespace ResourceLiterals.Layout.Written

/-- How many lines have ended. -/
def lines (written : Written) : Nat :=
  written.chars.count '\n'

@[simp] theorem lines_andThen (first : Written) (next : Int → Written) :
    (first.andThen next).lines = first.lines + (next first.column).lines :=
  List.count_append

end ResourceLiterals.Layout.Written

namespace ResourceLiterals.Literal

open Layout

/-- How many line feeds a text has. -/
def lineFeeds (text : String) : Nat :=
  text.toList.count '\n'

/-! ## Wrapped text -/

section Text

variable {narrow wide indent : Int} {narrower wider : Written}

/-- A line of the literal ends, and the next one starts. -/
theorem count_turn (indent : Int) (next : Option UInt8) : (turn indent next).count '\n' = 1 := by
  simp [turn, lineBreak, List.count_replicate, (lineFeed_ne_lead next).symm]

theorem lines_wrapToken (width : Int) (byte : UInt8) (column : Int) :
    (wrapToken width indent byte column).lines =
      if column + (token byte).length ≤ width then 0 else 1 := by
  have htoken : (token byte).count '\n' = 0 := List.count_eq_zero.mpr (lineFeed_not_mem_token byte)
  rw [wrapToken]
  split
  · exact htoken
  · rw [Written.lines, List.count_append, count_turn, htoken]

theorem column_wrapToken (width : Int) (byte : UInt8) (column : Int) :
    (wrapToken width indent byte column).column =
      (if column + (token byte).length ≤ width then column else indent + 1) +
        (token byte).length := by
  rw [wrapToken]
  split <;> rfl

/-- The wider layout of a text has ended fewer lines, or as many and then it has used up no more of the
current one.  The narrower layout is past the start of its line. -/
structure KeepsUp (indent : Int) (wider narrower : Written) : Prop where
  no_further : wider.lines < narrower.lines ∨
    wider.lines = narrower.lines ∧ wider.column ≤ narrower.column
  indented : indent + 1 ≤ narrower.column

theorem KeepsUp.lines_le (h : KeepsUp indent wider narrower) : wider.lines ≤ narrower.lines := by
  have hfurther := h.no_further
  omega

/-- Where both layouts are on the same line, the narrower one wraps if the wider one does.  Where the
wider one is on an earlier line, it may wrap alone, but that puts it at the start of a line. -/
theorem keepsUp_wrapToken (hwidth : narrow ≤ wide) (h : KeepsUp indent wider narrower)
    (byte : UInt8) :
    KeepsUp indent (wider.andThen (wrapToken wide indent byte))
      (narrower.andThen (wrapToken narrow indent byte)) := by
  obtain ⟨hfurther, hindented⟩ := h
  constructor
  · simp only [Written.lines_andThen, Written.column_andThen, lines_wrapToken, column_wrapToken]
    split <;> split <;> omega
  · rw [Written.column_andThen, column_wrapToken]
    split <;> omega

theorem keepsUp_turn (h : KeepsUp indent wider narrower) (next : Option UInt8) :
    KeepsUp indent (wider.andThen fun _ => ⟨turn indent next, indent + 1⟩)
      (narrower.andThen fun _ => ⟨turn indent next, indent + 1⟩) := by
  have hle := h.lines_le
  refine ⟨?_, Int.le_refl _⟩
  rw [Written.lines_andThen, Written.lines_andThen, Written.column_andThen, Written.column_andThen]
  omega

theorem keepsUp_wrapByte (hwidth : narrow ≤ wide) (h : KeepsUp indent wider narrower)
    (byte : UInt8) (next : Option UInt8) :
    KeepsUp indent (wider.andThen (wrapByte wide indent byte next))
      (narrower.andThen (wrapByte narrow indent byte next)) := by
  have htoken := keepsUp_wrapToken hwidth h byte
  unfold wrapByte
  split
  · rw [← Written.andThen_assoc, ← Written.andThen_assoc]
    exact keepsUp_turn htoken next
  · exact htoken

theorem keepsUp_wrap (hwidth : narrow ≤ wide) (data : Bytes) (h : KeepsUp indent wider narrower) :
    KeepsUp indent (wider.andThen (wrap wide indent data))
      (narrower.andThen (wrap narrow indent data)) := by
  induction data generalizing wider narrower with
  | nil => simpa only [wrap, Written.andThen_nil] using h
  | cons byte rest ih =>
    have hrest := ih (keepsUp_wrapByte hwidth h byte rest.head?)
    rwa [Written.andThen_assoc, Written.andThen_assoc] at hrest

theorem count_wrap_le (hwidth : narrow ≤ wide) (indent : Int) (data : Bytes) :
    (wrap wide indent data (indent + 1)).chars.count '\n' ≤
      (wrap narrow indent data (indent + 1)).chars.count '\n' := by
  have hstart : KeepsUp indent ⟨[], indent + 1⟩ ⟨[], indent + 1⟩ :=
    ⟨.inr ⟨rfl, Int.le_refl _⟩, Int.le_refl _⟩
  have hend := keepsUp_wrap hwidth data hstart
  rw [Written.nil_andThen, Written.nil_andThen] at hend
  exact hend.lines_le

end Text

/-! ## Hex blocks -/

/-- A line ends between two blocks. -/
theorem count_hexLines (indent : Int) (length : Nat) (data : Bytes) :
    (hexLines indent length data).count '\n' = (blocks length data).length - 1 := by
  have hblock (block : Bytes) : (hexBlock block).toList.count '\n' = 0 :=
    List.count_eq_zero.mpr (lineFeed_not_mem_hexBlock block)
  rw [hexLines, List.count_cons_of_ne (by decide), List.count_append]
  cases blocks length data with
  | nil => rfl
  | cons first more =>
    rw [List.map_cons, intercalate_cons, List.count_append, List.count_flatMap, hblock]
    simp [Function.comp_def, hblock, count_turn]

/-- Longer blocks are fewer. -/
theorem length_blocks_le {short long : Nat} (hshort : 1 ≤ short) (hlong : short ≤ long)
    (items : List α) : (blocks long items).length ≤ (blocks short items).length := by
  have hitems := (length_blocks_le_iff hshort items _).mp (Nat.le_refl _)
  apply (length_blocks_le_iff (Nat.le_trans hshort hlong) items _).mpr
  exact Nat.le_trans hitems (Nat.mul_le_mul_left _ hlong)

theorem blockLength_le (column : Int) {narrow wide : Int} (h : narrow ≤ wide) :
    blockLength column narrow ≤ blockLength column wide := by
  have hnarrow := blockLength_eq column narrow
  have hwide := blockLength_eq column wide
  omega

/-! ## Rendered literals and lists -/

/-- Pieces with fewer of an item have fewer of it when they are joined. -/
theorem count_intercalate_le [BEq β] {item : β} {fewer more : α → List β}
    (h : ∀ source, (fewer source).count item ≤ (more source).count item) (separator : List β) :
    (sources : List α) → (separator.intercalate (sources.map fewer)).count item ≤
      (separator.intercalate (sources.map more)).count item
  | [] => Nat.le_refl _
  | [source] => by simpa using h source
  | first :: second :: rest => by
    have hrest := count_intercalate_le h separator (second :: rest)
    simp only [List.map_cons, List.intercalate_cons_cons, List.count_append] at hrest ⊢
    exact Nat.add_le_add (Nat.add_le_add_right (h first) _) hrest

section Rendered

variable {narrow wide : Int}

theorem count_literalLines_le (hwidth : narrow ≤ wide) (indent start : Int) (data : Bytes) :
    (literalLines wide indent start data).count '\n' ≤
      (literalLines narrow indent start data).count '\n' := by
  have hone : (oneLine data).count '\n' = 0 :=
    List.count_eq_zero.mpr (lineFeed_not_mem_oneLine data)
  have hwrap := count_wrap_le hwidth indent data
  have hblocks := length_blocks_le (one_le_blockLength start narrow) (blockLength_le start hwidth)
    data
  unfold literalLines
  split
  · by_cases hwide : indent + (oneLine data).length ≤ wide
    · rw [if_pos hwide, hone]
      exact Nat.zero_le _
    · rw [if_neg hwide, if_neg (by omega)]
      simpa using hwrap
  · rw [count_hexLines, count_hexLines]
    omega

theorem lineFeeds_stringDoc_le (hwidth : narrow ≤ wide) (column : Int) (data : Bytes) :
    lineFeeds (render (stringDoc column wide data) wide) ≤
      lineFeeds (render (stringDoc column narrow data) narrow) := by
  rw [lineFeeds, lineFeeds, toList_render, toList_render, chars_stringDoc, chars_stringDoc]
  exact count_literalLines_le hwidth 0 column data

theorem count_brokenList_le (hwidth : narrow ≤ wide) (elements : List Bytes) :
    (brokenList wide elements).count '\n' ≤ (brokenList narrow elements).count '\n' := by
  have helement (element : Bytes) : (elementLines wide element).count '\n' ≤
      (elementLines narrow element).count '\n' :=
    count_literalLines_le hwidth listIndent listIndent element
  have helements := count_intercalate_le helement [' ', ';', '\n', ' ', ' '] elements
  simpa [brokenList] using helements

theorem lineFeeds_listDoc_le (hwidth : narrow ≤ wide) (elements : List Bytes) :
    lineFeeds (render (listDoc wide elements) wide) ≤
      lineFeeds (render (listDoc narrow elements) narrow) := by
  cases elements with
  | nil =>
    -- The layout of no elements is the same for every width.
    rw [lineFeeds, lineFeeds, toList_render, toList_render]
    exact Nat.le_refl _
  | cons first more =>
    have hflat : (flatList (first :: more)).count '\n' = 0 :=
      List.count_eq_zero.mpr (lineFeed_not_mem_flatList (first :: more))
    rw [lineFeeds, lineFeeds, toList_render, toList_render, chars_listDoc, chars_listDoc]
    by_cases hwide : (flatList (first :: more)).length ≤ wide
    · rw [if_pos hwide, hflat]
      exact Nat.zero_le _
    · rw [if_neg hwide, if_neg (by omega)]
      exact count_brokenList_le hwidth (first :: more)

end Rendered

/-- A literal or a list that is laid out for a wider page has no more lines. -/
theorem lineFeeds_render_le {narrow wide : Int} (hwidth : narrow ≤ wide) (column : Int) :
    (∀ data, lineFeeds (render (stringDoc column wide data) wide) ≤
      lineFeeds (render (stringDoc column narrow data) narrow)) ∧
    ∀ elements, lineFeeds (render ((Subformat.Value.list elements).doc column wide) wide) ≤
      lineFeeds (render ((Subformat.Value.list elements).doc column narrow) narrow) :=
  ⟨lineFeeds_stringDoc_le hwidth column, lineFeeds_listDoc_le hwidth⟩

/-- A text that fits on the wider page only, and a list that fits on neither. -/
theorem lineFeeds_render_le_abcdef :
    lineFeeds (render (stringDoc 0 5 [0x61, 0x62, 0x63, 0x64, 0x65, 0x66]) 5) = 1 ∧
      lineFeeds (render (stringDoc 0 9 [0x61, 0x62, 0x63, 0x64, 0x65, 0x66]) 9) ≤ 1 ∧
      lineFeeds (render ((Subformat.Value.list [[0x61], [0x00, 0xFF]]).doc 0 9) 9) ≤
        lineFeeds (render ((Subformat.Value.list [[0x61], [0x00, 0xFF]]).doc 0 5) 5) := by
  have hnarrow : lineFeeds (render (stringDoc 0 5 [0x61, 0x62, 0x63, 0x64, 0x65, 0x66]) 5) = 1 := by
    rw [lineFeeds, toList_render, chars_stringDoc]
    decide
  have hwider := lineFeeds_render_le (show (5 : Int) ≤ 9 by decide) 0
  refine ⟨hnarrow, ?_, hwider.2 _⟩
  rw [← hnarrow]
  exact hwider.1 _

end ResourceLiterals.Literal
