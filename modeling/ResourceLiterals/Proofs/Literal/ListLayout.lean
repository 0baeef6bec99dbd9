import ResourceLiterals.Proofs.Literal.ListReadBack
import ResourceLiterals.Subformat.Value

/-!
# The layout of lists

A list stands on one line if that line fits.  If not, every element starts a line of its own, and its
literal is laid out there as if it were alone.

* `flatLiteral` and `literalLines` are the two forms of a literal: on one line, and from the start of
  a line on.
* `fitsWithin_elementDoc` says that an element takes up the room of its flat form in the fit check.
  A content in hex blocks has a forced line break where its blocks do not get the room they need,
  and then the flat form does not have it either.
* `render_list_layout` is about rendered lists.  A list of one element may come out on one line
  although that line does not fit, `one_line_beyond_width`: the form of the element alone decides.
-/

namespace ResourceLiterals.Literal

open Layout

/-! ## Hex blocks -/

section Blocks

variable (width indent : Int)

/-- So many blocks are enough just for contents up to so many full ones. -/
theorem length_blocks_le_iff {length : Nat} (hlength : 1 ≤ length) (items : List α) (count : Nat) :
    (blocks length items).length ≤ count ↔ items.length ≤ count * length := by
  fun_induction blocks length items generalizing count with
  | case1 => simp
  | case2 first rest ih =>
    cases count with
    | zero => simp
    | succ count =>
      have hrest := ih count
      rw [List.length_drop] at hrest
      rw [List.length_cons, List.length_cons, Nat.add_le_add_iff_right, hrest, Nat.add_mul]
      omega

/-- What fits into one block is one line. -/
theorem hexLines_of_length_le {length : Nat} (hpos : 1 ≤ length) {data : Bytes}
    (hlength : data.length ≤ length) :
    hexLines indent length data = '"' :: ((hexBlock data).toList ++ ['"']) := by
  have hcount := (length_blocks_le_iff hpos data 1).mpr (by omega)
  have hflatten := flatten_blocks length data
  rw [hexLines]
  generalize blocks length data = parts at hcount hflatten ⊢
  rcases parts with _ | ⟨block, _ | ⟨second, more⟩⟩
  · obtain rfl : data = [] := hflatten.symm
    rfl
  · obtain rfl : block = data := by simpa using hflatten
    simp
  · simp at hcount

/-- A hex blob fits where it is one block and there is room for that. -/
theorem fitsWithin_blobDoc (start size : Int) (data : Bytes) (docs : List Doc) (room : Int) :
    fitsWithin width (blobDoc start size data :: docs) room =
      (decide (data.length ≤ blockLength start size) &&
        fitsWithin width docs (room - (hexEscapeWidth * data.length + 2))) := by
  have hcount := length_blocks_le_iff (one_le_blockLength start size) data 1
  have hflatten := flatten_blocks (blockLength start size) data
  have hquote : ("\"".length : Int) = 1 := rfl
  rw [blobDoc, fitsWithin_doc_append, fitsWithin_doc_append, Doc.separate, fitsWithin_text]
  generalize blocks (blockLength start size) data = parts at hcount hflatten ⊢
  rcases parts with _ | ⟨block, _ | ⟨second, more⟩⟩
  · obtain rfl : data = [] := hflatten.symm
    rw [fitsWithin_join, blockDocs, List.intersperse_nil, List.nil_append, fitsWithin_text, hquote,
      List.length_nil, decide_eq_true (Nat.zero_le _), Bool.true_and]
    congr 1
    omega
  · obtain rfl : block = data := by simpa using hflatten
    have hlength : block.length ≤ blockLength start size := by simpa using hcount
    rw [fitsWithin_join, blockDocs, List.map_nil, List.intersperse_singleton, List.singleton_append,
      fitsWithin_text, fitsWithin_text, hquote, length_hexBlock, decide_eq_true hlength,
      Bool.true_and]
    congr 1
    omega
  · -- Between two blocks a line ends, and there is no room after that.
    have hlength : ¬ data.length ≤ blockLength start size := by
      rw [Nat.one_mul] at hcount
      simp [← hcount]
    rw [fitsWithin_join, blockDocs, List.map_cons, List.intersperse_cons_cons, List.cons_append,
      List.cons_append, fitsWithin_text, fitsWithin_doc_append, fitsWithin_text,
      fitsWithin_hardline, decide_eq_false hlength, Bool.false_and]

end Blocks

/-! ## Literals on one line -/

/-- A content as a literal on one line. -/
def flatLiteral (data : Bytes) : List Char :=
  if looksLikeText data then oneLine data else '"' :: ((hexBlock data).toList ++ ['"'])

theorem length_flatLiteral_of_not_text {data : Bytes} (htext : ¬ looksLikeText data = true) :
    ((flatLiteral data).length : Int) = hexEscapeWidth * data.length + 2 := by
  rw [flatLiteral, if_neg htext, List.length_cons, List.length_append, String.length_toList,
    length_hexBlock, List.length_singleton]
  omega

theorem lineFeed_not_mem_flatLiteral (data : Bytes) : '\n' ∉ flatLiteral data := by
  rw [flatLiteral]
  split
  · exact lineFeed_not_mem_oneLine data
  · simpa using lineFeed_not_mem_hexBlock data

section Flat

variable {width : Int} (indent : Int)

/-- An element takes up the room of its flat form.  For a content in hex blocks this is so because
the blocks get shorter with the room: where one block is too short, there is no room for the flat
form. -/
theorem fitsWithin_elementDoc (element : Bytes) (docs : List Doc) (room : Int) :
    fitsWithin width (elementDoc width element :: docs) room =
      fitsWithin width docs (room - (flatLiteral element).length) := by
  rw [elementDoc, fitsWithin_column, stringDoc]
  split
  · rename_i htext
    rw [flatLiteral, if_pos htext]
    exact fitsWithin_textDoc width element docs room
  · rename_i htext
    have hroom := blockLength_eq (width - room) width
    rw [fitsWithin_blobDoc, length_flatLiteral_of_not_text htext]
    by_cases hblock : element.length ≤ blockLength (width - room) width
    · rw [decide_eq_true hblock, Bool.true_and]
    · have hneg : room - (hexEscapeWidth * element.length + 2) < 0 := by
        unfold hexEscapeWidth
        omega
      rw [decide_eq_false hblock, Bool.false_and, fitsWithin_of_neg _ hneg]

/-- With room for its flat form an element is written in it. -/
theorem chars_elementDoc_flat {element : Bytes} {column : Int}
    (hroom : column + (flatLiteral element).length ≤ width) :
    ((elementDoc width element).written width indent true column).chars = flatLiteral element := by
  rw [elementDoc, written_column, stringDoc]
  split
  · rename_i htext
    rw [written_textDoc, if_pos (.inl rfl), flatLiteral, if_pos htext]
  · rename_i htext
    have hblock := blockLength_eq column width
    rw [length_flatLiteral_of_not_text htext] at hroom
    have hlength : element.length ≤ blockLength column width := by
      unfold hexEscapeWidth at hroom
      omega
    rw [chars_blobDoc, hexLines_of_length_le indent (one_le_blockLength column width) hlength,
      flatLiteral, if_neg htext]

theorem written_elementDoc_flat {element : Bytes} {docs : List Doc} {column : Int}
    (h : fitsWithin width (elementDoc width element :: docs) (width - column) = true) :
    (elementDoc width element).written width indent true column =
      ⟨flatLiteral element, column + (flatLiteral element).length⟩ := by
  have hplain : (elementDoc width element).Plain := fun start => plain_stringDoc start width element
  have hcolumn := (onOneLine_written width indent _ hplain docs column h).column_eq
  rw [fitsWithin_elementDoc] at h
  have hroom := room_of_fitsWithin h
  have hchars := chars_elementDoc_flat indent (show column + (flatLiteral element).length ≤ width by
    omega)
  rw [hchars] at hcolumn
  exact Written.ext hchars hcolumn

end Flat

/-! ## Lists on one line -/

/-- The elements of a list on one line. -/
def flatElements (elements : List Bytes) : List Char :=
  [' ', ';', ' '].intercalate (elements.map flatLiteral)

/-- A list on one line. -/
def flatList (elements : List Bytes) : List Char :=
  '[' :: ' ' :: (flatElements elements ++ [' ', ']'])

section FlatList

variable {width : Int} (indent : Int)

theorem flatElements_singleton (element : Bytes) : flatElements [element] = flatLiteral element :=
  List.intercalate_singleton

theorem flatElements_cons_cons (first second : Bytes) (more : List Bytes) :
    flatElements (first :: second :: more) =
      flatLiteral first ++ ([' ', ';', ' '] ++ flatElements (second :: more)) := by
  simp [flatElements, List.intercalate_cons_cons]

theorem lineFeed_not_mem_flatList (elements : List Bytes) : '\n' ∉ flatList elements := by
  have helements : '\n' ∉ flatElements elements := by
    rw [flatElements, List.intercalate, List.mem_flatten]
    rintro ⟨piece, hpiece, hmem⟩
    rcases mem_or_eq_of_mem_intersperse hpiece with hliteral | rfl
    · obtain ⟨element, -, rfl⟩ := List.mem_map.mp hliteral
      exact lineFeed_not_mem_flatLiteral element hmem
    · simp at hmem
  simp [flatList, helements]

theorem fitsWithin_separatorDoc (docs : List Doc) (room : Int) :
    fitsWithin width (separatorDoc :: docs) room = fitsWithin width docs (room - 3) := by
  have hlength : (" ;".length : Int) = 2 := rfl
  rw [separatorDoc, fitsWithin_doc_append, fitsWithin_text, fitsWithin_brk Int.one_nonneg, hlength]
  congr 1
  omega

theorem fitsWithin_elements (first : Bytes) (more : List Bytes) (docs : List Doc) (room : Int) :
    fitsWithin width
        (((first :: more).map (elementDoc width)).intersperse separatorDoc ++ docs) room =
      fitsWithin width docs (room - (flatElements (first :: more)).length) := by
  induction more generalizing first room with
  | nil =>
    rw [flatElements_singleton]
    exact fitsWithin_elementDoc first docs room
  | cons second more ih =>
    rw [List.map_cons, List.map_cons, List.intersperse_cons_cons, List.cons_append,
      List.cons_append, fitsWithin_elementDoc, fitsWithin_separatorDoc, ← List.map_cons, ih,
      flatElements_cons_cons, List.length_append, List.length_append]
    congr 1
    simp
    omega

theorem fits_bracketedDoc (elements : List Bytes) :
    fits (bracketedDoc width elements) 0 width =
      fitsWithin width ((elements.map (elementDoc width)).intersperse separatorDoc ++ [.text " ]"])
        (width - listIndent) := by
  have hopen : width - 0 - ("[ ".length : Int) = width - listIndent := by
    rw [Int.sub_zero]
    rfl
  rw [fits, bracketedDoc, fitsWithin_doc_append, fitsWithin_doc_append, fitsWithin_text,
    fitsWithin_nest, Doc.separateMap, Doc.separate, fitsWithin_join, hopen]

/-- A list fits just if its one line does. -/
theorem fits_bracketedDoc_iff (first : Bytes) (more : List Bytes) :
    fits (bracketedDoc width (first :: more)) 0 width = true ↔
      (flatList (first :: more)).length ≤ width := by
  have hclose : (" ]".length : Int) = 2 := rfl
  have hindent : listIndent = 2 := rfl
  have hlength : ((flatList (first :: more)).length : Int) =
      2 + (flatElements (first :: more)).length + 2 := by
    simp only [flatList, List.length_cons, List.length_append, List.length_nil]
    omega
  rw [fits_bracketedDoc, fitsWithin_elements, fitsWithin_text, fitsWithin_nil, decide_eq_true_iff]
  omega

theorem written_separatorDoc_flat (column : Int) :
    separatorDoc.written width indent true column = ⟨[' ', ';', ' '], column + 3⟩ := by
  have hlength : (" ;".length : Int) = 2 := rfl
  simp [separatorDoc, Written.andThen, hlength]
  omega

/-- Elements that fit are written on one line. -/
theorem writtenAll_elements_flat (first : Bytes) (more : List Bytes) {docs : List Doc} {column : Int}
    (h : fitsWithin width (((first :: more).map (elementDoc width)).intersperse separatorDoc ++ docs)
      (width - column) = true) :
    writtenAll width (((first :: more).map (elementDoc width)).intersperse separatorDoc) indent true
        column =
      ⟨flatElements (first :: more), column + (flatElements (first :: more)).length⟩ := by
  induction more generalizing first column with
  | nil =>
    rw [flatElements_singleton, ← written_elementDoc_flat indent h]
    exact Written.andThen_nil _
  | cons second more ih =>
    rw [List.map_cons, List.map_cons, List.intersperse_cons_cons, ← List.map_cons] at h ⊢
    have hfirst := written_elementDoc_flat indent h
    have hcolumn : width - column - (flatLiteral first).length - 3 =
        width - (column + (flatLiteral first).length + 3) := by omega
    rw [List.cons_append, List.cons_append, fitsWithin_elementDoc, fitsWithin_separatorDoc,
      hcolumn] at h
    have hlength : column + (flatLiteral first).length + 3 + (flatElements (second :: more)).length =
        column + ((flatElements (first :: second :: more)).length : Int) := by
      simp only [flatElements_cons_cons, List.length_append, List.length_cons, List.length_nil]
      omega
    rw [writtenAll_cons, hfirst, Written.andThen, writtenAll_cons, written_separatorDoc_flat,
      Written.andThen, ih second h, ← flatElements_cons_cons, hlength]

end FlatList

/-! ## Lists over several lines -/

/-- A content as a literal from the start of a line on, which is `indent` columns in.  Its hex blocks
are made for lines that start at `start`. -/
def literalLines (width indent start : Int) (data : Bytes) : List Char :=
  if looksLikeText data then
    if indent + (oneLine data).length ≤ width then oneLine data
    else '"' :: ((wrap width indent data (indent + 1)).chars ++ ['"'])
  else hexLines indent (blockLength start width) data

/-- A literal that starts a line is laid out from there. -/
theorem chars_stringDoc (width indent start : Int) (data : Bytes) :
    ((stringDoc start width data).written width indent false indent).chars =
      literalLines width indent start data := by
  rw [stringDoc, literalLines]
  split
  · rw [written_textDoc]
    simp only [Bool.false_eq_true, false_or]
    split
    · rfl
    · rfl
  · exact chars_blobDoc width indent false start width indent data

/-- The lines of an element of a list. -/
def elementLines (width : Int) (element : Bytes) : List Char :=
  literalLines width listIndent listIndent element

/-- A list with a line or more for each element. -/
def brokenList (width : Int) (elements : List Bytes) : List Char :=
  '[' :: ' ' :: ([' ', ';', '\n', ' ', ' '].intercalate (elements.map (elementLines width)) ++
    [' ', ']'])

theorem written_separatorDoc_broken (width column : Int) :
    separatorDoc.written width listIndent false column =
      ⟨[' ', ';', '\n', ' ', ' '], listIndent⟩ := by
  simp [separatorDoc, Written.andThen]
  rfl

/-- Every element starts where the lines do. -/
theorem chars_elements_broken (width : Int) (first : Bytes) (more : List Bytes) :
    (writtenAll width (((first :: more).map (elementDoc width)).intersperse separatorDoc) listIndent
        false listIndent).chars =
      [' ', ';', '\n', ' ', ' '].intercalate ((first :: more).map (elementLines width)) := by
  have helement (element : Bytes) :
      ((elementDoc width element).written width listIndent false listIndent).chars =
        elementLines width element := chars_stringDoc width listIndent listIndent element
  induction more generalizing first with
  | nil =>
    have hone : writtenAll width [elementDoc width first] listIndent false listIndent =
        (elementDoc width first).written width listIndent false listIndent :=
      Written.andThen_nil _
    rw [List.map_singleton, List.intersperse_singleton, hone, helement, List.map_singleton,
      List.intercalate_singleton]
  | cons second more ih =>
    rw [List.map_cons, List.map_cons, List.intersperse_cons_cons, ← List.map_cons, writtenAll_cons,
      Written.chars_andThen, helement, writtenAll_cons, Written.chars_andThen,
      written_separatorDoc_broken, ih]
    simp only [List.map_cons, List.intercalate_cons_cons, List.append_assoc]

/-! ## Rendered lists -/

theorem chars_listDoc (width : Int) (first : Bytes) (more : List Bytes) :
    ((listDoc width (first :: more)).written width 0 false 0).chars =
      if (flatList (first :: more)).length ≤ width then flatList (first :: more)
      else brokenList width (first :: more) := by
  rw [listDoc_cons, written_group, Bool.false_or, chars_bracketedDoc]
  split
  · rename_i hline
    have hfits := (fits_bracketedDoc_iff first more).mpr hline
    rw [hfits]
    rw [fits_bracketedDoc] at hfits
    rw [writtenAll_elements_flat listIndent first more hfits, flatList]
  · rename_i hline
    have hfits : fits (bracketedDoc width (first :: more)) 0 width = false := by
      rw [← Bool.not_eq_true, fits_bracketedDoc_iff]
      exact hline
    rw [hfits, chars_elements_broken, brokenList]

/-- Between two elements of a broken list a line ends, so that it cannot be read as the list on one
line.  With one element there is nothing but the form of that element to tell the two apart. -/
theorem brokenList_eq_flatList_iff (width : Int) (first : Bytes) (more : List Bytes) :
    brokenList width (first :: more) = flatList (first :: more) ↔
      more = [] ∧ elementLines width first = flatLiteral first := by
  cases more with
  | nil =>
    simp [brokenList, flatList, flatElements_singleton, List.intercalate_singleton]
  | cons second more =>
    refine iff_of_false (fun heq => ?_) (fun h => List.cons_ne_nil _ _ h.1)
    have hplain := lineFeed_not_mem_flatList (first :: second :: more)
    rw [← heq, brokenList, List.map_cons, List.map_cons, List.intercalate_cons_cons] at hplain
    simp at hplain

theorem render_listDoc_cons (column width : Int) (first : Bytes) (more : List Bytes) :
    render ((Subformat.Value.list (first :: more)).doc column width) width =
      String.ofList
        (if (flatList (first :: more)).length ≤ width then flatList (first :: more)
        else brokenList width (first :: more)) := by
  apply String.toList_injective
  rw [toList_render, String.toList_ofList]
  exact chars_listDoc width first more

/-- A list is laid out on one line if that line fits, and else with a line or more for each element.
The text is the list on one line just if that line fits or there is a single element whose own lines
are its one-line literal.  In a broken list an element is laid out as if it stood alone two columns
in, with hex blocks for the room from there on. -/
theorem render_list_layout (column width : Int) (first : Bytes) (more : List Bytes) :
    render ((Subformat.Value.list (first :: more)).doc column width) width =
      String.ofList
        (if (flatList (first :: more)).length ≤ width then flatList (first :: more)
        else brokenList width (first :: more)) ∧
    (fits (bracketedDoc width (first :: more)) 0 width = true ↔
      (flatList (first :: more)).length ≤ width) ∧
    (render ((Subformat.Value.list (first :: more)).doc column width) width =
        String.ofList (flatList (first :: more)) ↔
      (flatList (first :: more)).length ≤ width ∨
        more = [] ∧ elementLines width first = flatLiteral first) ∧
    (∀ element, ((stringDoc listIndent width element).written width listIndent false
      listIndent).chars = elementLines width element) ∧
    (blockLength listIndent width : Int) = max 1 ((width - 2) / 4) := by
  refine ⟨render_listDoc_cons column width first more, fits_bracketedDoc_iff first more, ?_,
    chars_stringDoc width listIndent listIndent, blockLength_eq listIndent width⟩
  rw [render_listDoc_cons]
  split
  · rename_i hline
    exact iff_of_true rfl (.inl hline)
  · rename_i hline
    rw [String.ofList_inj, brokenList_eq_flatList_iff, or_iff_right hline]

/-- A list of one element may stand on one line that does not fit: `"abc"` has room after the two
columns of the indentation, but not with the bracket after it. -/
theorem one_line_beyond_width :
    render ((Subformat.Value.list [[0x61, 0x62, 0x63]]).doc 0 8) 8 = "[ \"abc\" ]" ∧
    ¬ (render ((Subformat.Value.list [[0x61, 0x62, 0x63]]).doc 0 8) 8 =
        String.ofList (flatList [[0x61, 0x62, 0x63]]) ↔
      ((flatList [[0x61, 0x62, 0x63]]).length : Int) ≤ 8) := by
  have htext : render ((Subformat.Value.list [[0x61, 0x62, 0x63]]).doc 0 8) 8 = "[ \"abc\" ]" := by
    rw [render_listDoc_cons]
    decide +kernel
  refine ⟨htext, ?_⟩
  rw [htext]
  decide +kernel

end ResourceLiterals.Literal
