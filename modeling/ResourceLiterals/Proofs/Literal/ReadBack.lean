import ResourceLiterals.Proofs.Literal.Wrap

/-!
# Reading wrapped literals back

A wrapped text literal is a row of items, and so is a literal of hex blocks.  The items give the
content, with one exception: a blank that a backslash keeps at the start of a line has to stand on
that line.  Where there is no room for it, the backslash pairs with the one that wraps the line, and
the reader finds a backslash, a line feed and the indentation in front of the blank.

* `fillBreaks` puts bytes between each line end of a content and a blank after it, and `spill` says
  which bytes get there.
* `Laid` is what a layout writes between quotes.  `laid_wrap` is the induction over the text, and
  `laidLiteral_stringDoc` is about either layout.
* `items_of_laid` reads such a row back, and `stringLiteral_stringDoc` says what a string literal is
  read as.
-/

namespace ResourceLiterals.Literal

open Layout

/-! ## Blanks after line ends -/

/-- A line end of the content with a blank directly after it. -/
def BlankAfterBreak (data : Bytes) : Prop :=
  [carriageReturn, space] <:+: data ∨ [lineFeed, space] <:+: data

/-- The bytes with `filler` between each line end and a blank directly after it. -/
def fillBreaks (filler : Bytes) : Bytes → Bytes
  | [] => []
  | byte :: rest =>
    byte ::
      ((if (byte = carriageReturn ∨ byte = lineFeed) ∧ rest.head? = some space then filler
        else []) ++ fillBreaks filler rest)

@[simp] theorem fillBreaks_nil_filler (data : Bytes) : fillBreaks [] data = data := by
  induction data with
  | nil => rfl
  | cons byte rest ih => simp [fillBreaks, ih]

theorem blankAfterBreak_cons {byte : UInt8} {rest : Bytes} :
    BlankAfterBreak (byte :: rest) ↔
      ((byte = carriageReturn ∨ byte = lineFeed) ∧ rest.head? = some space) ∨
        BlankAfterBreak rest := by
  have hhead : [space] <+: rest ↔ rest.head? = some space := by
    cases rest <;> simp [eq_comm]
  simp only [BlankAfterBreak, List.infix_cons_iff, List.cons_prefix_cons, hhead]
  constructor
  · rintro ((⟨rfl, hspace⟩ | hrest) | ⟨rfl, hspace⟩ | hrest)
    · exact .inl ⟨.inl rfl, hspace⟩
    · exact .inr (.inl hrest)
    · exact .inl ⟨.inr rfl, hspace⟩
    · exact .inr (.inr hrest)
  · rintro (⟨rfl | rfl, hspace⟩ | hrest | hrest)
    · exact .inl (.inl ⟨rfl, hspace⟩)
    · exact .inr (.inl ⟨rfl, hspace⟩)
    · exact .inl (.inr hrest)
    · exact .inr (.inr hrest)

theorem fillBreaks_of_not_blankAfterBreak (filler : Bytes) {data : Bytes}
    (h : ¬ BlankAfterBreak data) : fillBreaks filler data = data := by
  induction data with
  | nil => rfl
  | cons byte rest ih =>
    rw [blankAfterBreak_cons, not_or] at h
    rw [fillBreaks, if_neg h.1, List.nil_append, ih h.2]

theorem length_le_fillBreaks (filler data : Bytes) :
    data.length ≤ (fillBreaks filler data).length := by
  induction data with
  | nil => exact Nat.zero_le _
  | cons byte rest ih =>
    rw [fillBreaks, List.length_cons, List.length_cons, List.length_append]
    omega

theorem length_lt_fillBreaks {filler data : Bytes} (hfiller : filler ≠ [])
    (h : BlankAfterBreak data) : data.length < (fillBreaks filler data).length := by
  induction data with
  | nil => simp [BlankAfterBreak] at h
  | cons byte rest ih =>
    have hpos : 0 < filler.length := List.length_pos_iff.mpr hfiller
    have hle := length_le_fillBreaks filler rest
    rw [fillBreaks, List.length_cons, List.length_cons, List.length_append]
    rcases blankAfterBreak_cons.mp h with hhere | hrest
    · rw [if_pos hhere]
      omega
    · have hlt := ih hrest
      omega

/-- Nothing is filled in just if there is nothing to fill in or no place for it. -/
theorem fillBreaks_eq_self_iff {filler data : Bytes} :
    fillBreaks filler data = data ↔ filler = [] ∨ ¬ BlankAfterBreak data := by
  constructor
  · intro heq
    by_cases hfiller : filler = []
    · exact .inl hfiller
    · refine .inr fun hblank => ?_
      have hlt := length_lt_fillBreaks hfiller hblank
      rw [heq] at hlt
      omega
  · rintro (rfl | hblank)
    · exact fillBreaks_nil_filler data
    · exact fillBreaks_of_not_blankAfterBreak filler hblank

/-- The bytes that get between a line end and a blank when lines are wrapped. -/
def spill (width indent : Int) : Bytes :=
  if indent + 2 ≤ width then [] else backslash :: lineFeed :: List.replicate indent.toNat space

/-! ## Rows of forms -/

/-- A byte as a layout writes it: as its token, as a hex escape, or as a blank that a backslash
keeps. -/
inductive Form : List Char → UInt8 → Prop where
  | token (byte : UInt8) : Form (token byte) byte
  | hex (byte : UInt8) : Form (hexEscape byte).toList byte
  | kept : Form ['\\', ' '] space

theorem item_of_form {chars : List Char} {byte : UInt8} (h : Form chars byte) :
    Item chars [byte] := by
  cases h with
  | token => exact item_token byte
  | hex => exact item_hexEscape byte
  | kept => exact .simple (by decide)

/-- What a layout writes between quotes: forms of bytes, wrapped into lines.  The bytes are those that
a reader finds. -/
inductive Laid (width indent : Int) : List Char → Bytes → Prop where
  | nil : Laid width indent [] []
  | form {chars more : List Char} {byte : UInt8} {bytes : Bytes} (hform : Form chars byte)
      (hmore : Laid width indent more bytes) : Laid width indent (chars ++ more) (byte :: bytes)
  /-- The blanks after the line break are all that stand there. -/
  | wrapped (blanks : Nat) {more : List Char} {bytes : Bytes} (hmaximal : Unindented more)
      (hmore : Laid width indent more bytes) :
      Laid width indent ('\\' :: '\n' :: (List.replicate blanks ' ' ++ more)) bytes
  /-- A blank that a backslash was to keep, but that has no room. -/
  | spilt {more : List Char} {bytes : Bytes} (hroom : ¬ indent + 2 ≤ width)
      (hmore : Laid width indent more bytes) :
      Laid width indent ('\\' :: (turn indent (some space) ++ ' ' :: more))
        (spill width indent ++ space :: bytes)

section Rows

variable {width indent : Int} {next : Option UInt8} {row : List Char} {bytes : Bytes}

theorem mem_indentChars_of_mem_replicate {count : Nat} :
    ∀ c ∈ List.replicate count ' ', c ∈ indentChars := by
  intro c hc
  rw [List.eq_of_mem_replicate hc]
  decide

/-- Blanks that are not at the start of a line stand for themselves. -/
theorem items_replicate_space (count : Nat) (h : Items row bytes) :
    Items (List.replicate count ' ' ++ row) (List.replicate count space ++ bytes) := by
  induction count with
  | zero => exact h
  | succ count ih =>
    have hblank : Item [' '] [space] := .char ' ' (by decide) (by decide)
    have hitems := Items.item hblank ih
    exact hitems

/-- What a blank is read as that a backslash was to keep, but that has no room. -/
theorem items_spill (hroom : ¬ indent + 2 ≤ width) (h : Items row bytes) :
    Items ('\\' :: (turn indent (some space) ++ ' ' :: row))
      (spill width indent ++ space :: bytes) := by
  have hbackslash : Item ['\\', '\\'] [backslash] := .simple (by decide)
  have hbreak : Item ['\n'] [lineFeed] := .char '\n' (by decide) (by decide)
  have hblank : Item ['\\', ' '] [space] := .simple (by decide)
  have hitems := Items.item hbackslash (.item hbreak
    (items_replicate_space indent.toNat (.item hblank h)))
  simpa [turn, lead, lineBreak, spill, hroom] using hitems

/-- A row of forms is read as its bytes. -/
theorem items_of_laid (h : Laid width indent row bytes) : Items row bytes := by
  induction h with
  | nil => exact .nil
  | form hform _ ih => exact .item (item_of_form hform) ih
  | wrapped blanks hmaximal _ ih =>
    have hblanks : ∀ c ∈ List.replicate blanks ' ', c ∈ indentChars :=
      mem_indentChars_of_mem_replicate
    have hitems := Items.continuation (.inl rfl) hblanks hmaximal ih
    exact hitems
  | spilt hroom _ ih => exact items_spill hroom ih

/-- A line may be wrapped where no indentation follows. -/
theorem laid_turn_blank (hnext : next ≠ some space) (hrow : Unindented row)
    (h : Laid width indent row bytes) : Laid width indent (turn indent next ++ row) bytes := by
  have hlaid := Laid.wrapped (indent.toNat + 1) hrow h
  rw [List.replicate_succ'] at hlaid
  simpa [turn, lead, hnext, lineBreak] using hlaid

/-- A line may be wrapped in front of a blank that is kept by a backslash. -/
theorem laid_turn_space (h : Laid width indent ('\\' :: row) bytes) :
    Laid width indent (turn indent (some space) ++ row) bytes := by
  have hkept : Unindented ('\\' :: row) := unindented_cons (by decide)
  have hlaid := Laid.wrapped indent.toNat hkept h
  simpa [turn, lead, lineBreak] using hlaid

/-- Bytes in a form that is one of each of them, in front of a row. -/
theorem laid_flatMap_append {form : UInt8 → List Char} (hform : ∀ byte, Form (form byte) byte)
    (data : Bytes) (h : Laid width indent row bytes) :
    Laid width indent (data.flatMap form ++ row) (data ++ bytes) := by
  induction data with
  | nil => exact h
  | cons byte data ih =>
    rw [List.flatMap_cons, List.append_assoc]
    exact .form (hform byte) ih

theorem laid_flatMap_token (data : Bytes) : Laid width indent (data.flatMap token) data := by
  simpa using laid_flatMap_append .token data (.nil : Laid width indent [] [])

end Rows

/-! ## Wrapped text -/

section WrappedText

variable {width indent : Int} {rest : List Char} {bytes : Bytes}

theorem laid_wrapToken (byte : UInt8) (column : Int) (h : Laid width indent rest bytes) :
    Laid width indent ((wrapToken width indent byte column).chars ++ rest) (byte :: bytes) := by
  unfold wrapToken
  split
  · exact .form (.token byte) h
  · rw [List.append_assoc]
    by_cases hspace : byte = space
    · subst hspace
      exact laid_turn_space (.form .kept h)
    · exact laid_turn_blank (by simpa using hspace) (unindented_token hspace rest)
        (.form (.token byte) h)

theorem unindented_wrapToken {byte : UInt8} (hspace : byte ≠ space) (column : Int) :
    Unindented ((wrapToken width indent byte column).chars ++ rest) := by
  unfold wrapToken
  split
  · exact unindented_token hspace rest
  · exact unindented_cons (by decide)

theorem unindented_wrap {data : Bytes} (hdata : data.head? ≠ some space) (column : Int) :
    Unindented (wrap width indent data column).chars := by
  cases data with
  | nil => exact fun c hc => by simp [wrap] at hc
  | cons byte rest =>
    have hspace : byte ≠ space := by simpa using hdata
    rw [wrap, Written.chars_andThen, wrapByte]
    split
    · rw [Written.chars_andThen, List.append_assoc]
      exact unindented_wrapToken hspace column
    · exact unindented_wrapToken hspace column

theorem endsLine_iff {byte : UInt8} {next : Option UInt8} (hnext : next = some space) :
    endsLine byte next = true ↔ byte = carriageReturn ∨ byte = lineFeed := by
  subst hnext
  have hne : space ≠ lineFeed := by decide
  simp [endsLine, hne, or_comm]

/-- Wrapped text is a row of forms of the bytes, but for what gets in front of blanks after line
ends.  The second part is about text that goes on after a backslash at the start of a line. -/
theorem laid_wrap (data : Bytes) :
    (∀ column, Laid width indent (wrap width indent data column).chars
      (fillBreaks (spill width indent) data)) ∧
    (data.head? = some space →
      Laid width indent ('\\' :: (wrap width indent data (indent + 1)).chars)
        (spill width indent ++ fillBreaks (spill width indent) data)) := by
  induction data with
  | nil => exact ⟨fun _ => .nil, fun h => by simp at h⟩
  | cons byte rest ih =>
    obtain ⟨hrest, hkept⟩ := ih
    constructor
    · intro column
      rw [wrap, Written.chars_andThen, wrapByte, fillBreaks]
      by_cases hends : endsLine byte rest.head? = true
      · rw [if_pos hends, Written.chars_andThen, List.append_assoc]
        apply laid_wrapToken
        by_cases hspace : rest.head? = some space
        · rw [if_pos ⟨(endsLine_iff hspace).mp hends, hspace⟩, hspace]
          exact laid_turn_space (hkept hspace)
        · rw [if_neg (fun h => hspace h.2)]
          exact laid_turn_blank hspace (unindented_wrap hspace _) (hrest _)
      · rw [if_neg hends, if_neg (fun h => hends ((endsLine_iff h.2).mpr h.1))]
        exact laid_wrapToken byte column (hrest _)
    · intro hspace
      obtain rfl : byte = space := by simpa using hspace
      have hends : endsLine space rest.head? = false := rfl
      have hbreak : ¬ (space = carriageReturn ∨ space = lineFeed) := by decide
      have htoken : ((token space).length : Int) = 1 := rfl
      have hwrap : wrapByte width indent space rest.head? (indent + 1) =
          wrapToken width indent space (indent + 1) := by
        rw [wrapByte, hends, if_neg Bool.false_ne_true]
      rw [wrap, Written.chars_andThen, hwrap, wrapToken, htoken]
      have hfill : fillBreaks (spill width indent) (space :: rest) =
          space :: fillBreaks (spill width indent) rest := by
        rw [fillBreaks, if_neg (fun h => hbreak h.1), List.nil_append]
      rw [hfill]
      by_cases hroom : indent + 2 ≤ width
      · have hspill : spill width indent = [] := if_pos hroom
        rw [hspill] at hrest ⊢
        rw [if_pos (by omega)]
        exact .form .kept (hrest _)
      · rw [if_neg (by omega), List.append_assoc]
        exact .spilt hroom (hrest _)

end WrappedText

/-! ## Hex blocks -/

section Blocks

variable (width indent : Int) (flat : Bool)

/-- The lines of a hex blob after the first one. -/
def blockLines (indent : Int) (more : List Bytes) : List Char :=
  more.flatMap fun block => turn indent none ++ (hexBlock block).toList

theorem flatten_blocks (length : Nat) (items : List α) : (blocks length items).flatten = items := by
  fun_induction blocks length items with
  | case1 => rfl
  | case2 first rest ih =>
    rw [List.flatten_cons, ih, List.cons_append, List.take_append_drop]

theorem chars_blockDocs (first : String) (more : List Bytes) (column : Int) :
    (writtenAll width
      ((Doc.text first :: more.map fun block => .text (" " ++ hexBlock block)).intersperse
        (.text "\\" ++ .hardline)) indent flat column).chars =
      first.toList ++ blockLines indent more := by
  induction more generalizing first column with
  | nil => simp [blockLines]
  | cons block more ih =>
    rw [List.map_cons, List.intersperse_cons_cons, writtenAll_cons, Written.chars_andThen,
      writtenAll_cons, Written.chars_andThen, ih]
    simp [blockLines, turn, lead]

/-- A hex blob in lines of `length` bytes. -/
def hexLines (indent : Int) (length : Nat) (data : Bytes) : List Char :=
  '"' :: ((turn indent none).intercalate
    ((blocks length data).map fun block => (hexBlock block).toList) ++ ['"'])

theorem intercalate_cons (separator first : List α) (more : List (List α)) :
    separator.intercalate (first :: more) = first ++ more.flatMap (separator ++ ·) := by
  induction more generalizing first with
  | nil => simp
  | cons second more ih => rw [List.intercalate_cons_cons, ih]; simp

theorem chars_blobDoc (start size column : Int) (data : Bytes) :
    ((blobDoc start size data).written width indent flat column).chars =
      hexLines indent (blockLength start size) data := by
  rw [blobDoc, written_append, written_append, Doc.separate, hexLines]
  simp only [Written.chars_andThen, written_text, written_join]
  cases blocks (blockLength start size) data with
  | nil => rfl
  | cons first more =>
    rw [blockDocs, chars_blockDocs, List.map_cons, intercalate_cons, List.flatMap_map]
    rfl

theorem unindented_blockLines (more : List Bytes) : Unindented (blockLines indent more) := by
  cases more with
  | nil => exact fun c hc => by simp [blockLines] at hc
  | cons block more => exact unindented_cons (by decide)

theorem unindented_hexBlock (block : Bytes) : Unindented (hexBlock block).toList := by
  cases block with
  | nil => exact fun c hc => by simp [hexBlock] at hc
  | cons byte block =>
    rw [hexBlock, List.map_cons, String.join_cons, String.toList_append, hexEscape,
      String.toList_ofList]
    exact unindented_cons (by decide)

theorem laid_hexBlock_append (block : Bytes) {row : List Char} {bytes : Bytes}
    (h : Laid width indent row bytes) :
    Laid width indent ((hexBlock block).toList ++ row) (block ++ bytes) := by
  rw [toList_hexBlock]
  exact laid_flatMap_append .hex block h

theorem laid_blockLines (more : List Bytes) :
    Laid width indent (blockLines indent more) more.flatten := by
  induction more with
  | nil => exact .nil
  | cons block more ih =>
    have hunindented := (unindented_hexBlock block).append (unindented_blockLines indent more)
    have hlaid := laid_hexBlock_append width indent block ih
    have hturn : Laid width indent
        (turn indent none ++ ((hexBlock block).toList ++ blockLines indent more))
        (block ++ more.flatten) := laid_turn_blank (by simp) hunindented hlaid
    simpa [blockLines] using hturn

end Blocks

/-! ## String literals -/

section Literals

variable {width indent column : Int} {flat : Bool}

/-- Whether a text is wrapped: where it may be and does not fit. -/
def Wrapped (width column : Int) (flat : Bool) (data : Bytes) : Prop :=
  flat = false ∧ width < column + (oneLine data).length

instance : Decidable (Wrapped width column flat data) :=
  inferInstanceAs (Decidable (_ ∧ _))

/-- A row of forms between quotes. -/
inductive LaidLiteral (width indent : Int) : List Char → Bytes → Prop where
  | quoted {row : List Char} {bytes : Bytes} (h : Laid width indent row bytes) :
      LaidLiteral width indent ('"' :: (row ++ ['"'])) bytes

theorem LaidLiteral.stringLiteral {chars : List Char} {bytes : Bytes}
    (h : LaidLiteral width indent chars bytes) : StringLiteral chars bytes := by
  obtain ⟨hlaid⟩ := h
  exact .quoted (items_of_laid hlaid)

theorem laidLiteral_hexLines (length : Nat) (data : Bytes) :
    LaidLiteral width indent (hexLines indent length data) data := by
  have hflatten := flatten_blocks length data
  rw [hexLines]
  cases hblocks : blocks length data with
  | nil =>
    rw [hblocks] at hflatten
    rw [← hflatten]
    exact .quoted .nil
  | cons first more =>
    rw [hblocks] at hflatten
    rw [List.map_cons, intercalate_cons, List.flatMap_map, ← hflatten]
    exact .quoted (laid_hexBlock_append width indent first (laid_blockLines width indent more))

theorem laidLiteral_textDoc (data : Bytes) :
    LaidLiteral width indent ((textDoc data).written width indent flat column).chars
      (if Wrapped width column flat data then fillBreaks (spill width indent) data else data) := by
  rw [written_textDoc]
  by_cases hwrapped : Wrapped width column flat data
  · have hone : ¬ (flat = true ∨ column + (oneLine data).length ≤ width) := by
      rcases hwrapped with ⟨hflat, hwidth⟩
      rw [hflat]
      intro hfits
      have hcolumn := hfits.resolve_left Bool.false_ne_true
      omega
    rw [if_pos hwrapped, if_neg hone]
    exact .quoted ((laid_wrap data).1 (column + 1))
  · have hone : flat = true ∨ column + (oneLine data).length ≤ width := by
      by_cases hflat : flat = true
      · exact .inl hflat
      · have hwidth := not_and.mp hwrapped (by simpa using hflat)
        exact .inr (by omega)
    rw [if_neg hwrapped, if_pos hone]
    exact .quoted (laid_flatMap_token data)

/-- The literal of a content is a row of forms, whatever the columns and the mode. -/
theorem laidLiteral_stringDoc (start size : Int) (data : Bytes) :
    LaidLiteral width indent ((stringDoc start size data).written width indent flat column).chars
      (if looksLikeText data = true ∧ Wrapped width column flat data then
        fillBreaks (spill width indent) data
      else data) := by
  rw [stringDoc]
  by_cases htext : looksLikeText data = true
  · rw [if_pos htext]
    simpa only [htext, true_and] using laidLiteral_textDoc data
  · rw [if_neg htext, if_neg (fun h => htext h.1), chars_blobDoc]
    exact laidLiteral_hexLines (blockLength start size) data

/-- What the literal of a content is read as. -/
theorem stringLiteral_stringDoc (start size : Int) (data : Bytes) :
    StringLiteral ((stringDoc start size data).written width indent flat column).chars
      (if looksLikeText data = true ∧ Wrapped width column flat data then
        fillBreaks (spill width indent) data
      else data) :=
  (laidLiteral_stringDoc start size data).stringLiteral

end Literals

/-! ## Literals at the start of a line -/

/-- What the literal of a content is read as that starts where the lines do. -/
def readAs (width indent : Int) (flat : Bool) (data : Bytes) : Bytes :=
  if looksLikeText data = true ∧ Wrapped width indent flat data then
    fillBreaks (spill width indent) data
  else data

theorem readAs_of_room {width indent : Int} (hroom : indent + 2 ≤ width) (flat : Bool)
    (data : Bytes) : readAs width indent flat data = data := by
  have hspill : spill width indent = [] := if_pos hroom
  rw [readAs, hspill, fillBreaks_nil_filler, ite_self]

/-- Where there is room, it makes no difference whether the literal may be wrapped. -/
theorem readAs_flat {width indent : Int} {flat : Bool} (hflat : flat = true → indent + 2 ≤ width)
    (data : Bytes) : readAs width indent flat data = readAs width indent false data := by
  cases flat with
  | false => rfl
  | true =>
    have hroom := hflat rfl
    rw [readAs_of_room hroom, readAs_of_room hroom]

/-- Text spills over just if there is no room for an indented blank, since then there is no room for
quotes either. -/
theorem readAs_eq (width indent : Int) (data : Bytes) :
    readAs width indent false data =
      if indent + 2 ≤ width ∨ looksLikeText data = false then data
      else fillBreaks (backslash :: lineFeed :: List.replicate indent.toNat space) data := by
  have hquotes : 2 ≤ (oneLine data).length := by simp [oneLine]
  by_cases hroom : indent + 2 ≤ width
  · rw [readAs_of_room hroom, if_pos (.inl hroom)]
  · have hspill : spill width indent = _ := if_neg hroom
    have hwrapped : Wrapped width indent false data := ⟨rfl, by omega⟩
    rw [readAs, hspill]
    by_cases htext : looksLikeText data = true
    · have hnarrow : ¬ (indent + 2 ≤ width ∨ looksLikeText data = false) := by simp [hroom, htext]
      rw [if_pos ⟨htext, hwrapped⟩, if_neg hnarrow]
    · rw [if_neg (fun h => htext h.1), if_pos (.inr (by simpa using htext))]

theorem readAs_eq_self_iff (width indent : Int) (data : Bytes) :
    readAs width indent false data = data ↔
      indent + 2 ≤ width ∨ looksLikeText data = false ∨ ¬ BlankAfterBreak data := by
  rw [readAs_eq]
  by_cases hplain : indent + 2 ≤ width ∨ looksLikeText data = false
  · rw [if_pos hplain]
    rcases hplain with hroom | htext
    · simp [hroom]
    · simp [htext]
  · rw [if_neg hplain, fillBreaks_eq_self_iff]
    rw [not_or] at hplain
    simp [hplain]

/-! ## Rendered literals -/

/-- What is rendered is what the document writes, with no gap before it or after it. -/
theorem toList_render_between (doc : Doc) (page : Int) :
    (render doc page).toList = [] ++ ((doc.written page 0 false 0).chars ++ []) := by
  rw [toList_render, List.nil_append, List.append_nil]

theorem parseString_render (column width page : Int) (data : Bytes) :
    parseString (render (stringDoc column width data) page) = .ok (readAs page 0 false data) :=
  parseString_of_stringLiteral (toList_render_between _ page) gap_nil gap_nil
    (stringLiteral_stringDoc column width data)

/-- Whether a rendered literal is read as the content that it was made from, and what it is read as
if not.  The columns for which it was laid out play no role, only the page on which it is
rendered. -/
theorem parseString_render_stringDoc (column width page : Int) (data : Bytes) :
    parseString (render (stringDoc column width data) page) =
        .ok (if 2 ≤ page ∨ looksLikeText data = false then data
          else fillBreaks [backslash, lineFeed] data) ∧
      (parseString (render (stringDoc column width data) page) = .ok data ↔
        2 ≤ page ∨ looksLikeText data = false ∨ ¬ BlankAfterBreak data) := by
  rw [parseString_render, Except.ok.injEq, Except.ok.injEq]
  exact ⟨readAs_eq page 0 data, by simpa using readAs_eq_self_iff page 0 data⟩

end ResourceLiterals.Literal
