import ResourceLiterals.Proofs.Layout.FitCheck
import ResourceLiterals.Proofs.Layout.Written
import ResourceLiterals.Proofs.Literal.Token

/-!
# Text literals as wrapped lines

The layout of a text is a document of nested groups.  What comes out is simpler: either all tokens
stand on one line, or they are put down one by one and a line is wrapped in front of a token for
which there is no room.

* `wrap` is that way to write a text, with the column as its only state.
* `charDoc_eq` puts the layouts of all bytes into one form, and `written_textDoc` says that the
  layout of a text writes the one line or the wrapped ones.
-/

namespace ResourceLiterals.Literal

open Layout

/-! ## Wrapping -/

/-- Whether a line of the literal ends after a byte because a line of the content does. -/
def endsLine (byte : UInt8) (next : Option UInt8) : Bool :=
  byte == lineFeed || (byte == carriageReturn && next != some lineFeed)

/-- What a continuation line starts with.  A reader skips a blank; a backslash keeps one that
follows from being skipped. -/
def lead (next : Option UInt8) : Char :=
  if next = some space then '\\' else ' '

/-- The end of a line of the literal and the start of the next one. -/
def turn (indent : Int) (next : Option UInt8) : List Char :=
  '\\' :: (lineBreak indent ++ [lead next])

/-- The token of a byte on the current line, or on a continuation line if it does not fit. -/
def wrapToken (width indent : Int) (byte : UInt8) (column : Int) : Written :=
  if column + (token byte).length ≤ width then
    ⟨token byte, column + (token byte).length⟩
  else
    ⟨turn indent (some byte) ++ token byte, indent + 1 + (token byte).length⟩

/-- A byte before another one: its token, and a new line where a line of the content ends. -/
def wrapByte (width indent : Int) (byte : UInt8) (next : Option UInt8) (column : Int) : Written :=
  if endsLine byte next then
    (wrapToken width indent byte column).andThen fun _ => ⟨turn indent next, indent + 1⟩
  else
    wrapToken width indent byte column

/-- The bytes of a text in lines of about `width`, from a column on. -/
def wrap (width indent : Int) : Bytes → (column : Int) → Written
  | [], column => ⟨[], column⟩
  | byte :: rest, column =>
    (wrapByte width indent byte rest.head? column).andThen (wrap width indent rest)

/-! ## The layout of one byte -/

/-- The layout of a token that may be moved to a continuation line. -/
def tokenDoc (byte : UInt8) : Doc :=
  .group (.ifFlat (.text (String.ofList (token byte)))
    (continuation (String.ofList (lead (some byte) :: token byte))))

theorem breakable_eq_tokenDoc {byte : UInt8} (escape : String) (hspace : byte ≠ space)
    (hescape : escape = String.ofList (token byte)) : breakable escape = tokenDoc byte := by
  have hlead : " " ++ String.ofList (token byte) =
      String.ofList (lead (some byte) :: token byte) := by
    apply String.toList_injective
    simp [lead, hspace]
  rw [breakable, hescape, hlead, tokenDoc]

/-- Every byte has a layout of the same form. -/
theorem charDoc_eq (byte : UInt8) (next : Option UInt8) :
    charDoc byte next =
      if endsLine byte next then
        .ifFlat (.text (String.ofList (token byte)))
          (tokenDoc byte ++ continuation (String.singleton (lead next)))
      else tokenDoc byte := by
  have htail : (if next = some space then "\\" else " ") = String.singleton (lead next) := by
    unfold lead
    split <;> rfl
  unfold charDoc
  by_cases hspace : byte = space
  · subst hspace
    rfl
  rw [if_neg hspace]
  by_cases hcr : byte = carriageReturn
  · subst hcr
    rw [breakable_eq_tokenDoc "\\r" hspace rfl]
    by_cases hnext : next = some lineFeed
    · subst hnext
      rfl
    · have hend : endsLine carriageReturn next = true := by
        simp [endsLine, hnext]
      rw [if_neg (by simp [hnext]), if_pos (.inl rfl), if_pos hend]
      simp only [if_true, htail]
      rfl
  · rw [if_neg (by simp [hcr])]
    by_cases hlf : byte = lineFeed
    · subst hlf
      have hend : endsLine lineFeed next = true := rfl
      rw [if_pos (.inr rfl), if_pos hend]
      simp only [if_neg hcr, htail]
      rw [breakable_eq_tokenDoc "\\n" hspace rfl]
      rfl
    · have hend : endsLine byte next = false := by
        simp [endsLine, hcr, hlf]
      rw [if_neg (by simp [hcr, hlf]), hend]
      refine breakable_eq_tokenDoc _ hspace ?_
      rw [token, if_neg hlf, if_neg hcr, String.ofList_toList]

section Written

variable (width indent column : Int) (byte : UInt8) (next : Option UInt8)

theorem written_continuation (tail : String) (flat : Bool) :
    (continuation tail).written width indent flat column =
      ⟨'\\' :: (lineBreak indent ++ tail.toList), indent + tail.length⟩ := by
  simp [continuation, Written.andThen]

theorem fitsWithin_tokenDoc (docs : List Doc) (room : Int) :
    fitsWithin width (tokenDoc byte :: docs) room =
      fitsWithin width docs (room - (token byte).length) := by
  simp [tokenDoc]

theorem fitsWithin_charDoc (docs : List Doc) (room : Int) :
    fitsWithin width (charDoc byte next :: docs) room =
      fitsWithin width docs (room - (token byte).length) := by
  rw [charDoc_eq]
  split
  · simp
  · exact fitsWithin_tokenDoc width byte docs room

theorem written_tokenDoc_flat :
    (tokenDoc byte).written width indent true column =
      ⟨token byte, column + (token byte).length⟩ := by
  simp [tokenDoc]

theorem written_charDoc_flat :
    (charDoc byte next).written width indent true column =
      ⟨token byte, column + (token byte).length⟩ := by
  rw [charDoc_eq]
  split
  · simp
  · exact written_tokenDoc_flat width indent column byte

theorem written_tokenDoc_broken :
    (tokenDoc byte).written width indent false column = wrapToken width indent byte column := by
  have hfits : fits (.ifFlat (.text (String.ofList (token byte)))
      (continuation (String.ofList (lead (some byte) :: token byte)))) column width =
      decide (column + (token byte).length ≤ width) := by
    simp only [fits, fitsWithin_ifFlat, fitsWithin_text, fitsWithin_nil, String.length_ofList]
    congr 1
    rw [eq_iff_iff]
    omega
  rw [tokenDoc, written_group, hfits, written_ifFlat, wrapToken]
  by_cases hroom : column + (token byte).length ≤ width
  · simp [hroom]
  · simp [hroom, written_continuation, turn]
    omega

theorem written_charDoc_broken :
    (charDoc byte next).written width indent false column =
      wrapByte width indent byte next column := by
  rw [charDoc_eq, wrapByte]
  split
  · simp only [written_ifFlat, written_append, written_tokenDoc_broken]
    simp [Written.andThen, written_continuation, turn]
  · exact written_tokenDoc_broken width indent column byte

end Written

/-! ## The layout of a text -/

/-- All tokens on one line, between quotes. -/
def oneLine (data : Bytes) : List Char :=
  '"' :: (data.flatMap token ++ ['"'])

section Text

variable (width indent : Int)

theorem fitsWithin_charDocs (data : Bytes) (docs : List Doc) (room : Int) :
    fitsWithin width (charDocs data ++ docs) room =
      fitsWithin width docs (room - (data.flatMap token).length) := by
  induction data generalizing room with
  | nil => simp [charDocs]
  | cons byte rest ih =>
    rw [charDocs, List.cons_append, fitsWithin_charDoc, ih, List.flatMap_cons, List.length_append]
    congr 1
    omega

/-- A text fits as its one line does. -/
theorem fitsWithin_textDoc (data : Bytes) (docs : List Doc) (room : Int) :
    fitsWithin width (textDoc data :: docs) room =
      fitsWithin width docs (room - (oneLine data).length) := by
  have hlength : ((oneLine data).length : Int) = 1 + (data.flatMap token).length + 1 := by
    simp only [oneLine, List.length_cons, List.length_append, List.length_nil]
    omega
  have hquote : ("\"".length : Int) = 1 := rfl
  have happend : .text "\"" :: charDocs data ++ [.text "\""] ++ docs =
      Doc.text "\"" :: (charDocs data ++ (.text "\"" :: docs)) := by simp
  rw [textDoc, fitsWithin_group, fitsWithin_join, happend, fitsWithin_text, fitsWithin_charDocs,
    fitsWithin_text, hlength, hquote]
  congr 1
  omega

theorem writtenAll_charDocs_flat (data : Bytes) (column : Int) :
    writtenAll width (charDocs data) indent true column =
      ⟨data.flatMap token, column + (data.flatMap token).length⟩ := by
  induction data generalizing column with
  | nil => simp [charDocs]
  | cons byte rest ih =>
    rw [charDocs, writtenAll_cons, written_charDoc_flat, Written.andThen, ih, List.flatMap_cons]
    have hcolumn : column + (token byte).length + (rest.flatMap token).length =
        column + ((token byte ++ rest.flatMap token).length : Int) := by
      rw [List.length_append]
      omega
    rw [← hcolumn]

theorem writtenAll_charDocs_broken (data : Bytes) (column : Int) :
    writtenAll width (charDocs data) indent false column = wrap width indent data column := by
  induction data generalizing column with
  | nil => rfl
  | cons byte rest ih =>
    rw [charDocs, writtenAll_cons, written_charDoc_broken, wrap]
    congr 1
    funext reached
    exact ih reached

/-- What the layout of a text writes: all tokens on one line where that fits or has to, else the
wrapped lines. -/
theorem written_textDoc (data : Bytes) (flat : Bool) (column : Int) :
    (textDoc data).written width indent flat column =
      if flat = true ∨ column + (oneLine data).length ≤ width then
        ⟨oneLine data, column + (oneLine data).length⟩
      else
        ⟨'"' :: ((wrap width indent data (column + 1)).chars ++ ['"']),
          (wrap width indent data (column + 1)).column + 1⟩ := by
  have hlength : ((oneLine data).length : Int) = (data.flatMap token).length + 2 := by
    simp [oneLine]
    omega
  have hfits : fits (Doc.join (.text "\"" :: charDocs data ++ [.text "\""])) column width =
      decide (column + (oneLine data).length ≤ width) := by
    rw [fits, ← fitsWithin_group, ← textDoc, fitsWithin_textDoc, fitsWithin_nil]
    congr 1
    rw [eq_iff_iff]
    omega
  have hquote : ("\"".length : Int) = 1 := rfl
  rw [textDoc, written_group, hfits, written_join]
  by_cases hone : flat = true ∨ column + (oneLine data).length ≤ width
  · have hflat : (flat || decide (column + (oneLine data).length ≤ width)) = true := by
      simpa using hone
    have hcolumn : column + 1 + (data.flatMap token).length + 1 =
        column + (oneLine data).length := by omega
    rw [hflat, if_pos hone, ← hcolumn]
    simp only [List.cons_append, writtenAll_cons, writtenAll_append, writtenAll_charDocs_flat,
      writtenAll_nil, written_text, Written.andThen, hquote, List.append_nil]
    rfl
  · have hflat : (flat || decide (column + (oneLine data).length ≤ width)) = false := by
      simpa using hone
    rw [hflat, if_neg hone]
    simp only [List.cons_append, writtenAll_cons, writtenAll_append, writtenAll_charDocs_broken,
      writtenAll_nil, written_text, Written.andThen, hquote, List.append_nil]
    rfl

end Text

/-- A text is rendered on one line if that fits on the page.  If not, its bytes are put down one by
one: each on the current line if there is room for its token, else on a continuation line, and with
a continuation line after each line end of the content.  The columns for which the text was laid
out play no role. -/
theorem render_stringDoc_of_looksLikeText {data : Bytes} (htext : looksLikeText data = true)
    (column width page : Int) :
    render (stringDoc column width data) page =
      String.ofList
        (if (oneLine data).length ≤ page then oneLine data
        else '"' :: ((wrap page 0 data 1).chars ++ ['"'])) := by
  have hcolumn : (0 + (oneLine data).length : Int) = (oneLine data).length := Int.zero_add _
  apply String.toList_injective
  rw [toList_render, String.toList_ofList, stringDoc, if_pos htext, written_textDoc]
  simp only [Bool.false_eq_true, false_or, hcolumn, Int.zero_add]
  split <;> rfl

/-- A narrow page, and a content with a blank after its line end. -/
theorem render_stringDoc_of_looksLikeText_narrow :
    looksLikeText [0x61, 0x0A, 0x20, 0x62] = true ∧
      render (stringDoc 0 80 [0x61, 0x0A, 0x20, 0x62]) 5 = "\"a\\n\\\n\\ b\"" := by
  have htext : looksLikeText [0x61, 0x0A, 0x20, 0x62] = true := by decide
  refine ⟨htext, ?_⟩
  rw [render_stringDoc_of_looksLikeText htext 0 80 5]
  decide

end ResourceLiterals.Literal
