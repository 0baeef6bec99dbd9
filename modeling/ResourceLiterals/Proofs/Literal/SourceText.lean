import ResourceLiterals.Proofs.Literal.Acceptance
import ResourceLiterals.Proofs.Literal.ReadBack

/-!
# The source text of literals

The reader of string literals takes more than the layouts write: control characters and line breaks
that stand for themselves, for example.  In what is rendered there is none of that, and every
backslash pairs with what it was written for.

* `readPieces` goes through a literal as the reader does and keeps the characters of every item.
  `readItems_eq_readPieces` says that it is the reader, and `passes_of_readPieces` that the pieces
  make up what has been read.
* `Tidy` is what holds of each piece: it is printable, or a continuation.
* `render_stringDoc_tidy` is about rendered literals.
-/

namespace ResourceLiterals.Literal

open Layout

/-! ## The pieces that the reader takes -/

/-- The characters from a place to a later one. -/
def Cursor.upTo (cursor next : Cursor) : List Char :=
  cursor.rest.take (next.offset - cursor.offset)

theorem Cursor.Passes.upTo_eq {cursor next : Cursor} {chars : List Char}
    (h : cursor.Passes chars next) : cursor.upTo next = chars := by
  rw [upTo, h.offset, h.rest, Nat.add_sub_cancel_left, List.take_left]

/-- An item of a literal, with the bytes that it is read as. -/
structure Piece where
  chars : List Char
  bytes : Bytes
deriving DecidableEq, Repr

/-- Goes through the items of the string literal that starts at `start`, up to its closing quote. -/
def readPieces (start : Nat) (cursor : Cursor) : Except ReadError (List Piece × Cursor) :=
  match _hrest : cursor.rest with
  | [] => .error ⟨.unterminatedString, start⟩
  | c :: _ =>
    if c = '"' then
      .ok ([], cursor.advance 1)
    else if c = '\\' then
      match _hescape : readEscape (cursor.advance 1) with
      | .error error => .error error
      | .ok (bytes, next) =>
        (readPieces start next).map fun (pieces, last) =>
          (⟨cursor.upTo next, bytes⟩ :: pieces, last)
    else
      (readPieces start (cursor.advance 1)).map fun (pieces, last) =>
        (⟨[c], String.utf8EncodeChar c⟩ :: pieces, last)
termination_by cursor.rest.length
decreasing_by
  · have := length_lt_of_readEscape _hescape
    simp [_hrest] at this ⊢
    omega
  · simp [_hrest]

/-- Reading a literal is going through its pieces. -/
theorem readItems_eq_readPieces (start : Nat) (cursor : Cursor) :
    readItems start cursor =
      (readPieces start cursor).map fun (pieces, last) => (pieces.flatMap Piece.bytes, last) := by
  fun_induction readPieces start cursor with
  | case1 cursor hrest =>
    obtain ⟨offset, rest⟩ := cursor
    subst hrest
    rw [readItems.eq_def]
    rfl
  | case2 cursor rest hrest =>
    obtain ⟨offset, _⟩ := cursor
    subst hrest
    rw [readItems_quote]
    rfl
  | case3 cursor rest error hescape hrest =>
    obtain ⟨offset, _⟩ := cursor
    subst hrest
    have hescape : readEscape ⟨offset + 1, rest⟩ = .error error := hescape
    rw [readItems_escape, hescape]
    rfl
  | case4 cursor rest bytes next hescape hrest hquote ih =>
    obtain ⟨offset, _⟩ := cursor
    subst hrest
    have hescape : readEscape ⟨offset + 1, rest⟩ = .ok (bytes, next) := hescape
    rw [readItems_escape, hescape]
    show (readItems start next).map _ = _
    rw [ih]
    cases readPieces start next <;> rfl
  | case5 cursor c rest hrest hquote hbackslash ih =>
    obtain ⟨offset, _⟩ := cursor
    subst hrest
    have ih : readItems start ⟨offset + 1, rest⟩ = _ := ih
    rw [readItems_char hquote hbackslash, ih]
    cases readPieces start ((Cursor.mk offset (c :: rest)).advance 1) <;> rfl

theorem passes_of_readEscape {cursor next : Cursor} {bytes : Bytes}
    (h : readEscape cursor = .ok (bytes, next)) : ∃ chars, cursor.Passes chars next := by
  rcases readEscape_cases h with ⟨chars, -, hpasses⟩ | ⟨-, lineEnd, indent, hbreak⟩
  · exact ⟨chars, hpasses⟩
  · exact ⟨lineEnd ++ indent, hbreak.passes⟩

/-- The pieces of a literal with its closing quote make up what has been read. -/
theorem passes_of_readPieces {start : Nat} {cursor last : Cursor} {pieces : List Piece}
    (h : readPieces start cursor = .ok (pieces, last)) :
    cursor.Passes (pieces.flatMap Piece.chars ++ ['"']) last := by
  fun_induction readPieces start cursor generalizing pieces last with
  | case1 => simp at h
  | case2 cursor rest hrest =>
    obtain ⟨rfl, rfl⟩ := Prod.mk.inj (Except.ok.inj h)
    exact Cursor.passes_advance hrest
  | case3 => simp at h
  | case4 cursor rest bytes next hescape hrest hquote ih =>
    obtain ⟨⟨more, last⟩, hmore, heq⟩ := exists_of_map_eq_ok h
    obtain ⟨rfl, rfl⟩ := Prod.mk.inj heq
    have hbackslash : cursor.Passes ['\\'] (cursor.advance 1) := Cursor.passes_advance hrest
    obtain ⟨escape, hread⟩ := passes_of_readEscape hescape
    have hpiece := hbackslash.trans hread
    have hpasses := hpiece.trans (ih hmore)
    rw [← hpiece.upTo_eq, ← List.append_assoc] at hpasses
    exact hpasses
  | case5 cursor c rest hrest hquote hbackslash ih =>
    obtain ⟨⟨more, last⟩, hmore, heq⟩ := exists_of_map_eq_ok h
    obtain ⟨rfl, rfl⟩ := Prod.mk.inj heq
    have hc : cursor.Passes [c] (cursor.advance 1) := Cursor.passes_advance hrest
    exact hc.trans (ih hmore)

section Pieces

variable {start offset : Nat} {rest : List Char} {pieces : List Piece} {last : Cursor}

theorem readPieces_quote (start offset : Nat) (rest : List Char) :
    readPieces start ⟨offset, '"' :: rest⟩ = .ok ([], ⟨offset + 1, rest⟩) := by
  rw [readPieces.eq_def]
  rfl

/-- A backslash and what is read after it are one piece. -/
theorem readPieces_escape {escape : List Char} {bytes : Bytes}
    (hescape : readEscape ⟨offset + 1, escape ++ rest⟩ =
      .ok (bytes, ⟨offset + 1 + escape.length, rest⟩))
    (h : readPieces start ⟨offset + 1 + escape.length, rest⟩ = .ok (pieces, last)) :
    readPieces start ⟨offset, '\\' :: (escape ++ rest)⟩ =
      .ok (⟨'\\' :: escape, bytes⟩ :: pieces, last) := by
  have hrest : (Cursor.mk offset ('\\' :: (escape ++ rest))).advance 1 =
      ⟨offset + 1, escape ++ rest⟩ := rfl
  have hpasses : (Cursor.mk offset ('\\' :: (escape ++ rest))).Passes ('\\' :: escape)
      ⟨offset + 1 + escape.length, rest⟩ := by
    refine ⟨rfl, ?_⟩
    show offset + 1 + escape.length = offset + (escape.length + 1)
    omega
  rw [readPieces.eq_def]
  simp only [Char.reduceEq, if_false, if_true]
  split
  · rename_i error herror
    rw [hrest, hescape] at herror
    simp at herror
  · rename_i bytes' next hok
    rw [hrest, hescape] at hok
    obtain ⟨rfl, rfl⟩ := Prod.mk.inj (Except.ok.inj hok)
    rw [h, hpasses.upTo_eq]
    rfl

/-- An item is one piece. -/
theorem readPieces_item {chars : List Char} {bytes : Bytes} (hitem : Item chars bytes)
    (h : readPieces start ⟨offset + chars.length, rest⟩ = .ok (pieces, last)) :
    readPieces start ⟨offset, chars ++ rest⟩ = .ok (⟨chars, bytes⟩ :: pieces, last) := by
  obtain ⟨c, rfl, rfl, hquote, hbackslash⟩ | ⟨escape, rfl⟩ := hitem.cases_head
  · have hrest : readPieces start ((Cursor.mk offset (c :: rest)).advance 1) = .ok (pieces, last) := h
    rw [List.singleton_append, readPieces.eq_def]
    simp [hquote, hbackslash, hrest, Except.map]
  · rw [List.length_cons, Nat.add_comm escape.length, ← Nat.add_assoc] at h
    exact readPieces_escape (readEscape_of_item hitem (offset + 1) rest) h

/-- A continuation is one piece, with no bytes. -/
theorem readPieces_continuation {blanks : Nat} (hmaximal : Unindented rest)
    (h : readPieces start ⟨offset + (blanks + 2), rest⟩ = .ok (pieces, last)) :
    readPieces start ⟨offset, '\\' :: '\n' :: (List.replicate blanks ' ' ++ rest)⟩ =
      .ok (⟨'\\' :: '\n' :: List.replicate blanks ' ', []⟩ :: pieces, last) := by
  have hblanks : ∀ c ∈ List.replicate blanks ' ', c ∈ indentChars :=
    mem_indentChars_of_mem_replicate
  have hescape := readEscape_continuation (.inl rfl) hblanks hmaximal (offset + 1)
  have hlast : offset + 1 + ['\n'].length + (List.replicate blanks ' ').length =
      offset + 1 + ('\n' :: List.replicate blanks ' ').length := by
    simp only [List.length_cons, List.length_nil]
    omega
  have hnext : offset + (blanks + 2) = offset + 1 + ('\n' :: List.replicate blanks ' ').length := by
    rw [List.length_cons, List.length_replicate]
    omega
  rw [hlast] at hescape
  rw [hnext] at h
  exact readPieces_escape hescape h

end Pieces

/-! ## The pieces of a rendered literal -/

/-- A piece of source text: nothing but printable characters and line feeds, a quote only behind a
backslash, and a line feed only where a line of the literal is wrapped. -/
structure Piece.Tidy (piece : Piece) : Prop where
  printable : ∀ c ∈ piece.chars, c = '\n' ∨ ' ' ≤ c ∧ c ≤ '~'
  quote : '"' ∈ piece.chars → piece.chars = ['\\', '"']
  lineFeed : '\n' ∈ piece.chars →
    ∃ blanks, piece = ⟨'\\' :: '\n' :: List.replicate blanks ' ', []⟩

theorem tidy_continuation (blanks : Nat) :
    Piece.Tidy ⟨'\\' :: '\n' :: List.replicate blanks ' ', []⟩ where
  printable := by
    intro c hc
    rcases List.mem_cons.mp hc with rfl | hc
    · exact .inr (by decide)
    rcases List.mem_cons.mp hc with rfl | hc
    · exact .inl rfl
    · rw [List.eq_of_mem_replicate hc]
      exact .inr (by decide)
  quote := by simp
  lineFeed _ := ⟨blanks, rfl⟩

theorem tidy_of_printable {piece : Piece} (h : ∀ c ∈ piece.chars, ' ' ≤ c ∧ c ≤ '~')
    (hquote : '"' ∈ piece.chars → piece.chars = ['\\', '"']) : piece.Tidy where
  printable c hc := .inr (h c hc)
  quote := hquote
  lineFeed hmem := absurd (h '\n' hmem).1 (by decide)

theorem tidy_simple {c : Char} {byte : UInt8} (h : (c, byte) ∈ simpleEscapes) (bytes : Bytes) :
    Piece.Tidy ⟨['\\', c], bytes⟩ := by
  have all : ∀ escape ∈ simpleEscapes, ' ' ≤ escape.1 ∧ escape.1 ≤ '~' := by decide
  have hbackslash : ' ' ≤ '\\' ∧ '\\' ≤ '~' := by decide
  apply tidy_of_printable
  · intro d hd
    rcases List.mem_pair.mp hd with rfl | rfl
    · exact hbackslash
    · exact all _ h
  · intro hmem
    obtain rfl : '"' = c := by simpa using hmem
    rfl

theorem tidy_hexEscape (byte : UInt8) (bytes : Bytes) :
    Piece.Tidy ⟨(hexEscape byte).toList, bytes⟩ := by
  have all : ∀ value < 16, (' ' ≤ hexDigit value ∧ hexDigit value ≤ '~') ∧ hexDigit value ≠ '"' := by
    decide
  have hlt := byte.toNat_lt
  have hhigh := all (byte.toNat / 16) (by omega)
  have hlow := all (byte.toNat % 16) (by omega)
  rw [hexEscape, String.toList_ofList]
  apply tidy_of_printable
  · simp [hhigh.1, hlow.1]
  · simp [hhigh.2.symm, hlow.2.symm]

theorem tidy_shown {byte : UInt8} (h : ShownAsItself byte) (bytes : Bytes) :
    Piece.Tidy ⟨[Char.ofNat byte.toNat], bytes⟩ := by
  have hle (c d : Char) : c ≤ d ↔ c.toNat ≤ d.toNat := Iff.rfl
  apply tidy_of_printable
  · intro c hc
    rw [List.mem_singleton.mp hc, hle, hle, toNat_ofNat_byte]
    exact h.toNat_range
  · intro hmem
    exact absurd (List.mem_singleton.mp hmem).symm (ofNat_toNat_ne h.ne_quote rfl)

theorem tidy_form {chars : List Char} {byte : UInt8} (h : Form chars byte) (bytes : Bytes) :
    Piece.Tidy ⟨chars, bytes⟩ := by
  cases h with
  | token =>
    rcases token_cases byte with ⟨c, htoken, hsimple⟩ | htoken | ⟨htoken, hshown⟩
    · rw [htoken]
      exact tidy_simple hsimple bytes
    · rw [htoken]
      exact tidy_hexEscape byte bytes
    · rw [htoken]
      exact tidy_shown hshown bytes
  | hex => exact tidy_hexEscape byte bytes
  | kept => exact tidy_simple (show (' ', space) ∈ simpleEscapes by decide) bytes

/-- Where there is room for a blank that a backslash keeps, the reader goes through a row of forms in
tidy pieces. -/
theorem readPieces_of_laid {width indent : Int} (hroom : indent + 2 ≤ width) {row : List Char}
    {bytes : Bytes} (h : Laid width indent row bytes) (start offset : Nat) (tail : List Char) :
    ∃ pieces, readPieces start ⟨offset, row ++ '"' :: tail⟩ =
        .ok (pieces, ⟨offset + row.length + 1, tail⟩) ∧
      ∀ piece ∈ pieces, piece.Tidy := by
  induction h generalizing offset with
  | nil => exact ⟨[], readPieces_quote start offset tail, by simp⟩
  | @form chars more byte bytes hform _ ih =>
    obtain ⟨pieces, hread, htidy⟩ := ih (offset + chars.length)
    refine ⟨⟨chars, [byte]⟩ :: pieces, ?_, ?_⟩
    · rw [List.append_assoc, List.length_append, ← Nat.add_assoc]
      exact readPieces_item (item_of_form hform) hread
    · exact List.forall_mem_cons.mpr ⟨tidy_form hform [byte], htidy⟩
  | @wrapped blanks more bytes hmaximal _ ih =>
    have hunindented : Unindented (more ++ '"' :: tail) := hmaximal.append (unindented_cons (by decide))
    obtain ⟨pieces, hread, htidy⟩ := ih (offset + (blanks + 2))
    refine ⟨_ :: pieces, ?_, List.forall_mem_cons.mpr ⟨tidy_continuation blanks, htidy⟩⟩
    have hlength : offset + ('\\' :: '\n' :: (List.replicate blanks ' ' ++ more)).length + 1 =
        offset + (blanks + 2) + more.length + 1 := by
      simp only [List.length_cons, List.length_append, List.length_replicate]
      omega
    rw [hlength, List.cons_append, List.cons_append, List.append_assoc]
    exact readPieces_continuation hunindented hread
  | spilt hnarrow => exact absurd hroom hnarrow

/-- The reader goes through a whole literal in tidy pieces. -/
theorem readPieces_of_laidLiteral {width indent : Int} (hroom : indent + 2 ≤ width)
    {chars : List Char} {bytes : Bytes} (h : LaidLiteral width indent chars bytes) :
    ∃ pieces, readPieces 0 ((Cursor.mk 0 chars).advance 1) = .ok (pieces, ⟨chars.length, []⟩) ∧
      chars = '"' :: (pieces.flatMap Piece.chars ++ ['"']) ∧
      ∀ piece ∈ pieces, piece.Tidy := by
  obtain ⟨hrow⟩ := h
  rename_i row
  obtain ⟨pieces, hread, htidy⟩ := readPieces_of_laid hroom hrow 0 1 []
  have hlength : ('"' :: (row ++ ['"'])).length = 1 + row.length + 1 := by
    rw [List.length_cons, List.length_append, List.length_singleton]
    omega
  have hrest : row ++ ['"'] = pieces.flatMap Piece.chars ++ ['"'] ++ [] :=
    (passes_of_readPieces hread).rest
  rw [List.append_nil] at hrest
  refine ⟨pieces, ?_, congrArg _ hrest, htidy⟩
  rw [hlength]
  exact hread

theorem printable_of_tidy {pieces : List Piece} (htidy : ∀ piece ∈ pieces, piece.Tidy) :
    ∀ c ∈ '"' :: (pieces.flatMap Piece.chars ++ ['"']), c = '\n' ∨ ' ' ≤ c ∧ c ≤ '~' := by
  have hquote : ' ' ≤ '"' ∧ '"' ≤ '~' := by decide
  intro c hc
  rcases List.mem_cons.mp hc with rfl | hc
  · exact .inr hquote
  rcases List.mem_append.mp hc with hmem | hmem
  · obtain ⟨piece, hpiece, hchar⟩ := List.mem_flatMap.mp hmem
    exact (htidy piece hpiece).printable c hchar
  · rw [List.mem_singleton.mp hmem]
    exact .inr hquote

/-- A literal is rendered in printable characters and line feeds.  The reader goes through it from its
opening quote to its last character in tidy pieces: every quote between the two is escaped, and every
line feed ends a wrapped line.  The columns for which the literal was laid out play no role. -/
theorem render_stringDoc_tidy {page : Int} (hpage : 2 ≤ page) (column width : Int) (data : Bytes) :
    let text := render (stringDoc column width data) page
    let start := (Cursor.start text).advance 1
    let last : Cursor := ⟨text.length, []⟩
    (∀ c ∈ text.toList, c = '\n' ∨ ' ' ≤ c ∧ c ≤ '~') ∧
      ∃ pieces,
        readPieces 0 start = .ok (pieces, last) ∧
          readItems 0 start = .ok (pieces.flatMap Piece.bytes, last) ∧
          text.toList = '"' :: (pieces.flatMap Piece.chars ++ ['"']) ∧
          ∀ piece ∈ pieces, piece.Tidy := by
  intro text start last
  have hlaid : LaidLiteral page 0 (((stringDoc column width data).written page 0 false 0).chars) _ :=
    laidLiteral_stringDoc column width data
  rw [← toList_render] at hlaid
  have hroom : 0 + 2 ≤ page := by omega
  obtain ⟨pieces, hread, htext, htidy⟩ := readPieces_of_laidLiteral hroom hlaid
  rw [String.length_toList] at hread
  have hitems : readItems 0 start = .ok (pieces.flatMap Piece.bytes, last) := by
    rw [readItems_eq_readPieces]
    exact congrArg (Except.map _) hread
  refine ⟨?_, pieces, hread, hitems, htext, htidy⟩
  rw [htext]
  exact printable_of_tidy htidy

/-- The narrowest page, and a content of a backslash, a line end with a blank after it, and a quote. -/
theorem render_stringDoc_tidy_narrow :
    (2 : Int) ≤ 2 ∧
      ∃ pieces,
        readPieces 0 ((Cursor.start (render (stringDoc 0 80 [0x5C, 0x0A, 0x20, 0x22]) 2)).advance 1) =
            .ok (pieces, ⟨21, []⟩) ∧
          pieces.map (fun piece => String.ofList piece.chars) =
            ["\\\n ", "\\\\", "\\\n ", "\\n", "\\\n", "\\ ", "\\\n ", "\\\""] ∧
          ∀ piece ∈ pieces, piece.Tidy := by
  have hpage : (2 : Int) ≤ 2 := by decide
  have htext : (render (stringDoc 0 80 [0x5C, 0x0A, 0x20, 0x22]) 2).toList =
      "\"\\\n \\\\\\\n \\n\\\n\\ \\\n \\\"\"".toList := by
    rw [toList_render]
    decide
  have hpieces :
      readPieces 0 ((Cursor.start (render (stringDoc 0 80 [0x5C, 0x0A, 0x20, 0x22]) 2)).advance 1) =
        .ok ([⟨['\\', '\n', ' '], []⟩, ⟨['\\', '\\'], [0x5C]⟩, ⟨['\\', '\n', ' '], []⟩,
          ⟨['\\', 'n'], [0x0A]⟩, ⟨['\\', '\n'], []⟩, ⟨['\\', ' '], [0x20]⟩,
          ⟨['\\', '\n', ' '], []⟩, ⟨['\\', '"'], [0x22]⟩], ⟨21, []⟩) := by
    rw [Cursor.start, htext]
    decide +kernel
  obtain ⟨-, pieces, hread, -, -, htidy⟩ :=
    render_stringDoc_tidy hpage 0 80 [0x5C, 0x0A, 0x20, 0x22]
  rw [hpieces] at hread
  obtain ⟨rfl, -⟩ := Prod.mk.inj (Except.ok.inj hread)
  exact ⟨hpage, _, hpieces, by decide, htidy⟩

end ResourceLiterals.Literal
