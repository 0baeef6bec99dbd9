import Mathlib.Data.List.TakeWhile
import ResourceLiterals.Proofs.Literal.Grammar

/-!
# What the readers of literals accept

The readers accept the grammar; here is the converse.  What has been read as bytes is a row of items
that stand for these bytes, what has been read as a list is a row of such literals, and a text that
has been read is a literal with blanks around it.

* `Cursor.Passes` says which characters stand between two places.
* `readEscape_cases`, `items_of_readItems` and `elements_of_readElements` are the inversions of the
  readers.
* `parseString_iff` and `parseList_iff` put both directions together.
-/

namespace ResourceLiterals.Literal

variable {cursor middle next : Cursor} {bytes : Bytes}

/-! ## Places -/

/-- `next` is the place after `chars`, which stand at `cursor`. -/
structure Cursor.Passes (cursor : Cursor) (chars : List Char) (next : Cursor) : Prop where
  rest : cursor.rest = chars ++ next.rest
  offset : next.offset = cursor.offset + chars.length

namespace Cursor

theorem Passes.trans {first second : List Char} (hfirst : cursor.Passes first middle)
    (hsecond : middle.Passes second next) : cursor.Passes (first ++ second) next where
  rest := by rw [hfirst.rest, hsecond.rest, List.append_assoc]
  offset := by
    rw [hsecond.offset, hfirst.offset, List.length_append, Nat.add_assoc]

theorem passes_advance {chars rest : List Char} (h : cursor.rest = chars ++ rest) :
    cursor.Passes chars (cursor.advance chars.length) where
  rest := by rw [rest_advance, h, List.drop_left]
  offset := rfl

theorem advance_advance (cursor : Cursor) (first second : Nat) :
    (cursor.advance first).advance second = cursor.advance (first + second) := by
  simp [advance, Nat.add_assoc]

theorem passes_skipWhile (cursor : Cursor) (p : Char → Bool) :
    cursor.Passes (cursor.rest.takeWhile p) (cursor.skipWhile p) where
  rest := List.takeWhile_append_dropWhile.symm
  offset := rfl

/-- After the blanks of an indentation comes none. -/
theorem unindented_skipWhile (cursor : Cursor) : Unindented (cursor.skipWhile isIndent).rest := by
  intro c hc
  rw [rest_skipWhile] at hc
  have hhead := List.head?_dropWhile_not isIndent cursor.rest
  rw [Option.mem_def.mp hc] at hhead
  have hblank : isIndent c = false := by simpa using hhead
  exact mt isIndent_iff.mpr (Bool.eq_false_iff.mp hblank)

end Cursor

/-! ## Escapes -/

theorem forall₂_of_mapM_eq_some {f : α → Option β} {items : List α} {values : List β}
    (h : items.mapM f = some values) :
    List.Forall₂ (fun item value => f item = some value) items values := by
  induction items generalizing values with
  | nil =>
    obtain rfl : [] = values := Option.some.inj h
    exact .nil
  | cons item items ih =>
    simp only [List.mapM_cons, Option.bind_eq_bind, Option.bind_eq_some_iff, Option.pure_def,
      Option.some.injEq] at h
    obtain ⟨value, hvalue, others, hothers, rfl⟩ := h
    exact .cons hvalue (ih hothers)

/-- What is read as the code of a byte is digits of that code. -/
theorem code_of_readCode {count base : Nat} {byte : UInt8}
    (h : readCode count base cursor = .ok byte) :
    ∃ digits, Code count base digits byte ∧ cursor.Passes digits (cursor.advance count) := by
  unfold readCode at h
  split at h
  · simp at h
  · rename_i values hvalues
    split at h
    · simp at h
    · rename_i hcount
      split at h
      · simp at h
      · rename_i hrange
        obtain rfl := Except.ok.inj h
        have hdigits : List.Forall₂ (Digit base) (cursor.rest.take count) values :=
          (forall₂_of_mapM_eq_some hvalues).imp fun _ _ => digitValue?_eq_some_iff.mp
        have hlength : (cursor.rest.take count).length = count := by
          rw [hdigits.length_eq]
          omega
        have hpasses := Cursor.passes_advance (List.take_append_drop count cursor.rest).symm
        rw [hlength] at hpasses
        rw [placeValue_eq_ofDigits] at hrange ⊢
        exact ⟨_, .digits hlength hdigits (by omega), hpasses⟩

/-- A character that opens an escape, and the digits after it. -/
theorem code_of_readCode_advance {c : Char} {rest : List Char} (hrest : cursor.rest = c :: rest)
    {count base : Nat} {byte : UInt8} (h : readCode count base (cursor.advance 1) = .ok byte) :
    ∃ digits, Code count base digits byte ∧
      cursor.Passes (c :: digits) (cursor.advance (1 + count)) := by
  obtain ⟨digits, hdigits, hpasses⟩ := code_of_readCode h
  have hc : cursor.Passes [c] (cursor.advance 1) := Cursor.passes_advance hrest
  have hboth := hc.trans hpasses
  rw [Cursor.advance_advance] at hboth
  exact ⟨digits, hdigits, hboth⟩

/-- What stands after the backslash of a continuation: a line break and the indentation of the next
line. -/
structure Continued (cursor : Cursor) (lineEnd indent : List Char) (next : Cursor) : Prop where
  ends : lineEnd = ['\n'] ∨ lineEnd = ['\r', '\n']
  indents : ∀ c ∈ indent, c ∈ indentChars
  maximal : Unindented next.rest
  passes : cursor.Passes (lineEnd ++ indent) next

theorem continued_skipWhile {lineEnd : List Char}
    (hlineEnd : lineEnd = ['\n'] ∨ lineEnd = ['\r', '\n']) (h : cursor.Passes lineEnd middle) :
    Continued cursor lineEnd (middle.rest.takeWhile isIndent) (middle.skipWhile isIndent) where
  ends := hlineEnd
  indents _ hc := isIndent_iff.mp (List.mem_takeWhile_imp hc)
  maximal := middle.unindented_skipWhile
  passes := h.trans (middle.passes_skipWhile isIndent)

/-- After a backslash comes the rest of an escape, or the rest of a continuation. -/
theorem readEscape_cases (h : readEscape cursor = .ok (bytes, next)) :
    (∃ chars, Item ('\\' :: chars) bytes ∧ cursor.Passes chars next) ∨
      bytes = [] ∧ ∃ lineEnd indent, Continued cursor lineEnd indent next := by
  unfold readEscape at h
  split at h
  · simp at h
  · rename_i c rest hrest
    split at h
    · rename_i byte hsimple
      obtain ⟨rfl, rfl⟩ := Prod.mk.inj (Except.ok.inj h)
      have hitem : Item ['\\', c] [byte] := .simple (simpleEscape?_eq_some_iff.mp hsimple)
      exact .inl ⟨[c], hitem, Cursor.passes_advance hrest⟩
    split at h
    · rename_i hlf
      subst hlf
      obtain ⟨rfl, rfl⟩ := Prod.mk.inj (Except.ok.inj h)
      exact .inr ⟨rfl, _, _, continued_skipWhile (.inl rfl) (Cursor.passes_advance hrest)⟩
    split at h
    · rename_i hcrlf
      obtain ⟨rfl, hlf⟩ := hcrlf
      obtain ⟨rfl, rfl⟩ := Prod.mk.inj (Except.ok.inj h)
      obtain ⟨more, hmore⟩ := List.head?_eq_some_iff.mp hlf
      have hrest' : cursor.rest = ['\r', '\n'] ++ more := by rw [hrest, hmore]; rfl
      exact .inr ⟨rfl, _, _, continued_skipWhile (.inr rfl) (Cursor.passes_advance hrest')⟩
    split at h
    · rename_i hx
      subst hx
      obtain ⟨byte, hcode, heq⟩ := exists_of_map_eq_ok h
      obtain ⟨rfl, rfl⟩ := Prod.mk.inj heq
      obtain ⟨digits, hdigits, hpasses⟩ := code_of_readCode_advance hrest hcode
      exact .inl ⟨_, .hex hdigits, hpasses⟩
    split at h
    · rename_i ho
      subst ho
      obtain ⟨byte, hcode, heq⟩ := exists_of_map_eq_ok h
      obtain ⟨rfl, rfl⟩ := Prod.mk.inj heq
      obtain ⟨digits, hdigits, hpasses⟩ := code_of_readCode_advance hrest hcode
      exact .inl ⟨_, .octal hdigits, hpasses⟩
    split at h
    · obtain ⟨byte, hcode, heq⟩ := exists_of_map_eq_ok h
      obtain ⟨rfl, rfl⟩ := Prod.mk.inj heq
      obtain ⟨digits, hdigits, hpasses⟩ := code_of_readCode hcode
      exact .inl ⟨digits, .decimal hdigits, hpasses⟩
    · simp at h

/-! ## Rows of items -/

theorem Unindented.of_append {first second : List Char} (h : Unindented (first ++ second)) :
    Unindented first := by
  intro c hc
  refine h c ?_
  rw [List.head?_append, Option.mem_def.mp hc]
  rfl

/-- What is read up to a quote is a row of items. -/
theorem items_of_readItems {start : Nat} (h : readItems start cursor = .ok (bytes, next)) :
    ∃ chars, Items chars bytes ∧ cursor.Passes (chars ++ ['"']) next := by
  fun_induction readItems start cursor generalizing bytes next with
  | case1 => simp at h
  | case2 cursor rest hrest =>
    obtain ⟨rfl, rfl⟩ := Prod.mk.inj (Except.ok.inj h)
    exact ⟨[], .nil, Cursor.passes_advance hrest⟩
  | case3 => simp at h
  | case4 => simp at h
  | case5 cursor rest escaped following hescape more last hmore hrest _ ih =>
    obtain ⟨rfl, rfl⟩ := Prod.mk.inj (Except.ok.inj h)
    obtain ⟨chars, hitems, hpasses⟩ := ih hmore
    have hbackslash : cursor.Passes ['\\'] (cursor.advance 1) := Cursor.passes_advance hrest
    rcases readEscape_cases hescape with ⟨escape, hitem, hread⟩ | ⟨rfl, lineEnd, indent, hbreak⟩
    · refine ⟨'\\' :: escape ++ chars, .item hitem hitems, ?_⟩
      simpa using (hbackslash.trans hread).trans hpasses
    · refine ⟨'\\' :: (lineEnd ++ (indent ++ chars)), ?_, ?_⟩
      · have hmaximal := hbreak.maximal
        rw [hpasses.rest, List.append_assoc] at hmaximal
        exact .continuation hbreak.ends hbreak.indents hmaximal.of_append hitems
      · simpa using (hbackslash.trans hbreak.passes).trans hpasses
  | case6 => simp at h
  | case7 cursor c rest hrest hquote hbackslash more last hmore ih =>
    obtain ⟨rfl, rfl⟩ := Prod.mk.inj (Except.ok.inj h)
    obtain ⟨chars, hitems, hpasses⟩ := ih hmore
    have hc : cursor.Passes [c] (cursor.advance 1) := Cursor.passes_advance hrest
    exact ⟨[c] ++ chars, .item (.char c hquote hbackslash) hitems, hc.trans hpasses⟩

theorem stringLiteral_of_readString (h : readString cursor = .ok (bytes, next)) :
    ∃ chars, StringLiteral chars bytes ∧ cursor.Passes chars next := by
  unfold readString at h
  split at h
  · rename_i hquote
    obtain ⟨rest, hrest⟩ := List.head?_eq_some_iff.mp hquote
    obtain ⟨chars, hitems, hpasses⟩ := items_of_readItems h
    have hopen : cursor.Passes ['"'] (cursor.advance 1) := Cursor.passes_advance hrest
    exact ⟨_, .quoted hitems, hopen.trans hpasses⟩
  · simp at h

/-! ## Elements of lists -/

theorem Cursor.passes_skipGap (cursor : Cursor) :
    ∃ gap, Gap gap ∧ cursor.Passes gap cursor.skipGap :=
  ⟨_, fun _ hc => isGap_iff.mp (List.mem_takeWhile_imp hc), cursor.passes_skipWhile isGap⟩

/-- A bracket or a semicolon, and the blanks after it. -/
theorem Cursor.passes_skipGap_advance {c : Char} {rest : List Char} (h : cursor.rest = c :: rest) :
    ∃ gap, Gap gap ∧ cursor.Passes (c :: gap) (cursor.advance 1).skipGap := by
  obtain ⟨gap, hgap, hpasses⟩ := (cursor.advance 1).passes_skipGap
  have hc : cursor.Passes [c] (cursor.advance 1) := Cursor.passes_advance h
  exact ⟨gap, hgap, hc.trans hpasses⟩

/-- A string literal and the blanks after it. -/
theorem stringLiteral_gap_of_readString (h : readString cursor = .ok (bytes, next)) :
    ∃ literal gap, StringLiteral literal bytes ∧ Gap gap ∧
      cursor.Passes (literal ++ gap) next.skipGap := by
  obtain ⟨literal, hliteral, hpasses⟩ := stringLiteral_of_readString h
  obtain ⟨gap, hgap, hskip⟩ := next.passes_skipGap
  exact ⟨literal, gap, hliteral, hgap, hpasses.trans hskip⟩

/-- What is read up to a bracket is a row of elements. -/
theorem elements_of_readElements {values : List Bytes}
    (h : readElements cursor = .ok (values, next)) :
    ∃ chars, Elements chars values ∧ cursor.Passes (chars ++ [']']) next := by
  fun_induction readElements cursor generalizing values next with
  | case1 cursor hbracket =>
    obtain ⟨rfl, rfl⟩ := Prod.mk.inj (Except.ok.inj h)
    obtain ⟨rest, hrest⟩ := List.head?_eq_some_iff.mp hbracket
    exact ⟨[], .nil, Cursor.passes_advance hrest⟩
  | case2 => simp at h
  | case3 => simp at h
  | case4 cursor _ element after hread place rest hsemicolon others last hmore =>
    rename_i ih
    obtain ⟨rfl, rfl⟩ := Prod.mk.inj (Except.ok.inj h)
    obtain ⟨literal, gap, hliteral, hgap, hplace⟩ := stringLiteral_gap_of_readString hread
    obtain ⟨gap', hgap', hnext⟩ := Cursor.passes_skipGap_advance hsemicolon
    obtain ⟨more, helements, hlast⟩ := ih hmore
    refine ⟨_, .cons hliteral hgap hgap' helements, ?_⟩
    simpa using (hplace.trans hnext).trans hlast
  | case5 cursor _ element after hread place rest =>
    rename_i hbracket
    obtain ⟨rfl, rfl⟩ := Prod.mk.inj (Except.ok.inj h)
    obtain ⟨literal, gap, hliteral, hgap, hplace⟩ := stringLiteral_gap_of_readString hread
    have hclose : place.Passes [']'] (place.advance 1) := Cursor.passes_advance hbracket
    exact ⟨_, .last hliteral hgap, hplace.trans hclose⟩
  | case6 => simp at h

/-- Reads a list literal and gives the values of its elements and the place after it. -/
def readList (cursor : Cursor) : Except ReadError (List Bytes × Cursor) :=
  if cursor.rest.head? = some '[' then readElements (cursor.advance 1).skipGap
  else .error ⟨.noBracket, cursor.offset⟩

theorem listLiteral_of_readList {values : List Bytes} (h : readList cursor = .ok (values, next)) :
    ∃ chars, ListLiteral chars values ∧ cursor.Passes chars next := by
  unfold readList at h
  split at h
  · rename_i hbracket
    obtain ⟨rest, hrest⟩ := List.head?_eq_some_iff.mp hbracket
    obtain ⟨gap, hgap, hopen⟩ := Cursor.passes_skipGap_advance hrest
    obtain ⟨chars, helements, hpasses⟩ := elements_of_readElements h
    refine ⟨_, .bracketed hgap helements, ?_⟩
    simpa using hopen.trans hpasses
  · simp at h

/-! ## Whole texts -/

/-- A literal with blanks around it. -/
inductive Padded (literal : List Char → α → Prop) : List Char → α → Prop where
  | padded {before chars after : List Char} {value : α} (hbefore : Gap before)
      (h : literal chars value) (hafter : Gap after) :
      Padded literal (before ++ (chars ++ after)) value

section WholeTexts

variable {α : Type} {read : Cursor → Except ReadError (α × Cursor)} {literal : List Char → α → Prop}
  {text : String} {value : α}

theorem Cursor.gap_of_expectEnd (h : cursor.expectEnd = .ok ()) : Gap cursor.rest := by
  obtain ⟨gap, hgap, hpasses⟩ := cursor.passes_skipGap
  rw [expectEnd] at h
  split at h
  · rename_i hempty
    rw [hpasses.rest, List.isEmpty_iff.mp hempty, List.append_nil]
    exact hgap
  · simp at h

/-- Reads a text to its end, with blanks around what is read. -/
def readWhole (read : Cursor → Except ReadError (α × Cursor)) (text : String) :
    Except ReadError α :=
  read (Cursor.start text).skipGap >>= fun (value, after) => after.expectEnd.map fun _ => value

theorem parseString_eq_readWhole (text : String) : parseString text = readWhole readString text :=
  rfl

theorem parseList_eq_readWhole (text : String) : parseList text = readWhole readList text := by
  simp only [parseList, readWhole, readList, ite_not]
  split
  · rfl
  · rfl

/-- Where a reader reads literals, a text that is read to its end is a literal with blanks around
it. -/
theorem padded_of_readWhole
    (hread : ∀ cursor next value, read cursor = .ok (value, next) →
      ∃ chars, literal chars value ∧ cursor.Passes chars next)
    (h : readWhole read text = .ok value) : Padded literal text.toList value := by
  obtain ⟨before, hbefore, hstart⟩ := (Cursor.start text).passes_skipGap
  obtain ⟨⟨_, after⟩, hvalue, h⟩ := exists_of_bind_eq_ok h
  obtain ⟨⟨⟩, hend, rfl⟩ := exists_of_map_eq_ok h
  obtain ⟨chars, hliteral, hpasses⟩ := hread _ _ _ hvalue
  have htext : text.toList = before ++ (chars ++ after.rest) := by
    rw [← hpasses.rest, ← hstart.rest]
    rfl
  rw [htext]
  exact .padded hbefore hliteral (Cursor.gap_of_expectEnd hend)

end WholeTexts

theorem parseString_eq_ok_iff {text : String} :
    parseString text = .ok bytes ↔ Padded StringLiteral text.toList bytes := by
  constructor
  · rw [parseString_eq_readWhole]
    exact padded_of_readWhole fun _ _ _ => stringLiteral_of_readString
  · intro h
    generalize htext : text.toList = chars at h
    obtain ⟨hbefore, hliteral, hafter⟩ := h
    exact parseString_of_stringLiteral htext hbefore hafter hliteral

/-- A text is read just if it is a string literal with blanks around it, as the bytes that its items
stand for, and is refused just if it is none. -/
theorem parseString_iff (text : String) :
    (∀ bytes, parseString text = .ok bytes ↔ Padded StringLiteral text.toList bytes) ∧
    ((∃ error, parseString text = .error error) ↔
      ∀ bytes, ¬ Padded StringLiteral text.toList bytes) := by
  refine ⟨fun bytes => parseString_eq_ok_iff, ?_⟩
  simp only [← parseString_eq_ok_iff]
  cases parseString text with
  | error error => simp
  | ok bytes => simp

theorem parseList_eq_ok_iff {text : String} {values : List Bytes} :
    parseList text = .ok values ↔ Padded ListLiteral text.toList values := by
  constructor
  · rw [parseList_eq_readWhole]
    exact padded_of_readWhole fun _ _ _ => listLiteral_of_readList
  · intro h
    generalize htext : text.toList = chars at h
    obtain ⟨hbefore, hliteral, hafter⟩ := h
    exact parseList_of_listLiteral htext hbefore hafter hliteral

/-- A text is read as a list just if it is a list literal with blanks around it, with the values of
the literals in it, and is refused just if it is none. -/
theorem parseList_iff (text : String) :
    (∀ values, parseList text = .ok values ↔ Padded ListLiteral text.toList values) ∧
    ((∃ error, parseList text = .error error) ↔
      ∀ values, ¬ Padded ListLiteral text.toList values) := by
  refine ⟨fun values => parseList_eq_ok_iff, ?_⟩
  simp only [← parseList_eq_ok_iff]
  cases parseList text with
  | error error => simp
  | ok values => simp

end ResourceLiterals.Literal
