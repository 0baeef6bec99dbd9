import ResourceLiterals.Literal.IntegerReader
import ResourceLiterals.Proofs.Literal.Acceptance

/-!
# Where faults show

A reader refuses a text at some place in it.  What comes before that place is never to blame: it is
the beginning of a text that the same reader takes.

* `Begins` says that characters go on to something of a grammar, and `Cursor.FaultAfter` that this
  is so for the characters in front of a fault.
* `faultAfter_readItems`, `faultAfter_readElements` and their neighbours follow the readers, one
  lemma each.
* `faults_located` is about whole texts.
-/

namespace ResourceLiterals.Literal

variable {α : Type} {cursor middle : Cursor} {error : ReadError}

/-! ## Beginnings -/

/-- Characters that go on to something of a grammar. -/
def Begins (grammar : List Char → α → Prop) (chars : List Char) : Prop :=
  ∃ more value, grammar (chars ++ more) value

theorem begins_of_grammar {grammar : List Char → α → Prop} {chars : List Char} {value : α}
    (h : grammar chars value) : Begins grammar chars :=
  ⟨[], value, by rwa [List.append_nil]⟩

section Beginnings

variable {chars : List Char} {bytes : Bytes}

theorem begins_items_item {item : List Char} (hitem : Item item bytes) (h : Begins Items chars) :
    Begins Items (item ++ chars) := by
  obtain ⟨more, others, hitems⟩ := h
  exact ⟨more, bytes ++ others, by simpa using Items.item hitem hitems⟩

/-- Where nothing comes after an indentation, what is put there must not lengthen it. -/
theorem begins_items_continuation {lineEnd indent : List Char}
    (hlineEnd : lineEnd = ['\n'] ∨ lineEnd = ['\r', '\n'])
    (hindent : ∀ c ∈ indent, c ∈ indentChars) (hmaximal : Unindented chars)
    (h : Begins Items chars) : Begins Items ('\\' :: (lineEnd ++ (indent ++ chars))) := by
  cases chars with
  | nil => exact begins_of_grammar (.continuation hlineEnd hindent hmaximal .nil)
  | cons c chars =>
    obtain ⟨more, others, hitems⟩ := h
    have hfirst : Unindented (c :: chars ++ more) := unindented_cons (hmaximal c rfl)
    exact ⟨more, others, by simpa using Items.continuation hlineEnd hindent hfirst hitems⟩

/-- Zeros are digits of every base. -/
theorem code_zeros (count : Nat) {base : Nat} (hbase : 0 < base) :
    Code count base (List.replicate count '0') 0 := by
  have hvalues : List.Forall₂ (Digit base) (List.replicate count '0') (List.replicate count 0) := by
    induction count with
    | zero => exact .nil
    | succ count ih => exact .cons ⟨by decide, hbase⟩ ih
  have hplace : Nat.ofDigits base (List.replicate count 0).reverse = 0 := by
    rw [List.reverse_replicate, Nat.ofDigits_replicate_zero]
  have hcode := Code.digits List.length_replicate hvalues (by omega)
  rwa [hplace] at hcode

theorem begins_items_of_item {chars more : List Char} (h : Item (chars ++ more) bytes) :
    Begins Items chars :=
  ⟨more, bytes ++ [], by simpa using Items.item h .nil⟩

theorem begins_stringLiteral_nil : Begins StringLiteral [] :=
  ⟨['"', '"'], [], .quoted .nil⟩

theorem begins_stringLiteral_items (h : Begins Items chars) :
    Begins StringLiteral ('"' :: chars) := by
  obtain ⟨more, bytes, hitems⟩ := h
  exact ⟨more ++ ['"'], bytes, by simpa using StringLiteral.quoted hitems⟩

theorem begins_elements_literal (h : Begins StringLiteral chars) : Begins Elements chars := by
  obtain ⟨more, bytes, hliteral⟩ := h
  exact ⟨more, [bytes], by simpa using Elements.last hliteral gap_nil⟩

theorem begins_elements_cons {literal gap gap' : List Char} (hliteral : StringLiteral literal bytes)
    (hgap : Gap gap) (hgap' : Gap gap') (h : Begins Elements chars) :
    Begins Elements (literal ++ gap ++ (';' :: gap') ++ chars) := by
  obtain ⟨more, values, helements⟩ := h
  exact ⟨more, bytes :: values, by simpa using Elements.cons hliteral hgap hgap' helements⟩

theorem begins_listLiteral_nil : Begins ListLiteral [] :=
  ⟨['[', ']'], [], .bracketed gap_nil .nil⟩

theorem begins_listLiteral_elements {gap : List Char} (hgap : Gap gap) (h : Begins Elements chars) :
    Begins ListLiteral ('[' :: gap ++ chars) := by
  obtain ⟨more, values, helements⟩ := h
  exact ⟨more ++ [']'], values, by simpa using ListLiteral.bracketed hgap helements⟩

theorem begins_padded {literal : List Char → α → Prop} {gap : List Char} (hgap : Gap gap)
    (h : Begins literal chars) : Begins (Padded literal) (gap ++ chars) := by
  obtain ⟨more, value, hliteral⟩ := h
  exact ⟨more, value, by simpa using Padded.padded hgap hliteral gap_nil⟩

end Beginnings

/-! ## Faults of the readers -/

theorem Cursor.Passes.refl (cursor : Cursor) : cursor.Passes [] cursor :=
  ⟨rfl, rfl⟩

/-- The characters from `cursor` to the place of a fault have a property. -/
def Cursor.FaultAfter (cursor : Cursor) (error : ReadError) (p : List Char → Prop) : Prop :=
  ∃ chars place, cursor.Passes chars place ∧ error.offset = place.offset ∧ p chars

section Faults

variable {p q : List Char → Prop}

/-- A fault that shows right here. -/
theorem Cursor.faultAfter_here (hoffset : error.offset = cursor.offset) (hp : p []) :
    cursor.FaultAfter error p :=
  ⟨[], cursor, .refl cursor, hoffset, hp⟩

/-- A fault further on, seen from an earlier place. -/
theorem Cursor.FaultAfter.earlier {first : List Char} (h : middle.FaultAfter error q)
    (hfirst : cursor.Passes first middle) (hp : ∀ chars, q chars → p (first ++ chars)) :
    cursor.FaultAfter error p := by
  obtain ⟨chars, place, hpasses, hoffset, hq⟩ := h
  exact ⟨first ++ chars, place, hfirst.trans hpasses, hoffset, hp chars hq⟩

theorem Cursor.FaultAfter.mono (h : cursor.FaultAfter error q) (hp : ∀ chars, q chars → p chars) :
    cursor.FaultAfter error p :=
  h.earlier (.refl cursor) hp

end Faults

theorem offset_of_readCode {count base : Nat} (h : readCode count base cursor = .error error) :
    error.offset = cursor.offset := by
  unfold readCode at h
  split at h
  · obtain rfl := Except.error.inj h
    rfl
  · split at h
    · obtain rfl := Except.error.inj h
      rfl
    · split at h
      · obtain rfl := Except.error.inj h
        rfl
      · simp at h

/-- A fault in an escape shows at its backslash or in front of its digits. -/
theorem faultAfter_readEscape {rest : List Char} (hrest : cursor.rest = '\\' :: rest)
    (h : readEscape (cursor.advance 1) = .error error) :
    cursor.FaultAfter error (Begins Items) := by
  have hbackslash : cursor.Passes ['\\'] (cursor.advance 1) := Cursor.passes_advance hrest
  unfold readEscape at h
  split at h
  · obtain rfl := Except.error.inj h
    exact Cursor.faultAfter_here rfl (begins_of_grammar .nil)
  · rename_i c more hmore
    have hletter : (cursor.advance 1).Passes [c] ((cursor.advance 1).advance 1) :=
      Cursor.passes_advance hmore
    split at h
    · simp at h
    split at h
    · simp at h
    split at h
    · simp at h
    split at h
    · rename_i hx
      subst hx
      have hoffset := offset_of_readCode (eq_error_of_map_eq_error h)
      have hitem : Item (['\\', 'x'] ++ ['0', '0']) [0] := .hex (code_zeros 2 (by decide))
      exact ⟨_, _, hbackslash.trans hletter, hoffset, begins_items_of_item hitem⟩
    split at h
    · rename_i ho
      subst ho
      have hoffset := offset_of_readCode (eq_error_of_map_eq_error h)
      have hitem : Item (['\\', 'o'] ++ ['0', '0', '0']) [0] := .octal (code_zeros 3 (by decide))
      exact ⟨_, _, hbackslash.trans hletter, hoffset, begins_items_of_item hitem⟩
    split at h
    · have hoffset := offset_of_readCode (eq_error_of_map_eq_error h)
      have hitem : Item (['\\'] ++ ['0', '0', '0']) [0] := .decimal (code_zeros 3 (by decide))
      exact ⟨_, _, hbackslash, hoffset, begins_items_of_item hitem⟩
    · obtain rfl := Except.error.inj h
      exact Cursor.faultAfter_here rfl (begins_of_grammar .nil)

/-- A fault in a row of items shows inside it, or where the literal starts. -/
theorem faultAfter_readItems {start : Nat} (h : readItems start cursor = .error error) :
    error.offset = start ∨ cursor.FaultAfter error (Begins Items) := by
  fun_induction readItems start cursor with
  | case1 =>
    obtain rfl := Except.error.inj h
    exact .inl rfl
  | case2 => simp at h
  | case3 cursor rest other hescape hrest =>
    obtain rfl := Except.error.inj h
    exact .inr (faultAfter_readEscape hrest hescape)
  | case4 cursor rest bytes next hescape other hother hrest _ ih =>
    obtain rfl := Except.error.inj h
    refine (ih hother).imp_right fun hfault => ?_
    have hbackslash : cursor.Passes ['\\'] (cursor.advance 1) := Cursor.passes_advance hrest
    rcases readEscape_cases hescape with ⟨escape, hitem, hread⟩ | ⟨-, lineEnd, indent, hbreak⟩
    · exact hfault.earlier (hbackslash.trans hread) fun _ => begins_items_item hitem
    · obtain ⟨chars, place, hpasses, hoffset, hbegins⟩ := hfault
      have hmaximal := hbreak.maximal
      rw [hpasses.rest] at hmaximal
      refine ⟨_, place, (hbackslash.trans hbreak.passes).trans hpasses, hoffset, ?_⟩
      simpa using
        begins_items_continuation hbreak.ends hbreak.indents hmaximal.of_append hbegins
  | case5 => simp at h
  | case6 cursor c rest hrest hquote hbackslash other hother ih =>
    obtain rfl := Except.error.inj h
    refine (ih hother).imp_right fun hfault => ?_
    have hc : cursor.Passes [c] (cursor.advance 1) := Cursor.passes_advance hrest
    exact hfault.earlier hc fun _ => begins_items_item (.char c hquote hbackslash)
  | case7 => simp at h

theorem faultAfter_readString (h : readString cursor = .error error) :
    cursor.FaultAfter error (Begins StringLiteral) := by
  unfold readString at h
  split at h
  · rename_i hquote
    obtain ⟨rest, hrest⟩ := List.head?_eq_some_iff.mp hquote
    have hopen : cursor.Passes ['"'] (cursor.advance 1) := Cursor.passes_advance hrest
    rcases faultAfter_readItems h with hstart | hfault
    · exact Cursor.faultAfter_here hstart begins_stringLiteral_nil
    · exact hfault.earlier hopen fun _ => begins_stringLiteral_items
  · obtain rfl := Except.error.inj h
    exact Cursor.faultAfter_here rfl begins_stringLiteral_nil

theorem faultAfter_readElements (h : readElements cursor = .error error) :
    cursor.FaultAfter error (Begins Elements) := by
  fun_induction readElements cursor with
  | case1 => simp at h
  | case2 cursor _ other hread =>
    obtain rfl := Except.error.inj h
    exact (faultAfter_readString hread).mono fun _ => begins_elements_literal
  | case3 cursor _ element after hread place rest hsemicolon other hother =>
    rename_i ih
    obtain rfl := Except.error.inj h
    obtain ⟨literal, gap, hliteral, hgap, hplace⟩ := stringLiteral_gap_of_readString hread
    obtain ⟨gap', hgap', hnext⟩ := Cursor.passes_skipGap_advance hsemicolon
    exact (ih hother).earlier (hplace.trans hnext) fun _ =>
      begins_elements_cons hliteral hgap hgap'
  | case4 => simp at h
  | case5 => simp at h
  | case6 cursor _ element after hread place =>
    obtain rfl := Except.error.inj h
    obtain ⟨literal, gap, hliteral, hgap, hplace⟩ := stringLiteral_gap_of_readString hread
    exact ⟨_, place, hplace, rfl, begins_of_grammar (.last hliteral hgap)⟩

theorem faultAfter_readList (h : readList cursor = .error error) :
    cursor.FaultAfter error (Begins ListLiteral) := by
  unfold readList at h
  split at h
  · rename_i hbracket
    obtain ⟨rest, hrest⟩ := List.head?_eq_some_iff.mp hbracket
    obtain ⟨gap, hgap, hopen⟩ := Cursor.passes_skipGap_advance hrest
    exact (faultAfter_readElements h).earlier hopen fun _ => begins_listLiteral_elements hgap
  · obtain rfl := Except.error.inj h
    exact Cursor.faultAfter_here rfl begins_listLiteral_nil

/-! ## Faults in whole texts -/

section WholeTexts

variable {read : Cursor → Except ReadError (α × Cursor)} {literal : List Char → α → Prop}
  {text : String}

/-- What follows a literal shows where the blanks after it end. -/
theorem Cursor.faultAfter_expectEnd (h : cursor.expectEnd = .error error) :
    cursor.FaultAfter error Gap := by
  obtain ⟨gap, hgap, hpasses⟩ := cursor.passes_skipGap
  rw [expectEnd] at h
  split at h
  · simp at h
  · obtain rfl := Except.error.inj h
    exact ⟨gap, _, hpasses, rfl, hgap⟩

/-- Where the faults of a reader show inside of literals, those of a text that is read to its end
show inside of literals with blanks around them. -/
theorem faultAfter_readWhole
    (hread : ∀ cursor next value, read cursor = .ok (value, next) →
      ∃ chars, literal chars value ∧ cursor.Passes chars next)
    (hfault : ∀ cursor error, read cursor = .error error →
      cursor.FaultAfter error (Begins literal))
    (h : readWhole read text = .error error) :
    (Cursor.start text).FaultAfter error (Begins (Padded literal)) := by
  obtain ⟨before, hbefore, hstart⟩ := (Cursor.start text).passes_skipGap
  rcases cases_of_bind_eq_error h with hfirst | ⟨⟨value, after⟩, hvalue, hend⟩
  · exact (hfault _ _ hfirst).earlier hstart fun _ => begins_padded hbefore
  · obtain ⟨chars, hliteral, hpasses⟩ := hread _ _ _ hvalue
    have hafter := Cursor.faultAfter_expectEnd (eq_error_of_map_eq_error hend)
    refine hafter.earlier (hstart.trans hpasses) fun gap hgap => ?_
    rw [List.append_assoc]
    exact begins_of_grammar (.padded hbefore hliteral hgap)

end WholeTexts

/-- A place up to which a text is the beginning of one that is read. -/
structure Locates (parse : String → Except ε α) (text : String) (offset : Nat) : Prop where
  inside : offset ≤ text.length
  viable : ∃ more value, parse (String.ofList (text.toList.take offset) ++ more) = .ok value

section Locates

variable {ε : Type} {parse : String → Except ε α} {p : List Char → Prop} {text : String}

theorem locates_of_faultAfter
    (hparse : ∀ chars, p chars → ∃ more value, parse (String.ofList chars ++ more) = .ok value)
    (h : (Cursor.start text).FaultAfter error p) : Locates parse text error.offset := by
  obtain ⟨chars, place, hpasses, hoffset, hchars⟩ := h
  have htext : text.toList = chars ++ place.rest := hpasses.rest
  have hlength : error.offset = chars.length := by
    rw [hoffset, hpasses.offset]
    exact Nat.zero_add _
  have htake : text.toList.take error.offset = chars := by
    rw [htext, hlength, List.take_left]
  refine ⟨?_, ?_⟩
  · rw [← String.length_toList, htext, hlength, List.length_append]
    omega
  · rw [htake]
    exact hparse chars hchars

/-- Where a reader takes a grammar, it takes what a beginning goes on to. -/
theorem exists_parse_of_begins {grammar : List Char → α → Prop}
    (hparse : ∀ text value, grammar text.toList value → parse text = .ok value)
    (chars : List Char) (h : Begins grammar chars) :
    ∃ more value, parse (String.ofList chars ++ more) = .ok value := by
  obtain ⟨more, value, hvalue⟩ := h
  refine ⟨String.ofList more, value, hparse _ _ ?_⟩
  rwa [String.toList_append, String.toList_ofList, String.toList_ofList]

end Locates

/-! ## Integers -/

theorem isBlank_of_mem_gapChars {c : Char} (h : c ∈ gapChars) : Text.isBlank c = true := by
  simp only [gapChars, List.mem_cons, List.not_mem_nil, or_false] at h
  rcases h with rfl | rfl | rfl | rfl <;> rfl

/-- A digit with blanks in front of it. -/
theorem parseInteger_gap {gap : List Char} (hgap : Gap gap) :
    parseInteger (String.ofList gap ++ "0") = .ok 0 := by
  have hblank : ∀ c ∈ gap, Text.isBlank c = true := fun c hc =>
    isBlank_of_mem_gapChars (hgap c hc)
  have hstrip : Text.strip (String.ofList gap ++ "0").toList = ['0'] := by
    rw [String.toList_append, String.toList_ofList, Text.strip, Text.stripWhile,
      List.dropWhile_append_of_pos hblank]
    rfl
  have hread : Text.readInteger ['0'] = .ok 0 := by decide
  rw [parseInteger, hstrip, hread]

/-- A text that is no integer is refused where the blanks before it end. -/
theorem faultAfter_parseInteger {text : String} (h : parseInteger text = .error (.malformed error)) :
    (Cursor.start text).FaultAfter error Gap := by
  obtain ⟨gap, hgap, hpasses⟩ := (Cursor.start text).passes_skipGap
  unfold parseInteger at h
  split at h
  · simp at h
  · obtain rfl := IntegerError.malformed.inj (Except.error.inj h)
    exact ⟨gap, _, hpasses, rfl, hgap⟩
  · simp at h

/-! ## All readers -/

/-- Whatever the fault, it shows inside the text or at its end, and the text up to there is the
beginning of one that the same reader takes. -/
theorem faults_located (text : String) :
    (∀ error, parseString text = .error error → Locates parseString text error.offset) ∧
    (∀ error, parseList text = .error error → Locates parseList text error.offset) ∧
    ∀ error, parseInteger text = .error (.malformed error) →
      Locates parseInteger text error.offset := by
  refine ⟨fun error h => ?_, fun error h => ?_, fun error h => ?_⟩
  · rw [parseString_eq_readWhole] at h
    have hfault := faultAfter_readWhole (fun _ _ _ => stringLiteral_of_readString)
      (fun _ _ => faultAfter_readString) h
    exact locates_of_faultAfter
      (exists_parse_of_begins fun _ _ => parseString_eq_ok_iff.mpr) hfault
  · rw [parseList_eq_readWhole] at h
    have hfault := faultAfter_readWhole (fun _ _ _ => listLiteral_of_readList)
      (fun _ _ => faultAfter_readList) h
    exact locates_of_faultAfter (exists_parse_of_begins fun _ _ => parseList_eq_ok_iff.mpr) hfault
  · refine locates_of_faultAfter (fun gap hgap => ?_) (faultAfter_parseInteger h)
    exact ⟨"0", 0, parseInteger_gap hgap⟩

/-- A text that no reader takes: the one for lists stops in front of the digits of an escape, the
others where they start. -/
theorem faults_located_digits :
    (parseString " [ \"a\" ; \"\\xg1\" ]" = .error ⟨.noQuote, 1⟩ ∧
      Locates parseString " [ \"a\" ; \"\\xg1\" ]" 1) ∧
    (parseList " [ \"a\" ; \"\\xg1\" ]" = .error ⟨.noDigits 2 16, 12⟩ ∧
      Locates parseList " [ \"a\" ; \"\\xg1\" ]" 12) ∧
    parseInteger " [ \"a\" ; \"\\xg1\" ]" = .error (.malformed ⟨.noInteger, 1⟩) ∧
      Locates parseInteger " [ \"a\" ; \"\\xg1\" ]" 1 := by
  obtain ⟨hstring, hlist, hinteger⟩ := faults_located " [ \"a\" ; \"\\xg1\" ]"
  have string_fault : parseString " [ \"a\" ; \"\\xg1\" ]" = .error ⟨.noQuote, 1⟩ := by
    decide +kernel
  have list_fault : parseList " [ \"a\" ; \"\\xg1\" ]" = .error ⟨.noDigits 2 16, 12⟩ := by
    decide +kernel
  have integer_fault : parseInteger " [ \"a\" ; \"\\xg1\" ]" =
      .error (.malformed ⟨.noInteger, 1⟩) := by
    decide +kernel
  exact ⟨⟨string_fault, hstring _ string_fault⟩, ⟨list_fault, hlist _ list_fault⟩,
    integer_fault, hinteger _ integer_fault⟩

end ResourceLiterals.Literal
