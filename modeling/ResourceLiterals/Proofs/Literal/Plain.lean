import ResourceLiterals.Proofs.Layout.OneLine
import ResourceLiterals.Proofs.Literal.Wrap

/-!
# String literals are plain

The layouts of string literals hold no line feed in their texts, since the line feeds of a content are
escaped.  So a literal that fits stands on one line.
-/

namespace ResourceLiterals.Literal

open Layout

/-! ## Text -/

theorem lineFeed_ne_lead (next : Option UInt8) : '\n' ≠ lead next := by
  unfold lead
  split <;> decide

theorem lineFeed_not_mem_oneLine (data : Bytes) : '\n' ∉ oneLine data := by
  have hdata : '\n' ∉ data.flatMap token := by
    rw [List.mem_flatMap]
    rintro ⟨byte, -, hmem⟩
    exact lineFeed_not_mem_token byte hmem
  simp [oneLine, hdata]

theorem plain_continuation {tail : String} (h : '\n' ∉ tail.toList) : (continuation tail).Plain := by
  have hbackslash : (Doc.text "\\").Plain := plain_text (by decide)
  have hbreak : (Doc.text "\\" ++ .hardline).Plain := hbackslash.append trivial
  exact hbreak.append h

theorem plain_tokenDoc (byte : UInt8) : (tokenDoc byte).Plain := by
  have htoken := lineFeed_not_mem_token byte
  have hlead := lineFeed_ne_lead (some byte)
  refine ⟨?_, plain_continuation ?_⟩
  · show '\n' ∉ (String.ofList (token byte)).toList
    simpa using htoken
  · simpa using ⟨hlead, htoken⟩

theorem plain_charDoc (byte : UInt8) (next : Option UInt8) : (charDoc byte next).Plain := by
  have htoken := lineFeed_not_mem_token byte
  rw [charDoc_eq]
  split
  · refine ⟨?_, (plain_tokenDoc byte).append (plain_continuation ?_)⟩
    · show '\n' ∉ (String.ofList (token byte)).toList
      simpa using htoken
    · simpa using lineFeed_ne_lead next
  · exact plain_tokenDoc byte

theorem plain_charDocs (data : Bytes) : ∀ doc ∈ charDocs data, doc.Plain := by
  induction data with
  | nil => simp [charDocs]
  | cons byte rest ih =>
    rw [charDocs, List.forall_mem_cons]
    exact ⟨plain_charDoc byte rest.head?, ih⟩

theorem plain_textDoc (data : Bytes) : (textDoc data).Plain := by
  have hquote : (Doc.text "\"").Plain := plain_text (by decide)
  apply plain_join
  intro doc hdoc
  rcases List.mem_append.mp hdoc with hmem | hmem
  · rcases List.mem_cons.mp hmem with rfl | hmem
    · exact hquote
    · exact plain_charDocs data doc hmem
  · rw [List.mem_singleton.mp hmem]
    exact hquote

/-! ## Hex blocks -/

theorem plain_blockDocs (parts : List Bytes) : ∀ doc ∈ blockDocs parts, doc.Plain := by
  cases parts with
  | nil => simp [blockDocs]
  | cons first more =>
    rw [blockDocs, List.forall_mem_cons]
    refine ⟨lineFeed_not_mem_hexBlock first, ?_⟩
    intro doc hdoc
    obtain ⟨block, -, rfl⟩ := List.mem_map.mp hdoc
    show '\n' ∉ (" " ++ hexBlock block).toList
    simpa using lineFeed_not_mem_hexBlock block

theorem plain_blobDoc (start size : Int) (data : Bytes) : (blobDoc start size data).Plain := by
  have hquote : (Doc.text "\"").Plain := plain_text (by decide)
  have hbackslash : (Doc.text "\\").Plain := plain_text (by decide)
  have hbreak : (Doc.text "\\" ++ .hardline).Plain := hbackslash.append trivial
  exact (hquote.append (hbreak.separate (plain_blockDocs _))).append hquote

/-! ## Either way -/

theorem plain_stringDoc (start size : Int) (data : Bytes) : (stringDoc start size data).Plain := by
  unfold stringDoc
  split
  · exact plain_textDoc data
  · exact plain_blobDoc start size data

end ResourceLiterals.Literal
