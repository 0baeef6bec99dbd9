import ResourceLiterals.Toml.Source

/-!
# What comes of the content of a file

A content that is UTF-8 has a text, and the text reads as a table or has a fault.  A malformed text
does no harm, as it counts as an empty table.  Any other fault does, and so does a content without a
text.  This holds for any reader of TOML.

* `Encodes` and `ReadsAs` are about the text of a content and what it reads as.
* `Defect` lists what is wrong with contents that are not loaded.
* `load_eq_ok_iff` and `load_eq_error_iff` say what is loaded, and what is not.
-/

namespace ResourceLiterals.Toml

variable {data : Bytes} {chars : List Char} {table : Table} {error : LoadError}

/-- The content is the UTF-8 of a text. -/
def Encodes (data : Bytes) (chars : List Char) : Prop := chars.utf8Encode = ⟨data.toArray⟩

variable [Reader]

/-- The content has a text, and this is what comes of reading it. -/
def ReadsAs (data : Bytes) (outcome : Except Fault Table) : Prop :=
  ∃ chars, Encodes data chars ∧ Reader.read (unifyLineEnds chars) = outcome

/-- What is wrong with a content that is not loaded. -/
inductive Defect (data : Bytes) : LoadError → Prop where
  | notUtf8 (h : ∀ chars, ¬ Encodes data chars) : Defect data .notUtf8
  | repeatedKey (h : ReadsAs data (.error .repeatedKey)) : Defect data .repeatedKey
  | redefinedTable (h : ReadsAs data (.error .redefinedTable)) : Defect data .redefinedTable

theorem load_of_not_encodes (h : ∀ chars, ¬ Encodes data chars) : load data = .error .notUtf8 := by
  have hinvalid : ¬ ByteArray.IsValidUTF8 ⟨data.toArray⟩ := by
    rintro ⟨chars, hchars⟩
    exact h chars hchars.symm
  rw [load, String.fromUTF8?, dif_neg hinvalid]

theorem load_of_encodes (h : Encodes data chars) :
    load data =
      match Reader.read (unifyLineEnds chars) with
      | .ok table => .ok table
      | .error .malformed => .ok []
      | .error .repeatedKey => .error .repeatedKey
      | .error .redefinedTable => .error .redefinedTable := by
  have htext : String.fromUTF8? ⟨data.toArray⟩ = some (String.ofList chars) := by
    rw [String.fromUTF8?, dif_pos ⟨chars, h.symm⟩]
    refine congrArg some (String.toByteArray_inj.mp ?_)
    rw [String.toByteArray_ofList]
    exact h.symm
  cases hread : Reader.read (unifyLineEnds chars) with
  | ok table => simp only [load, htext, String.toList_ofList, hread]
  | error fault => cases fault <;> simp only [load, htext, String.toList_ofList, hread]

/-- A content is loaded if its text is a table or malformed. -/
theorem load_eq_ok_iff :
    load data = .ok table ↔
      ReadsAs data (.ok table) ∨ ReadsAs data (.error .malformed) ∧ table = [] := by
  constructor
  · intro hload
    by_cases htext : ∃ chars, Encodes data chars
    · obtain ⟨chars, hchars⟩ := htext
      rw [load_of_encodes hchars] at hload
      split at hload <;> cases hload
      next hread => exact .inl ⟨chars, hchars, hread⟩
      next hread => exact .inr ⟨⟨chars, hchars, hread⟩, rfl⟩
    · rw [load_of_not_encodes (not_exists.mp htext)] at hload
      cases hload
  · rintro (⟨chars, hchars, hread⟩ | ⟨⟨chars, hchars, hread⟩, rfl⟩) <;>
      rw [load_of_encodes hchars, hread]

theorem load_eq_error_iff : load data = .error error ↔ Defect data error := by
  constructor
  · intro hload
    by_cases htext : ∃ chars, Encodes data chars
    · obtain ⟨chars, hchars⟩ := htext
      rw [load_of_encodes hchars] at hload
      split at hload <;> cases hload
      next hread => exact .repeatedKey ⟨chars, hchars, hread⟩
      next hread => exact .redefinedTable ⟨chars, hchars, hread⟩
    · have hnone := not_exists.mp htext
      rw [load_of_not_encodes hnone] at hload
      cases hload
      exact .notUtf8 hnone
  · rintro (hnone | ⟨chars, hchars, hread⟩ | ⟨chars, hchars, hread⟩)
    · exact load_of_not_encodes hnone
    · rw [load_of_encodes hchars, hread]
    · rw [load_of_encodes hchars, hread]

end ResourceLiterals.Toml
