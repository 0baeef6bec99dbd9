import ResourceLiterals.Literal.IntegerReader
import ResourceLiterals.Proofs.Text.Numeral
import ResourceLiterals.Subformat.Integer

/-!
# Integers and their literals

The numeral of an integer that was read from a content is read as the integer again: it has no more
digits than the content had, and no blanks around it.
-/

namespace ResourceLiterals.Subformat

open Text (digitLimit)

theorem natAbs_lt_of_readContent {data : Bytes} {value : Int} (h : readContent data = .ok value) :
    value.natAbs < 10 ^ digitLimit := by
  unfold readContent at h
  split at h
  · simp at h
  · dsimp only at h
    split at h
    · rename_i hread
      obtain rfl := Except.ok.inj h
      exact Text.natAbs_lt_of_readInteger hread
    · simp at h
    · simp at h

theorem parseInteger_decimal {value : Int} (h : value.natAbs < 10 ^ digitLimit) :
    Literal.parseInteger (decimal value) = .ok value := by
  rw [Literal.parseInteger, decimal, Text.strip_toString, Text.readInteger_toString h]

end ResourceLiterals.Subformat
