/-!
# Splitting lists

A list is cut at its separators.  There is one stretch more than there are separators, and any of
the stretches may be empty.
-/

namespace ResourceLiterals.Text

/-- The stretches of a list between the members that satisfy `isSeparator`. -/
def splitWhere (isSeparator : α → Bool) : List α → List (List α)
  | [] => [[]]
  | item :: rest =>
    if isSeparator item then
      [] :: splitWhere isSeparator rest
    else
      match splitWhere isSeparator rest with
      | [] => [[item]]
      | first :: others => (item :: first) :: others

/-- There is always a first stretch. -/
theorem splitWhere_ne_nil (isSeparator : α → Bool) (items : List α) :
    splitWhere isSeparator items ≠ [] := by
  cases items with
  | nil => simp [splitWhere]
  | cons item rest =>
    rw [splitWhere]
    split
    · simp
    · split <;> simp

end ResourceLiterals.Text
