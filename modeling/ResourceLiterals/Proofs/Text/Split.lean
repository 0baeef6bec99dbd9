import ResourceLiterals.Text.Split

/-!
# Cutting lists and joining the stretches

A list is cut at its separators into stretches that hold everything else.  Joining them again needs
to know what the separators were, so it gives the list back only if they were all the same.

* `length_splitWhere` and `flatten_splitWhere` count the stretches and say what is in them;
  `not_isSeparator_of_mem_splitWhere` says what is not.
* `splitWhere_eq_splitOn` is the case of one separator, which brings in the laws of
  `List.intercalate`.
-/

namespace ResourceLiterals.Text

variable {isSeparator : α → Bool} {item : α} {items stretch : List α}

/-! ## The first stretch -/

@[simp] theorem splitWhere_nil : splitWhere isSeparator [] = [[]] := rfl

theorem splitWhere_cons_of_pos (h : isSeparator item = true) (rest : List α) :
    splitWhere isSeparator (item :: rest) = [] :: splitWhere isSeparator rest := by
  rw [splitWhere, if_pos h]

/-- What is no separator belongs to the first stretch of the rest. -/
theorem splitWhere_cons_of_neg (h : isSeparator item = false) (rest : List α) :
    splitWhere isSeparator (item :: rest) =
      (splitWhere isSeparator rest).modifyHead (item :: ·) := by
  rw [splitWhere, if_neg (by simp [h])]
  cases hrest : splitWhere isSeparator rest with
  | nil => exact absurd hrest (splitWhere_ne_nil isSeparator rest)
  | cons first others => rfl

/-! ## What the stretches hold -/

theorem length_splitWhere (isSeparator : α → Bool) (items : List α) :
    (splitWhere isSeparator items).length = items.countP isSeparator + 1 := by
  induction items with
  | nil => rfl
  | cons item rest ih =>
    cases h : isSeparator item with
    | true => rw [splitWhere_cons_of_pos h, List.countP_cons_of_pos h, List.length_cons, ih]
    | false =>
      rw [splitWhere_cons_of_neg h, List.countP_cons_of_neg (by simp [h]), List.length_modifyHead,
        ih]

/-- Nothing but the separators is lost. -/
theorem flatten_splitWhere (isSeparator : α → Bool) (items : List α) :
    (splitWhere isSeparator items).flatten = items.filter fun item => !isSeparator item := by
  induction items with
  | nil => rfl
  | cons item rest ih =>
    cases h : isSeparator item with
    | true => simpa [splitWhere_cons_of_pos h, h] using ih
    | false =>
      rw [splitWhere_cons_of_neg h, List.filter_cons_of_pos (by simp [h]), ← ih]
      cases hrest : splitWhere isSeparator rest with
      | nil => exact absurd hrest (splitWhere_ne_nil isSeparator rest)
      | cons first others => rfl

theorem not_isSeparator_of_mem_splitWhere (hstretch : stretch ∈ splitWhere isSeparator items) :
    ∀ item ∈ stretch, isSeparator item = false := by
  intro item hitem
  have hmem : item ∈ (splitWhere isSeparator items).flatten :=
    List.mem_flatten_of_mem hstretch hitem
  rw [flatten_splitWhere, List.mem_filter] at hmem
  simpa using hmem.2

/-- Cutting at a separator cuts the two sides of it. -/
theorem splitWhere_append_cons (h : isSeparator item = true) (first second : List α) :
    splitWhere isSeparator (first ++ item :: second) =
      splitWhere isSeparator first ++ splitWhere isSeparator second := by
  induction first with
  | nil => exact splitWhere_cons_of_pos h second
  | cons other rest ih =>
    cases hother : isSeparator other with
    | true =>
      rw [List.cons_append, splitWhere_cons_of_pos hother, splitWhere_cons_of_pos hother, ih,
        List.cons_append]
    | false =>
      rw [List.cons_append, splitWhere_cons_of_neg hother, splitWhere_cons_of_neg hother, ih]
      cases hrest : splitWhere isSeparator rest with
      | nil => exact absurd hrest (splitWhere_ne_nil isSeparator rest)
      | cons first others => rfl

/-! ## One separator -/

/-- Where only one item separates, the stretches are those between its occurrences. -/
theorem splitWhere_eq_splitOn [BEq α] {separator : α}
    (h : ∀ item ∈ items, isSeparator item = (item == separator)) :
    splitWhere isSeparator items = items.splitOn separator := by
  induction items with
  | nil => rfl
  | cons item rest ih =>
    rw [List.forall_mem_cons] at h
    rw [List.splitOn_cons_eq_if_modifyHead, ← ih h.2, ← h.1]
    cases hitem : isSeparator item with
    | true => exact splitWhere_cons_of_pos hitem rest
    | false => exact splitWhere_cons_of_neg hitem rest

end ResourceLiterals.Text
