import Mathlib.Data.List.Induction
import ResourceLiterals.Encoding.Resource
import ResourceLiterals.Proofs.Subformat.Lines

/-!
# Contents that are given back by their lines

Taking a content apart into lines forgets which line ends it had and whether there was one at either
end.  So the lines give the content back just if it has line feeds only, and none of them at an end.
A list of lines is given back by the content that is made of it just if no line holds a line end
and there is something in the first line and in the last one.

* `length_splitLines` and `flatten_splitLines` say how many lines there are and what is in them.
* `joinLines_splitLines_iff` and `splitLines_joinLines_iff` are the two ways round.
* `splitLines_exact` is about the subformat.
-/

namespace ResourceLiterals.Subformat

open Literal (lineFeed carriageReturn)

variable {data : Bytes} {lines : List Bytes}

/-- A line that holds no line end. -/
def Unbroken (line : Bytes) : Prop :=
  carriageReturn ∉ line ∧ lineFeed ∉ line

theorem isSeparator_iff {byte : UInt8} :
    isSeparator byte = true ↔ byte = carriageReturn ∨ byte = lineFeed := by
  simp [isSeparator, or_comm]

theorem unbroken_iff {line : Bytes} : Unbroken line ↔ ∀ byte ∈ line, isSeparator byte = false := by
  simp only [Bool.eq_false_iff, ne_eq, isSeparator_iff, not_or]
  constructor
  · intro h byte hbyte
    exact ⟨ne_of_mem_of_not_mem hbyte h.1, ne_of_mem_of_not_mem hbyte h.2⟩
  · intro h
    exact ⟨fun hmem => (h _ hmem).1 rfl, fun hmem => (h _ hmem).2 rfl⟩

theorem unbroken_of_mem_splitLines {line : Bytes} (h : line ∈ splitLines data) :
    Unbroken line := by
  rw [unbroken_iff]
  exact Text.not_isSeparator_of_mem_splitWhere ((splitLines_sublist_fields data).subset h)

/-! ## The stretches at the ends -/

theorem length_fields (data : Bytes) : (fields data).length = data.countP isSeparator + 1 :=
  Text.length_splitWhere isSeparator data

/-- A line end that starts the content has nothing in front of it. -/
theorem head?_fields (h : data.head?.any isSeparator = true) : (fields data).head? = some [] := by
  cases data with
  | nil => simp at h
  | cons byte rest =>
    have hbyte : isSeparator byte = true := h
    rw [fields, Text.splitWhere_cons_of_pos hbyte, List.head?_cons]

/-- A line end that ends the content has nothing after it. -/
theorem getLast?_fields (h : data.getLast?.any isSeparator = true) :
    (fields data).getLast? = some [] := by
  cases data using List.reverseRecOn with
  | nil => simp at h
  | append_singleton front byte =>
    have hbyte : isSeparator byte = true := by simpa using h
    rw [fields, Text.splitWhere_append_cons hbyte, Text.splitWhere_nil, List.getLast?_concat]

theorem flatten_drop_one (h : ∀ line ∈ lines.head?, line = []) :
    (lines.drop 1).flatten = lines.flatten := by
  cases lines with
  | nil => rfl
  | cons line rest =>
    obtain rfl : line = [] := h line rfl
    rfl

theorem flatten_dropLast (h : lines.getLast? = some []) :
    lines.dropLast.flatten = lines.flatten := by
  conv_rhs => rw [← List.dropLast_append_getLast? [] h]
  simp

/-! ## How many lines, and what is in them -/

/-- How many line ends are ignored at an end of a content, given the byte that stands there. -/
def ignored (outermost : Option UInt8) : Nat :=
  if outermost.any isSeparator then 1 else 0

theorem ignored_eq_zero_iff {outermost : Option UInt8} :
    ignored outermost = 0 ↔ outermost.any isSeparator = false := by
  simp [ignored]

theorem ignored_le_one (outermost : Option UInt8) : ignored outermost ≤ 1 := by
  unfold ignored
  split <;> omega

theorem ignored_le_countP {outermost : Option UInt8} (h : ∀ byte ∈ outermost, byte ∈ data) :
    ignored outermost ≤ data.countP isSeparator := by
  unfold ignored
  split
  · rename_i hany
    obtain ⟨byte, hbyte, hseparator⟩ := (Option.any_eq_true _ _).mp hany
    exact List.countP_pos_iff.mpr ⟨byte, h byte hbyte, hseparator⟩
  · omega

theorem ignored_head?_le (data : Bytes) : ignored data.head? ≤ data.countP isSeparator :=
  ignored_le_countP fun _ => List.mem_of_head?

theorem ignored_getLast?_le (data : Bytes) : ignored data.getLast? ≤ data.countP isSeparator :=
  ignored_le_countP fun _ => List.mem_of_getLast?

/-- One line more than there are line ends, but for those that are ignored. -/
theorem length_splitLines (hdata : data ≠ []) :
    (splitLines data).length + ignored data.head? + ignored data.getLast? =
      data.countP isSeparator + 1 := by
  have hlength : (splitLines data).length =
      (fields data).length - ignored data.getLast? - ignored data.head? := by
    unfold ignored
    rw [splitLines, if_neg (by simpa using hdata)]
    split <;> split <;> simp
  have hfields := length_fields data
  have hfirst := ignored_head?_le data
  have hlast := ignored_getLast?_le data
  have hfirst_one := ignored_le_one data.head?
  have hlast_one := ignored_le_one data.getLast?
  omega

/-- The lines hold everything but the line ends. -/
theorem flatten_splitLines (data : Bytes) :
    (splitLines data).flatten = data.filter fun byte => !isSeparator byte := by
  rw [← Text.flatten_splitWhere, ← fields]
  by_cases hdata : data = []
  · subst hdata
    rfl
  rw [splitLines, if_neg (by simpa using hdata)]
  dsimp only
  generalize hinner : (if data.getLast?.any isSeparator then (fields data).dropLast
    else fields data) = inner
  have hflatten : inner.flatten = (fields data).flatten := by
    rw [← hinner]
    split
    · rename_i hlast
      exact flatten_dropLast (getLast?_fields hlast)
    · rfl
  have hprefix : inner <+: fields data := by
    rw [← hinner]
    split
    · exact List.dropLast_prefix _
    · exact List.prefix_rfl
  split
  · rename_i hfirst
    rw [← hflatten]
    apply flatten_drop_one
    intro line hline
    obtain ⟨rest, hrest⟩ := hprefix
    have hhead := head?_fields hfirst
    rw [← hrest, List.head?_append, Option.mem_def.mp hline] at hhead
    exact Option.some.inj hhead
  · exact hflatten

/-! ## From a content to its lines and back -/

@[simp] theorem joinLines_singleton (line : Bytes) : joinLines [line] = line :=
  List.intercalate_singleton

theorem joinLines_cons_cons (first second : Bytes) (more : List Bytes) :
    joinLines (first :: second :: more) = first ++ lineFeed :: joinLines (second :: more) := by
  rw [joinLines, List.intercalate_cons_cons, List.append_assoc]
  rfl

theorem joinLines_concat (hlines : lines ≠ []) (line : Bytes) :
    joinLines (lines ++ [line]) = joinLines lines ++ lineFeed :: line := by
  induction lines with
  | nil => exact absurd rfl hlines
  | cons first more ih =>
    cases more with
    | nil => rw [List.singleton_append, joinLines_cons_cons, joinLines_singleton, joinLines_singleton]
    | cons second more =>
      have hrest := ih (List.cons_ne_nil second more)
      rw [List.cons_append, List.cons_append, joinLines_cons_cons, ← List.cons_append, hrest,
        joinLines_cons_cons, List.append_assoc, List.cons_append]

theorem length_joinLines (lines : List Bytes) :
    (joinLines lines).length = lines.flatten.length + (lines.length - 1) := by
  match lines with
  | [] => rfl
  | [line] => simp
  | first :: second :: more =>
    have hrest := length_joinLines (second :: more)
    rw [joinLines_cons_cons, List.length_append, List.length_cons, hrest]
    simp only [List.flatten_cons, List.length_append, List.length_cons]
    omega

/-- A content of lines holds what the lines hold, and line feeds. -/
theorem exists_line_of_mem_joinLines {byte : UInt8} (hfeed : byte ≠ lineFeed) (lines : List Bytes)
    (hbyte : byte ∈ joinLines lines) : ∃ line ∈ lines, byte ∈ line := by
  match lines with
  | [] => simp at hbyte
  | [line] => exact ⟨line, List.mem_cons_self, by simpa using hbyte⟩
  | first :: second :: more =>
    rw [joinLines_cons_cons, List.mem_append, List.mem_cons] at hbyte
    rcases hbyte with hfirst | rfl | hrest
    · exact ⟨first, List.mem_cons_self, hfirst⟩
    · exact absurd rfl hfeed
    · obtain ⟨line, hline, hmem⟩ := exists_line_of_mem_joinLines hfeed (second :: more) hrest
      exact ⟨line, List.mem_cons_of_mem _ hline, hmem⟩

/-- Without a carriage return, lines are what stands between line feeds. -/
theorem fields_eq_splitOn (h : carriageReturn ∉ data) : fields data = data.splitOn lineFeed := by
  apply Text.splitWhere_eq_splitOn
  intro byte hbyte
  have hne : byte ≠ carriageReturn := ne_of_mem_of_not_mem hbyte h
  simp [isSeparator, hne]

/-- Where there is a line end at neither end, none is ignored. -/
theorem splitLines_eq_fields (hdata : data ≠ []) (hfirst : ignored data.head? = 0)
    (hlast : ignored data.getLast? = 0) : splitLines data = fields data := by
  rw [ignored_eq_zero_iff] at hfirst hlast
  rw [splitLines, if_neg (by simpa using hdata), hfirst, hlast]
  rfl

/-- The lines of a content give it back just if no line end of it is a carriage return and none is
ignored. -/
theorem joinLines_splitLines_iff (data : Bytes) :
    joinLines (splitLines data) = data ↔
      carriageReturn ∉ data ∧ ignored data.head? = 0 ∧ ignored data.getLast? = 0 := by
  by_cases hdata : data = []
  · subst hdata
    simp [ignored]
  constructor
  · intro h
    have hreturn : carriageReturn ∉ data := by
      intro hmem
      rw [← h] at hmem
      obtain ⟨line, hline, hmem⟩ := exists_line_of_mem_joinLines (by decide) _ hmem
      exact (unbroken_of_mem_splitLines hline).1 hmem
    -- A line feed for each line end would be too few if one had been ignored.
    have hlength := length_joinLines (splitLines data)
    rw [h, flatten_splitLines, ← List.countP_eq_length_filter] at hlength
    have hcount := List.length_eq_countP_add_countP isSeparator (l := data)
    have hlines := length_splitLines hdata
    have hfirst := ignored_head?_le data
    have hlast := ignored_getLast?_le data
    simp only [Bool.not_eq_true, Bool.decide_eq_false] at hcount
    exact ⟨hreturn, by omega, by omega⟩
  · intro h
    rw [splitLines_eq_fields hdata h.2.1 h.2.2, fields_eq_splitOn h.1]
    exact List.intercalate_splitOn lineFeed

/-! ## From lines to their content and back -/

/-- Lines without line ends are what stands between the line feeds that were put between them. -/
theorem fields_joinLines (hlines : lines ≠ []) (h : ∀ line ∈ lines, Unbroken line) :
    fields (joinLines lines) = lines := by
  have hreturn : carriageReturn ∉ joinLines lines := by
    intro hmem
    obtain ⟨line, hline, hmem⟩ := exists_line_of_mem_joinLines (by decide) _ hmem
    exact (h line hline).1 hmem
  rw [fields_eq_splitOn hreturn]
  exact List.splitOn_intercalate lineFeed (fun line hline => (h line hline).2) hlines

/-- The content of lines has the lines just if they hold no line ends and the outer ones are not
empty. -/
theorem splitLines_joinLines_iff (lines : List Bytes) :
    splitLines (joinLines lines) = lines ↔
      (∀ line ∈ lines, Unbroken line) ∧
        (lines = [] ∨ lines.head? ≠ some [] ∧ lines.getLast? ≠ some []) := by
  constructor
  · intro h
    refine ⟨?_, ?_⟩
    · intro line hline
      rw [← h] at hline
      exact unbroken_of_mem_splitLines hline
    by_cases hdata : joinLines lines = []
    · rw [hdata, splitLines_nil] at h
      exact .inl h.symm
    -- What is given back by its lines has no line end at an end, which an empty line would put there.
    obtain ⟨-, hfirst, hlast⟩ := (joinLines_splitLines_iff (joinLines lines)).mp (by rw [h])
    rw [ignored_eq_zero_iff] at hfirst hlast
    refine .inr ⟨?_, ?_⟩
    · intro hempty
      obtain ⟨more, rfl⟩ := List.head?_eq_some_iff.mp hempty
      cases more with
      | nil => exact hdata rfl
      | cons second more =>
        rw [joinLines_cons_cons] at hfirst
        simp [isSeparator] at hfirst
    · intro hempty
      obtain ⟨front, rfl⟩ := List.getLast?_eq_some_iff.mp hempty
      by_cases hfront : front = []
      · subst hfront
        exact hdata rfl
      · rw [joinLines_concat hfront, List.getLast?_concat] at hlast
        simp [isSeparator] at hlast
  · intro h
    obtain ⟨hunbroken, rfl | ⟨hfirst, hlast⟩⟩ := h
    · rfl
    by_cases hlines : lines = []
    · subst hlines
      rfl
    have hfields := fields_joinLines hlines hunbroken
    have hdata : joinLines lines ≠ [] := by
      intro hempty
      rw [hempty] at hfields
      rw [← hfields] at hfirst
      exact hfirst rfl
    have hfirst_byte : ignored (joinLines lines).head? = 0 := by
      rw [ignored_eq_zero_iff, Bool.eq_false_iff]
      intro hany
      exact hfirst (hfields ▸ head?_fields hany)
    have hlast_byte : ignored (joinLines lines).getLast? = 0 := by
      rw [ignored_eq_zero_iff, Bool.eq_false_iff]
      intro hany
      exact hlast (hfields ▸ getLast?_fields hany)
    rw [splitLines_eq_fields hdata hfirst_byte hlast_byte, hfields]

/-! ## The subformat -/

theorem countP_isSeparator (data : Bytes) :
    data.countP isSeparator = data.count carriageReturn + data.count lineFeed := by
  have hne : carriageReturn ≠ lineFeed := by decide
  induction data with
  | nil => rfl
  | cons byte rest ih =>
    rw [List.countP_cons, List.count_cons, List.count_cons, ih]
    by_cases hreturn : byte = carriageReturn
    · simp [hreturn, isSeparator, hne]
      omega
    · simp [hreturn, isSeparator]
      omega

/-- Without carriage returns, only line feeds are ignored. -/
theorem ignored_eq_zero_iff_of_ne {outermost : Option UInt8}
    (h : outermost ≠ some carriageReturn) :
    ignored outermost = 0 ↔ outermost ≠ some lineFeed := by
  cases outermost with
  | none => simp [ignored]
  | some byte =>
    have hbyte : byte ≠ carriageReturn := by simpa using h
    simp [ignored_eq_zero_iff, isSeparator, hbyte]

theorem roundTrips_lines (path : ResourcePath) (data : Bytes) :
    Encoding.roundTrips .lines path data =
      .ok (decide (carriageReturn ∉ data ∧
        data.head? ≠ some lineFeed ∧ data.getLast? ≠ some lineFeed)) := by
  have hjoin := joinLines_splitLines_iff data
  show Except.ok (joinLines (splitLines data) == data) = _
  congr 1
  rw [Bool.eq_iff_iff, beq_iff_eq, decide_eq_true_iff, hjoin]
  apply and_congr_right
  intro hreturn
  have hfirst : data.head? ≠ some carriageReturn := fun h => hreturn (List.mem_of_head? h)
  have hlast : data.getLast? ≠ some carriageReturn := fun h => hreturn (List.mem_of_getLast? h)
  rw [ignored_eq_zero_iff_of_ne hfirst, ignored_eq_zero_iff_of_ne hlast]

/-- What the lines of a content are, which contents are written back as they were, and which lists
of lines are. -/
theorem splitLines_exact (path : ResourcePath) :
    (∀ data,
      (∀ line ∈ splitLines data, Unbroken line) ∧
      (splitLines data).flatten =
        data.filter (fun byte => byte ≠ carriageReturn ∧ byte ≠ lineFeed) ∧
      (data ≠ [] → (splitLines data).length + ignored data.head? + ignored data.getLast? =
        data.count carriageReturn + data.count lineFeed + 1) ∧
      Encoding.roundTrips .lines path data =
        .ok (decide (carriageReturn ∉ data ∧
          data.head? ≠ some lineFeed ∧ data.getLast? ≠ some lineFeed))) ∧
    ∀ lines, Kind.lines.parse path (Value.list lines).toBytes = .ok (.list lines) ↔
      (∀ line ∈ lines, Unbroken line) ∧
        (lines = [] ∨ lines.head? ≠ some [] ∧ lines.getLast? ≠ some []) := by
  have hfilter (data : Bytes) : data.filter (fun byte => !isSeparator byte) =
      data.filter (fun byte => byte ≠ carriageReturn ∧ byte ≠ lineFeed) := by
    congr 1
    funext byte
    rw [Bool.eq_iff_iff, Bool.not_eq_true', decide_eq_true_iff, Bool.eq_false_iff, ne_eq,
      isSeparator_iff, not_or]
  constructor
  · intro data
    refine ⟨fun line => unbroken_of_mem_splitLines, ?_, ?_, roundTrips_lines path data⟩
    · rw [flatten_splitLines, hfilter]
    · intro hdata
      rw [length_splitLines hdata, countP_isSeparator]
  · intro lines
    rw [← splitLines_joinLines_iff]
    show Except.ok (Value.list (splitLines (joinLines lines))) = .ok (.list lines) ↔ _
    simp

/-- A content with a line end of either kind at its ends and an empty line in it. -/
theorem splitLines_exact_ragged :
    let data := [carriageReturn, 0x61, lineFeed, lineFeed, 0x62, lineFeed]
    data ≠ [] ∧ (splitLines data).length + 1 + 1 = 1 + 3 + 1 ∧
      Encoding.roundTrips .lines ["a"] data = .ok false := by
  have hdata : [carriageReturn, 0x61, lineFeed, lineFeed, 0x62, lineFeed] ≠ [] := by decide
  have hexact := (splitLines_exact ["a"]).1 [carriageReturn, 0x61, lineFeed, lineFeed, 0x62, lineFeed]
  exact ⟨hdata, hexact.2.2.1 hdata, hexact.2.2.2⟩

end ResourceLiterals.Subformat
