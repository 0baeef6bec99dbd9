import Mathlib.Algebra.Order.Floor.Div
import ResourceLiterals.Proofs.Literal.ListLayout

/-!
# The lines of a hex blob

A content that does not look like text is written as a block of hex escapes to a line.  The blocks are
as long as the room between the two columns of the layout allows, and the width of the page on which
the literal is rendered plays no role.

* `blocks_eq_map_range` says which bytes a block holds and `length_blocks` how many blocks there are.
* `splitOn_framed` cuts a literal of blocks at its line feeds.
* `render_stringDoc_hex` is about rendered literals.
-/

namespace ResourceLiterals.Literal

open Layout

/-! ## Blocks by their index -/

theorem length_blocks {length : Nat} (hlength : 1 ≤ length) (items : List α) :
    (blocks length items).length = items.length ⌈/⌉ length := by
  apply eq_of_forall_ge_iff
  intro count
  rw [length_blocks_le_iff hlength, ceilDiv_le_iff_le_mul hlength, Nat.mul_comm]

/-- A block holds the items that come after those of the blocks before it. -/
theorem blocks_eq_map_range {length : Nat} (hlength : 1 ≤ length) (items : List α) :
    blocks length items =
      (List.range (blocks length items).length).map fun index =>
        (items.drop (index * length)).take length := by
  obtain ⟨shorter, rfl⟩ := Nat.exists_eq_add_of_le' hlength
  fun_induction blocks (shorter + 1) items with
  | case1 => rfl
  | case2 first rest ih =>
    have hrest (index : Nat) : (first :: rest).drop ((index + 1) * (shorter + 1)) =
        (rest.drop shorter).drop (index * (shorter + 1)) := by
      have hplace : (index + 1) * (shorter + 1) = shorter + index * (shorter + 1) + 1 := by
        rw [Nat.add_mul]
        omega
      rw [hplace, List.drop_succ_cons, List.drop_drop]
    rw [List.length_cons, List.range_succ_eq_map, List.map_cons, List.map_map]
    simp only [Function.comp_def, hrest]
    rw [← Nat.add_sub_cancel shorter 1] at ih
    rw [Nat.zero_mul, List.drop_zero, List.take_succ_cons, Nat.add_sub_cancel]
    exact congrArg _ ih

/-! ## Lines of a literal -/

/-- Blocks between quotes, each on a line of its own: all lines but the first start with a blank, and
all but the last end with a backslash. -/
theorem splitOn_framed {opening : Char} (hopening : opening ≠ '\n') {pieces : List (List Char)}
    (hne : pieces ≠ []) (hpieces : ∀ piece ∈ pieces, '\n' ∉ piece) :
    (opening :: ((turn 0 none).intercalate pieces ++ ['"'])).splitOn '\n' =
      pieces.mapIdx fun index piece =>
        (if index = 0 then opening else ' ') ::
          (piece ++ [if index + 1 = pieces.length then '"' else '\\']) := by
  induction pieces generalizing opening with
  | nil => exact absurd rfl hne
  | cons piece more ih =>
    rw [List.forall_mem_cons] at hpieces
    cases more with
    | nil =>
      have hline : '\n' ∉ opening :: (piece ++ ['"']) := by
        simp [hpieces.1, hopening.symm]
      simpa using List.splitOn_eq_singleton hline
    | cons second more =>
      have hline : '\n' ∉ opening :: (piece ++ ['\\']) := by
        simp [hpieces.1, hopening.symm]
      have hrest := ih (show ' ' ≠ '\n' by decide) (List.cons_ne_nil second more) hpieces.2
      have hcut : opening :: ((turn 0 none).intercalate (piece :: second :: more) ++ ['"']) =
          (opening :: (piece ++ ['\\'])) ++
            '\n' :: (' ' :: ((turn 0 none).intercalate (second :: more) ++ ['"'])) := by
        rw [List.intercalate_cons_cons]
        simp [turn, lineBreak, lead]
      rw [hcut, List.splitOn_append_cons_self_of_not_mem hline, hrest]
      simp [@eq_comm _ 0 more.length]

/-- A line of a hex blob, by its index among so many lines of `size` bytes. -/
def hexLine (size count : Nat) (data : Bytes) (index : Nat) : List Char :=
  (if index = 0 then '"' else ' ') ::
    (((data.drop (index * size)).take size).flatMap (fun byte => (hexEscape byte).toList) ++
      [if index + 1 = count then '"' else '\\'])

theorem splitOn_hexLines {size : Nat} (hsize : 1 ≤ size) {data : Bytes} (hdata : data ≠ []) :
    (hexLines 0 size data).splitOn '\n' =
      (List.range (data.length ⌈/⌉ size)).map (hexLine size (data.length ⌈/⌉ size) data) := by
  have hcount := length_blocks hsize data
  have hblocks := blocks_eq_map_range hsize data
  rw [hcount] at hblocks
  have hne : (blocks size data).map (fun block => (hexBlock block).toList) ≠ [] := by
    intro hempty
    have hflatten := flatten_blocks size data
    rw [List.map_eq_nil_iff.mp hempty] at hflatten
    exact hdata hflatten.symm
  have hplain : ∀ piece ∈ (blocks size data).map (fun block => (hexBlock block).toList),
      '\n' ∉ piece := by
    intro piece hpiece
    obtain ⟨block, -, rfl⟩ := List.mem_map.mp hpiece
    exact lineFeed_not_mem_hexBlock block
  rw [hexLines, splitOn_framed (by decide) hne hplain, List.length_map, hcount, hblocks]
  apply List.ext_getElem
  · simp
  · intro index _ _
    simp [hexLine, toList_hexBlock]

theorem ne_nil_of_looksLikeText_eq_false {data : Bytes} (h : looksLikeText data = false) :
    data ≠ [] := by
  rintro rfl
  exact absurd h (by decide)

/-- A content that does not look like text is rendered in lines of as many escapes as fit between the
column and the width, but at least one.  The text is the same on every page. -/
theorem render_stringDoc_hex {data : Bytes} (hhex : looksLikeText data = false)
    (column width page : Int) :
    let size := (max 1 ((width - column) / 4)).toNat
    let count := data.length ⌈/⌉ size
    (∀ other, render (stringDoc column width data) page =
        render (stringDoc column width data) other) ∧
      (render (stringDoc column width data) page).toList.splitOn '\n' =
        (List.range count).map (hexLine size count data) := by
  have htext (paper : Int) : (render (stringDoc column width data) paper).toList =
      hexLines 0 (blockLength column width) data := by
    rw [toList_render, stringDoc, if_neg (by simp [hhex]), chars_blobDoc]
  constructor
  · intro other
    apply String.toList_injective
    rw [htext, htext]
  · have hdata := ne_nil_of_looksLikeText_eq_false hhex
    have hsize := one_le_blockLength column width
    rw [htext]
    exact splitOn_hexLines hsize hdata

/-- Room for two escapes and a bit more, and a last line with one. -/
theorem render_stringDoc_hex_narrow :
    looksLikeText [0x00, 0xFF, 0x80] = false ∧
      (render (stringDoc 5 14 [0x00, 0xFF, 0x80]) 3).toList.splitOn '\n' =
        ["\"\\x00\\xFF\\".toList, " \\x80\"".toList] := by
  have hhex : looksLikeText [0x00, 0xFF, 0x80] = false := by decide
  refine ⟨hhex, ?_⟩
  rw [(render_stringDoc_hex hhex 5 14 3).2]
  decide

end ResourceLiterals.Literal
