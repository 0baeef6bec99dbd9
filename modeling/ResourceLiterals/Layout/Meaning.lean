import ResourceLiterals.Layout.Render

/-!
# What documents mean

The fit check and the renderer work on stacks.  Here both are described by recursion on the
document instead, which is the form to reason with.

* `Doc.roomAfter` is the room that the flat layout of a document leaves, if it gets that far;
  `fits_iff_roomAfter` says that the fit check asks whether there is any left, and `Doc.fitsFlat`
  is that question.
* `Doc.lay` is what laying out a document adds to what has been done;
  `State.run_cons` says that the renderer does just that with the topmost frame, and
  `render_eq_lay` what this means for a whole document.
-/

namespace ResourceLiterals.Layout

/-! ## Flat layout -/

mutual

/-- The room that is left after the flat layout of a document that starts with `room`.  There is no
answer when the room is used up before the last node, or when a forced line break turns up. -/
def Doc.roomAfter (width : Int) : Doc → (room : Int) → Option Int
  | .text content, room => some (room - content.length)
  | .concat parts, room => roomAfterAll width parts room
  | .hardline, _ => none
  | .brk blanks, room => some (room - blanks)
  | .ifFlat flat _, room => flat.roomAfter width room
  | .group child, room => child.roomAfter width room
  | .nest _ child, room => child.roomAfter width room
  | .column build _, room => (build (width - room)).roomAfter width room
termination_by structural doc => doc

/-- The room that is left after several documents. -/
def roomAfterAll (width : Int) : List Doc → (room : Int) → Option Int
  | [], room => some room
  | doc :: docs, room =>
    if room < 0 then none else (doc.roomAfter width room).bind (roomAfterAll width docs)
termination_by structural docs => docs

end

@[simp] theorem fitsWithin_nil (width room : Int) :
    fitsWithin width [] room = decide (0 ≤ room) := by
  rw [fitsWithin]

/-- Without room nothing fits. -/
theorem fitsWithin_of_neg {width room : Int} (docs : List Doc) (h : room < 0) :
    fitsWithin width docs room = false := by
  cases docs with
  | nil => simp; omega
  | cons doc docs =>
    unfold fitsWithin
    exact if_pos h

mutual

/-- The fit check goes past a document when there is room left after it. -/
theorem fitsWithin_cons (width : Int) : (doc : Doc) → (rest : List Doc) → (room : Int) →
    ¬ room < 0 → fitsWithin width (doc :: rest) room =
      (doc.roomAfter width room).any (fitsWithin width rest)
  | .text content, rest, room, h => by
    rw [fitsWithin, if_neg h, Doc.roomAfter, Option.any_some]
  | .concat parts, rest, room, h => by
    rw [fitsWithin, if_neg h, Doc.roomAfter]
    exact fitsWithin_append width parts rest room h
  | .hardline, rest, room, h => by
    rw [fitsWithin, if_neg h, Doc.roomAfter, Option.any_none]
  | .brk count, rest, room, h => by
    rw [fitsWithin, if_neg h, Doc.roomAfter, Option.any_some]
  | .ifFlat flat _, rest, room, h => by
    rw [fitsWithin, if_neg h, Doc.roomAfter]
    exact fitsWithin_cons width flat rest room h
  | .group child, rest, room, h => by
    rw [fitsWithin, if_neg h, Doc.roomAfter]
    exact fitsWithin_cons width child rest room h
  | .nest _ child, rest, room, h => by
    rw [fitsWithin, if_neg h, Doc.roomAfter]
    exact fitsWithin_cons width child rest room h
  | .column build _, rest, room, h => by
    rw [fitsWithin, if_neg h, Doc.roomAfter]
    exact fitsWithin_cons width (build (width - room)) rest room h
termination_by structural doc => doc

/-- The fit check goes past several documents when there is room left after them. -/
theorem fitsWithin_append (width : Int) : (docs : List Doc) → (rest : List Doc) → (room : Int) →
    ¬ room < 0 → fitsWithin width (docs ++ rest) room =
      (roomAfterAll width docs room).any (fitsWithin width rest)
  | [], rest, room, _ => by
    rw [List.nil_append, roomAfterAll, Option.any_some]
  | doc :: docs, rest, room, h => by
    rw [List.cons_append, fitsWithin_cons width doc (docs ++ rest) room h, roomAfterAll, if_neg h]
    cases hdoc : doc.roomAfter width room with
    | none => rfl
    | some left =>
      rw [Option.any_some, Option.bind_some]
      by_cases hleft : left < 0
      · rw [fitsWithin_of_neg _ hleft]
        cases docs with
        | nil => rw [roomAfterAll, Option.any_some, fitsWithin_of_neg _ hleft]
        | cons => rw [roomAfterAll, if_pos hleft, Option.any_none]
      · exact fitsWithin_append width docs rest left hleft
termination_by structural docs => docs

end

/-- A document fits when it starts within the width and leaves room after its flat layout. -/
theorem fits_iff_roomAfter {doc : Doc} {column width : Int} :
    fits doc column width ↔
      column ≤ width ∧ ∃ room, doc.roomAfter width (width - column) = some room ∧ 0 ≤ room := by
  unfold fits
  by_cases h : width - column < 0
  · rw [fitsWithin_of_neg _ h]
    simp only [Bool.false_eq_true, false_iff]
    rintro ⟨hcolumn, -⟩
    omega
  · rw [fitsWithin_cons _ _ _ _ h]
    have hcolumn : column ≤ width := by omega
    cases doc.roomAfter width (width - column) with
    | none => simp
    | some room => simp [hcolumn]

/-- Whether the flat layout of a document stays within a width, from a column on. -/
def Doc.fitsFlat (width : Int) (doc : Doc) (column : Int) : Bool :=
  decide (column ≤ width) && (doc.roomAfter width (width - column)).any (0 ≤ ·)

theorem fits_eq_fitsFlat (doc : Doc) (column width : Int) :
    fits doc column width = doc.fitsFlat width column := by
  rw [Bool.eq_iff_iff, fits_iff_roomAfter, Doc.fitsFlat, Bool.and_eq_true, decide_eq_true_iff,
    Option.any_eq_true]
  simp only [decide_eq_true_eq, and_comm]

/-! ## The renderer -/

mutual

/-- What has been done after a document has been laid out with an indentation in a mode. -/
def Doc.lay (width : Int) : Doc → (indent : Int) → (flat : Bool) → Progress → Progress
  | .text content, _, _, progress => progress.write content content.length
  | .concat parts, indent, flat, progress => layAll width parts indent flat progress
  | .hardline, indent, _, progress => progress.newline indent
  | .brk count, indent, flat, progress =>
    if flat then progress.write (blanks count) count else progress.newline indent
  | .ifFlat whenFlat whenBroken, indent, flat, progress =>
    if flat then whenFlat.lay width indent flat progress
    else whenBroken.lay width indent flat progress
  | .nest amount child, indent, flat, progress => child.lay width (indent + amount) flat progress
  | .group child, indent, flat, progress =>
    if flat then child.lay width indent true progress
    else
      child.lay width indent (fits child progress.column width) (progress.decide width child)
  | .column build reports, indent, flat, progress =>
    (build progress.column).lay width indent flat (progress.visit reports)
termination_by structural doc => doc

/-- What has been done after several documents have been laid out. -/
def layAll (width : Int) : List Doc → (indent : Int) → (flat : Bool) → Progress → Progress
  | [], _, _, progress => progress
  | doc :: docs, indent, flat, progress =>
    layAll width docs indent flat (doc.lay width indent flat progress)
termination_by structural docs => docs

end

namespace State

/-- With no frame left, nothing changes. -/
@[simp] theorem run_nil (width : Int) (progress : Progress) :
    run width ⟨[], progress⟩ = ⟨[], progress⟩ := by
  rw [run]
  rfl

/-- A turn does not change what comes of a run. -/
theorem run_of_step {width : Int} {state next : State} (h : state.step width = some next) :
    state.run width = next.run width := by
  rw [run]
  split
  · rename_i hnone
    rw [hnone] at h
    exact absurd h (by simp)
  · rename_i other hother
    rw [hother] at h
    exact congrArg (run width) (Option.some.inj h)

mutual

/-- The renderer lays out the topmost frame and goes on with the others. -/
theorem run_cons (width : Int) : (doc : Doc) → (indent : Int) → (flat : Bool) →
    (rest : List Frame) → (progress : Progress) →
    run width ⟨⟨indent, flat, doc⟩ :: rest, progress⟩ =
      run width ⟨rest, doc.lay width indent flat progress⟩
  | .text content, indent, flat, rest, progress => by
    rw [Doc.lay]
    exact run_of_step rfl
  | .concat parts, indent, flat, rest, progress => by
    rw [Doc.lay, ← run_append width parts indent flat rest progress]
    exact run_of_step rfl
  | .hardline, indent, flat, rest, progress => by
    rw [Doc.lay]
    exact run_of_step rfl
  | .brk count, indent, flat, rest, progress => by
    rw [Doc.lay]
    exact run_of_step rfl
  | .ifFlat whenFlat whenBroken, indent, flat, rest, progress => by
    rw [Doc.lay]
    cases flat with
    | true => exact (run_of_step rfl).trans (run_cons width whenFlat indent true rest progress)
    | false => exact (run_of_step rfl).trans (run_cons width whenBroken indent false rest progress)
  | .nest amount child, indent, flat, rest, progress => by
    rw [Doc.lay]
    exact (run_of_step rfl).trans (run_cons width child (indent + amount) flat rest progress)
  | .group child, indent, flat, rest, progress => by
    rw [Doc.lay]
    cases flat with
    | true => exact (run_of_step rfl).trans (run_cons width child indent true rest progress)
    | false => exact (run_of_step rfl).trans (run_cons width child indent _ rest _)
  | .column build reports, indent, flat, rest, progress => by
    rw [Doc.lay]
    exact (run_of_step rfl).trans (run_cons width (build progress.column) indent flat rest _)
termination_by structural doc => doc

/-- The renderer lays out several frames with one indentation and mode, and goes on with the
others. -/
theorem run_append (width : Int) : (docs : List Doc) → (indent : Int) → (flat : Bool) →
    (rest : List Frame) → (progress : Progress) →
    run width ⟨docs.map (⟨indent, flat, ·⟩) ++ rest, progress⟩ =
      run width ⟨rest, layAll width docs indent flat progress⟩
  | [], indent, flat, rest, progress => by
    rw [layAll, List.map_nil, List.nil_append]
  | doc :: docs, indent, flat, rest, progress => by
    rw [layAll, ← run_append width docs indent flat rest (doc.lay width indent flat progress)]
    exact run_cons width doc indent flat _ progress
termination_by structural docs => docs

end

end State

/-- The text of a document is what laying it out broken writes. -/
theorem render_eq_lay (doc : Doc) (width : Int) :
    render doc width = (doc.lay width 0 false .start).output := by
  rw [render, State.start, State.run_cons, State.run_nil]

end ResourceLiterals.Layout
