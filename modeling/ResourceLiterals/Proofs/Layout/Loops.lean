import Mathlib.Computability.StateTransition
import ResourceLiterals.Proofs.Layout.Written

/-!
# The two loops against the meaning of documents

The fit check and the renderer each go round a loop over a stack, and a `column` node may put any
document on it.  Here both loops are followed turn by turn to their end, where they have done what
`Doc.written` says by recursion on the document.

* `Check` is the fit check between two turns; `Check.exists_reaches_verdict` follows it to its end.
* `State.reaches_run` does the same for the renderer.  What is below the topmost frame has no part in
  the turns on it (`State.step_append`), so that the run gets past it by what `Doc.lay` says
  (`State.reaches_lay`).
* `render_append` is what this says about the text of a concatenation: the first document is laid
  out as it would be alone, and nothing of it matters for the second but the column after it.
-/

namespace ResourceLiterals.Layout

open StateTransition (Reaches)

/-! ## The loop of the fit check -/

/-- The fit check between two turns: the documents that it has not come to yet, first one first, and
the room that is left. -/
structure Check where
  pending : List Doc
  room : Int

namespace Check

/-- The check of `doc` from a column before its first turn. -/
def start (doc : Doc) (column width : Int) : Check :=
  ⟨[doc], width - column⟩

/-- One turn: the first document is counted or opened.  There is none when nothing is pending, when
the room is used up and when a forced line break is next. -/
def step (width : Int) : Check → Option Check
  | ⟨[], _⟩ => none
  | ⟨doc :: rest, room⟩ =>
    if room < 0 then
      none
    else
      match doc with
      | .text content => some ⟨rest, room - content.length⟩
      | .concat parts => some ⟨parts ++ rest, room⟩
      | .hardline => none
      | .brk blanks => some ⟨rest, room - blanks⟩
      | .ifFlat flat _ => some ⟨flat :: rest, room⟩
      | .group child => some ⟨child :: rest, room⟩
      | .nest _ child => some ⟨child :: rest, room⟩
      | .column build _ => some ⟨build (width - room) :: rest, room⟩

/-- What the check has found where it stops. -/
def verdict (check : Check) : Bool :=
  check.pending.isEmpty && decide (0 ≤ check.room)

/-- A turn opens or finishes the first document and does not change what the check comes to. -/
theorem of_step {width : Int} {check next : Check} (h : check.step width = some next) :
    Opens next.pending check.pending ∧
      fitsWithin width check.pending check.room = fitsWithin width next.pending next.room := by
  obtain ⟨pending, room⟩ := check
  cases pending with
  | nil => simp [step] at h
  | cons doc rest =>
    by_cases hroom : room < 0
    · simp [step, hroom] at h
    · simp only [step.eq_def, if_neg hroom] at h
      rw [fitsWithin.eq_def]
      simp only [if_neg hroom]
      cases doc with
      | hardline => simp at h
      | text content =>
        obtain rfl := Option.some.inj h
        exact ⟨.finish .., rfl⟩
      | concat parts =>
        obtain rfl := Option.some.inj h
        exact ⟨.concat .., rfl⟩
      | brk count =>
        obtain rfl := Option.some.inj h
        exact ⟨.finish .., rfl⟩
      | ifFlat whenFlat whenBroken =>
        obtain rfl := Option.some.inj h
        exact ⟨.flat .., rfl⟩
      | group child =>
        obtain rfl := Option.some.inj h
        exact ⟨.group .., rfl⟩
      | nest amount child =>
        obtain rfl := Option.some.inj h
        exact ⟨.nest .., rfl⟩
      | column build reports =>
        obtain rfl := Option.some.inj h
        exact ⟨.column .., rfl⟩

/-- Where there is no turn, the verdict is out. -/
theorem verdict_of_step_eq_none {width : Int} {check : Check} (h : check.step width = none) :
    check.verdict = fitsWithin width check.pending check.room := by
  obtain ⟨pending, room⟩ := check
  cases pending with
  | nil => simp [verdict]
  | cons doc rest =>
    by_cases hroom : room < 0
    · rw [fitsWithin_of_neg _ hroom]
      rfl
    · simp only [step.eq_def, if_neg hroom] at h
      cases doc with
      | hardline =>
        rw [fitsWithin, if_neg hroom]
        rfl
      | _ => simp at h

/-- The check takes no turn for ever. -/
theorem wellFounded_step (width : Int) :
    WellFounded fun after before : Check => before.step width = some after :=
  Subrelation.wf (fun h => (of_step h).1) (InvImage.wf Check.pending opens_wellFounded)

/-- Turn by turn the check comes to its verdict. -/
theorem exists_reaches_verdict (width : Int) (check : Check) :
    ∃ last, Reaches (step width) check last ∧ last.step width = none ∧
      last.verdict = fitsWithin width check.pending check.room := by
  induction check using (wellFounded_step width).induction with
  | _ check ih =>
    cases hstep : check.step width with
    | none => exact ⟨check, .refl, hstep, verdict_of_step_eq_none hstep⟩
    | some next =>
      obtain ⟨last, hreaches, hlast, hverdict⟩ := ih next hstep
      exact ⟨last, .head hstep hreaches, hlast, hverdict.trans (of_step hstep).2.symm⟩

end Check

/-! ## The loop of the renderer -/

namespace State

/-- The renderer takes no turn for ever. -/
theorem wellFounded_step (width : Int) :
    WellFounded fun after before : State => before.step width = some after :=
  Subrelation.wf (fun h => opens_of_step h)
    (InvImage.wf (fun state : State => state.agenda.docs) opens_wellFounded)

/-- Where there is no turn, the run is over. -/
theorem run_of_step_eq_none {width : Int} {state : State} (h : state.step width = none) :
    state.run width = state := by
  rw [run]
  split
  · rfl
  · rename_i next hnext
    rw [h] at hnext
    simp at hnext

/-- Turn by turn the renderer comes to the end of its run. -/
theorem reaches_run (width : Int) (state : State) : Reaches (step width) state (state.run width) := by
  induction state using (wellFounded_step width).induction with
  | _ state ih =>
    cases hstep : state.step width with
    | none =>
      rw [run_of_step_eq_none hstep]
      exact .refl
    | some next =>
      rw [run_of_step hstep]
      exact .head hstep (ih next hstep)

/-- What is below the topmost frame has no part in a turn. -/
theorem step_append {width : Int} {state next : State} (h : state.step width = some next)
    (below : List Frame) :
    State.step width ⟨state.pending ++ below, state.progress⟩ =
      some ⟨next.pending ++ below, next.progress⟩ := by
  obtain ⟨pending, progress⟩ := state
  cases pending with
  | nil => simp [step] at h
  | cons frame rest =>
    obtain ⟨indent, flat, doc⟩ := frame
    cases doc with
    | group child => cases flat <;> obtain rfl := Option.some.inj h <;> rfl
    | concat parts =>
      obtain rfl := Option.some.inj h
      simp [step]
    | _ =>
      obtain rfl := Option.some.inj h
      rfl

/-- What is below the topmost frames has no part in a run that works on those. -/
theorem reaches_append {width : Int} {state last : State}
    (h : Reaches (step width) state last) (below : List Frame) :
    Reaches (step width) ⟨state.pending ++ below, state.progress⟩
      ⟨last.pending ++ below, last.progress⟩ := by
  induction h with
  | refl => exact .refl
  | tail _ hstep ih => exact ih.tail (step_append hstep below)

/-- The renderer finishes the topmost frame by laying its document out, and comes to the others. -/
theorem reaches_lay (width : Int) (frame : Frame) (rest : List Frame) (progress : Progress) :
    Reaches (step width) ⟨frame :: rest, progress⟩
      ⟨rest, frame.doc.lay width frame.indent frame.flat progress⟩ := by
  have halone := reaches_run width ⟨[frame], progress⟩
  rw [run_cons, run_nil] at halone
  exact reaches_append halone rest

end State

/-- What the run on a document ends in. -/
theorem run_start (doc : Doc) (width : Int) :
    (State.start doc).run width = ⟨[], doc.lay width 0 false .start⟩ := by
  rw [State.start, State.run_cons, State.run_nil]

theorem column_run (doc : Doc) (width : Int) :
    ((State.start doc).run width).progress.column = (doc.written width 0 false 0).column := by
  rw [run_start]
  exact (lay_adds_written width doc 0 false .start).2

theorem render_eq_ofList_written (doc : Doc) (width : Int) :
    render doc width = String.ofList (doc.written width 0 false 0).chars := by
  rw [← toList_render, String.ofList_toList]

/-- The text of a concatenation is the text of the first document and what the second one writes
from the column after it. -/
theorem render_append (first second : Doc) (width : Int) :
    render (first ++ second) width =
      render first width ++ String.ofList
        (second.written width 0 false ((State.start first).run width).progress.column).chars := by
  rw [column_run, render_eq_ofList_written, written_append, Written.chars_andThen,
    String.ofList_append, render_eq_ofList_written]

/-- The loops of the fit check and of the renderer come to an end for every document, and what they
come to is what `Doc.fitsFlat` and `Doc.written` say by recursion on it.  So the text of a
concatenation starts with the text of its first document, and goes on with a text that depends on the
second one, the width and the column between them only. -/
theorem loops_refine_written :
    (∀ width, WellFounded fun after before : Check => before.step width = some after) ∧
    (∀ width, WellFounded fun after before : State => before.step width = some after) ∧
    (∀ doc column width, ∃ last, Reaches (Check.step width) (.start doc column width) last ∧
      last.step width = none ∧ last.verdict = fits doc column width ∧
      fits doc column width = doc.fitsFlat width column) ∧
    (∀ doc width, ∃ last, Reaches (State.step width) (.start doc) last ∧ last.pending = [] ∧
      last.progress.output = render doc width ∧
      render doc width = String.ofList (doc.written width 0 false 0).chars ∧
      last.progress.column = (doc.written width 0 false 0).column) ∧
    ∀ first second width,
      render (first ++ second) width =
        render first width ++ String.ofList
          (second.written width 0 false ((State.start first).run width).progress.column).chars := by
  refine ⟨Check.wellFounded_step, State.wellFounded_step, fun doc column width => ?_,
    fun doc width => ?_, render_append⟩
  · obtain ⟨last, hreaches, hlast, hverdict⟩ :=
      Check.exists_reaches_verdict width (.start doc column width)
    exact ⟨last, hreaches, hlast, hverdict, fits_eq_fitsFlat doc column width⟩
  · refine ⟨(State.start doc).run width, State.reaches_run width _, ?_, rfl,
      render_eq_ofList_written doc width, column_run doc width⟩
    rw [run_start]

end ResourceLiterals.Layout
