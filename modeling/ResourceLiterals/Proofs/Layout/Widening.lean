import ResourceLiterals.Proofs.Layout.FlatRun
import ResourceLiterals.Proofs.Layout.Loops

/-!
# Layouts at a greater width

A group is broken only when it does not fit.  So where nothing is broken, more room changes nothing:
what fits in a width also fits in a greater one, and a run in which all groups are found to fit is
turn by turn the run at any greater width.

* `fitsWithin_widen` is about the fit check.  It counts the room that is left, but the columns at
  which it evaluates `column` nodes do not depend on the width.
* `State.step_widen` and `State.run_widen` are about the renderer, one turn and all of them.
* `State.broken_run` ties the condition on the groups to the number of them that are counted as
  broken.
-/

namespace ResourceLiterals.Layout

open StateTransition (Reaches)

variable {width wider : Int}

/-! ## The fit check -/

/-- Flat frames that fit in a width fit in a greater one, and the same `column` nodes are evaluated
at the same columns on the way. -/
theorem fitsWithin_widen (hwider : width ≤ wider) (frames : List Frame) (progress : Progress)
    (hflat : AllFlat frames)
    (hfits : fitsWithin width (frames.map Frame.doc) (width - progress.column) = true) :
    fitsWithin wider (frames.map Frame.doc) (wider - progress.column) = true ∧
      visitsWithin wider (frames.map Frame.doc) (wider - progress.column) =
        visitsWithin width (frames.map Frame.doc) (width - progress.column) := by
  have hcolumn : progress.column ≤ width := by
    have := room_of_fitsWithin hfits
    omega
  match frames with
  | [] =>
    rw [List.map_nil, fitsWithin_nil, decide_eq_true_iff, visitsWithin, visitsWithin]
    exact ⟨by omega, rfl⟩
  | ⟨indent, flat, doc⟩ :: rest =>
    obtain ⟨rfl : flat = true, hrest⟩ := allFlat_cons.mp hflat
    have hdoc : doc ≠ .hardline := by
      rintro rfl
      simp at hfits
    obtain ⟨opened, visited, after, turns⟩ := exists_flatTurn indent doc progress
    have hstep := (turns width).step rest
    rw [List.map_cons, (turns width).fits hcolumn hdoc, ← List.map_append] at hfits
    obtain ⟨hfits', hvisits⟩ := fitsWithin_widen hwider (opened ++ rest) after
      (allFlat_append.mpr ⟨(turns width).flat, hrest⟩) hfits
    rw [List.map_append] at hfits' hvisits
    have hcolumn' : progress.column ≤ wider := by omega
    rw [List.map_cons, (turns wider).fits hcolumn' hdoc, (turns wider).fitVisits hcolumn' hdoc,
      (turns width).fitVisits hcolumn hdoc, hvisits]
    exact ⟨hfits', rfl⟩
termination_by Agenda.mk (frames.map Frame.doc)
decreasing_by
  have hopens := State.opens_of_step hstep
  simpa [State.agenda] using hopens

section Fits

variable {doc : Doc} {column : Int}

theorem fits_and_fitVisits_widen (hwider : width ≤ wider) (h : fits doc column width = true) :
    fits doc column wider = true ∧ fitVisits doc column wider = fitVisits doc column width :=
  fitsWithin_widen hwider [⟨0, true, doc⟩] { Progress.start with column := column } (by simp) h

theorem fits_widen (hwider : width ≤ wider) (h : fits doc column width = true) :
    fits doc column wider = true :=
  (fits_and_fitVisits_widen hwider h).1

end Fits

/-! ## The renderer -/

/-- A group that is found to fit is taken down in the same way at a greater width. -/
theorem Progress.decide_widen (hwider : width ≤ wider) {progress : Progress} {child : Doc}
    (h : fits child progress.column width = true) :
    progress.decide wider child = progress.decide width child := by
  obtain ⟨hfits, hvisits⟩ := fits_and_fitVisits_widen hwider h
  simp only [decide, h, hfits, hvisits]

namespace State

/-- If a group is decided in the next turn, it is found to fit. -/
def KeepsFlat (width : Int) (state : State) : Prop :=
  ∀ indent child rest, state.pending = ⟨indent, false, .group child⟩ :: rest →
    fits child state.progress.column width = true

/-- Only the decision about a group depends on the width, so this turn is the same. -/
theorem step_widen (hwider : width ≤ wider) {state : State} (h : state.KeepsFlat width) :
    state.step wider = state.step width := by
  obtain ⟨pending, progress⟩ := state
  cases pending with
  | nil => rfl
  | cons frame rest =>
    obtain ⟨indent, flat, doc⟩ := frame
    cases doc with
    | group child =>
      cases flat with
      | true => rfl
      | false =>
        have hfits : fits child progress.column width = true := h indent child rest rfl
        simp only [step, hfits, fits_widen hwider hfits, Progress.decide_widen hwider hfits]
    | _ => rfl

/-- A run in which no group is broken is the run at a greater width as well. -/
theorem run_widen (hwider : width ≤ wider) (state : State)
    (h : ∀ reached, Reaches (step width) state reached → reached.KeepsFlat width) :
    state.run wider = state.run width := by
  induction state using (wellFounded_step width).induction with
  | _ state ih =>
    have hturn : state.step wider = state.step width := step_widen hwider (h state .refl)
    cases hstep : state.step width with
    | none => rw [run_of_step_eq_none hstep, run_of_step_eq_none (hturn.trans hstep)]
    | some next =>
      rw [run_of_step hstep, run_of_step (hturn.trans hstep)]
      exact ih next hstep fun reached hreached => h reached (.head hstep hreached)

/-- The turns of a run in which no group is broken are those of the run at a greater width. -/
theorem reaches_widen_iff (hwider : width ≤ wider) {state last : State}
    (h : ∀ reached, Reaches (step width) state reached → reached.KeepsFlat width) :
    Reaches (step wider) state last ↔ Reaches (step width) state last := by
  constructor
  · intro hlast
    induction hlast with
    | refl => exact .refl
    | tail _ hstep ih => exact ih.tail ((step_widen hwider (h _ ih)).symm.trans hstep)
  · intro hlast
    induction hlast with
    | refl => exact .refl
    | tail hreached hstep ih => exact ih.tail ((step_widen hwider (h _ hreached)).trans hstep)

/-! ## Counting broken groups -/

/-- A turn counts one more broken group when it decides about one that does not fit, and none
otherwise. -/
theorem broken_step {state next : State} (h : state.step width = some next) :
    state.progress.broken ≤ next.progress.broken ∧
      (next.progress.broken = state.progress.broken ↔ state.KeepsFlat width) := by
  obtain ⟨pending, progress⟩ := state
  cases pending with
  | nil => simp [step] at h
  | cons frame rest =>
    obtain ⟨indent, flat, doc⟩ := frame
    by_cases hdecides : ∃ child, flat = false ∧ doc = .group child
    · obtain ⟨child, rfl, rfl⟩ := hdecides
      obtain rfl := Option.some.inj h
      have hkeeps : KeepsFlat width ⟨⟨indent, false, .group child⟩ :: rest, progress⟩ ↔
          fits child progress.column width = true := by
        simp [KeepsFlat]
      rw [hkeeps]
      by_cases hfits : fits child progress.column width = true <;>
        simp [Progress.decide, hfits]
    · have hkeeps : KeepsFlat width ⟨⟨indent, flat, doc⟩ :: rest, progress⟩ := by
        intro _ child _ hpending
        simp only [List.cons.injEq, Frame.mk.injEq] at hpending
        exact absurd ⟨child, hpending.1.2⟩ hdecides
      have hbroken : next.progress.broken = progress.broken := by
        cases doc with
        | group child =>
          cases flat with
          | true =>
            obtain rfl := Option.some.inj h
            rfl
          | false => exact absurd ⟨child, rfl, rfl⟩ hdecides
        | brk count => cases flat <;> obtain rfl := Option.some.inj h <;> rfl
        | _ =>
          obtain rfl := Option.some.inj h
          rfl
      exact ⟨hbroken.ge, iff_of_true hbroken hkeeps⟩

theorem broken_run (width : Int) (state : State) :
    state.progress.broken ≤ (state.run width).progress.broken ∧
      ((state.run width).progress.broken = state.progress.broken ↔
        ∀ reached, Reaches (step width) state reached → reached.KeepsFlat width) := by
  induction state using (wellFounded_step width).induction with
  | _ state ih =>
    cases hstep : state.step width with
    | none =>
      rw [run_of_step_eq_none hstep]
      refine ⟨le_rfl, iff_of_true rfl fun reached hreached => ?_⟩
      rcases Relation.ReflTransGen.cases_head hreached with rfl | ⟨next, hnext, -⟩
      · intro indent child rest htop
        simp [step, htop] at hstep
      · exact absurd (hstep.symm.trans hnext) (by simp)
    | some next =>
      obtain ⟨hle, hiff⟩ := broken_step hstep
      obtain ⟨hle', hiff'⟩ := ih next hstep
      rw [run_of_step hstep]
      refine ⟨hle.trans hle', ?_⟩
      simp only [reaches_iff_of_step hstep, forall_eq_or_imp, ← hiff, ← hiff']
      omega

end State

/-- The groups that are counted as broken are those that a run decides about and that do not fit. -/
theorem broken_render_eq_zero_iff (doc : Doc) (width : Int) :
    ((State.start doc).run width).progress.broken = 0 ↔
      ∀ state, Reaches (State.step width) (.start doc) state → state.KeepsFlat width :=
  (State.broken_run width (.start doc)).2

/-- What fits in a width fits in a greater one.  If all groups that are decided about in laying out
a document fit, the document has the same text at every greater width, and it is laid out in the
same turns. -/
theorem layout_stable_of_fits :
    (∀ (doc : Doc) (column width wider : Int), width ≤ wider →
      fits doc column width = true → fits doc column wider = true) ∧
    ∀ (doc : Doc) (width : Int),
      (∀ state, Reaches (State.step width) (.start doc) state → state.KeepsFlat width) →
      ∀ wider, width ≤ wider →
        render doc wider = render doc width ∧
          ∀ state, Reaches (State.step wider) (.start doc) state ↔
            Reaches (State.step width) (.start doc) state := by
  refine ⟨fun doc column width wider hwider hfits => fits_widen hwider hfits,
    fun doc width hkeeps wider hwider => ⟨?_, fun state => State.reaches_widen_iff hwider hkeeps⟩⟩
  rw [render, render, State.run_widen hwider (.start doc) hkeeps]

/-- A group with a `column` node in it, and a line after it that is too long. -/
def groupAndLine : Doc :=
  .concat [.group (.concat [.text "a", .brk 1,
    .column (fun reached => .text (if reached = 2 then "b" else "?")) fun _ => []]),
    .hardline, .text "cdef"]

/-- The group takes up all three columns. -/
theorem layout_stable_of_fits_groupAndLine :
    (fits (.text "abc") 0 3 = true ∧
      ∀ state, Reaches (State.step 3) (.start groupAndLine) state → state.KeepsFlat 3) ∧
    fits (.text "abc") 0 80 = true ∧ render groupAndLine 80 = "a b\ncdef" := by
  have hfits : fits (.text "abc") 0 3 = true := by
    rw [fits_eq_fitsFlat]
    decide +kernel
  have hbroken : ((State.start groupAndLine).run 3).progress.broken = 0 := by
    rw [run_start]
    simp only [groupAndLine, Doc.lay, layAll, Progress.decide, fits_eq_fitsFlat]
    decide +kernel
  have hkeeps := (broken_render_eq_zero_iff groupAndLine 3).mp hbroken
  refine ⟨⟨hfits, hkeeps⟩, layout_stable_of_fits.1 _ _ _ 80 (by decide) hfits, ?_⟩
  rw [(layout_stable_of_fits.2 groupAndLine 3 hkeeps 80 (by decide)).1, render_eq_lay]
  simp only [groupAndLine, Doc.lay, layAll, Progress.decide, fits_eq_fitsFlat]
  decide +kernel

end ResourceLiterals.Layout
