import Mathlib.Computability.StateTransition
import Mathlib.Order.WellFounded
import ResourceLiterals.Proofs.Layout.FitCheck

/-!
# The fit check and the renderer in step

The fit check counts the room that is left, the renderer the column that it has reached.  On frames
that are all flat the two go through the same documents, one turn of the one for each turn of the
other, and the room is always the width less the column.

There are three groups.

* One turn.  `exists_flatTurn` says what a turn on a flat frame opens and what the fit check makes
  of it, and `step_broken_cases` is the inversion of a turn on a broken one.
* A run on flat frames.  `fitsWithin_iff_forall_reaches` compares the verdict with the whole run,
  and `exists_reaches_visits` the columns at which `column` nodes are evaluated.
* The run on a whole document.  `Steady` is the invariant: flat frames lie on top of broken ones,
  and those on top fit.  So a group that is laid out flat fits (`exists_fitsWithin_group`).
-/

namespace ResourceLiterals.Layout

open StateTransition (Reaches)

/-! ## One turn -/

/-- All frames are to be laid out flat. -/
def AllFlat (frames : List Frame) : Prop :=
  ∀ frame ∈ frames, frame.flat = true

@[simp] theorem allFlat_nil : AllFlat [] := by
  intro frame hframe
  simp at hframe

@[simp] theorem allFlat_cons {frame : Frame} {frames : List Frame} :
    AllFlat (frame :: frames) ↔ frame.flat = true ∧ AllFlat frames := by
  simp [AllFlat]

@[simp] theorem allFlat_append {first second : List Frame} :
    AllFlat (first ++ second) ↔ AllFlat first ∧ AllFlat second := by
  simp [AllFlat, or_imp, forall_and]

@[simp] theorem allFlat_map (indent : Int) (docs : List Doc) :
    AllFlat (docs.map (⟨indent, true, ·⟩)) := by
  intro frame hframe
  obtain ⟨doc, -, rfl⟩ := List.mem_map.mp hframe
  rfl

@[simp] theorem map_doc_map (indent : Int) (flat : Bool) (docs : List Doc) :
    (docs.map (Frame.mk indent flat ·)).map Frame.doc = docs := by
  simp [Function.comp_def]

/-- A turn on a flat frame with `doc`: it leaves `opened` in its place.  Within the width, and
unless a forced line break is next, the fit check goes from `doc` to the same documents, with the
same room and the same evaluations of `column` nodes. -/
structure FlatTurn (width indent : Int) (doc : Doc) (progress : Progress)
    (opened : List Frame) (visited : List Visit) (after : Progress) : Prop where
  flat : AllFlat opened
  step : ∀ rest, State.step width ⟨⟨indent, true, doc⟩ :: rest, progress⟩ =
    some ⟨opened ++ rest, after⟩
  visits : after.visits = visited.reverse ++ progress.visits
  fits : progress.column ≤ width → doc ≠ .hardline → ∀ docs,
    fitsWithin width (doc :: docs) (width - progress.column) =
      fitsWithin width (opened.map Frame.doc ++ docs) (width - after.column)
  fitVisits : progress.column ≤ width → doc ≠ .hardline → ∀ docs,
    visitsWithin width (doc :: docs) (width - progress.column) =
      visited ++ visitsWithin width (opened.map Frame.doc ++ docs) (width - after.column)

/-- There is a turn on every flat frame, and it is the same at every width. -/
theorem exists_flatTurn (indent : Int) (doc : Doc) (progress : Progress) :
    ∃ opened visited after, ∀ width,
      FlatTurn width indent doc progress opened visited after := by
  have hroom (width : Int) : progress.column ≤ width → ¬ width - progress.column < 0 := by omega
  cases doc with
  | text content =>
    refine ⟨[], [], progress.write content content.length, fun width =>
      ⟨by simp, fun _ => rfl, rfl, fun hcolumn _ docs => ?_, fun hcolumn _ docs => ?_⟩⟩
    all_goals
      have hleft : width - progress.column - content.length =
          width - (progress.column + content.length) := by omega
    · rw [fitsWithin, if_neg (hroom width hcolumn), hleft]
      rfl
    · rw [visitsWithin, if_neg (hroom width hcolumn), hleft]
      rfl
  | concat parts =>
    refine ⟨parts.map (⟨indent, true, ·⟩), [], progress, fun width =>
      ⟨allFlat_map indent parts, fun _ => rfl, rfl, fun hcolumn _ docs => ?_,
        fun hcolumn _ docs => ?_⟩⟩
    · rw [fitsWithin, if_neg (hroom width hcolumn), map_doc_map]
    · rw [visitsWithin, if_neg (hroom width hcolumn), map_doc_map]
      rfl
  | hardline =>
    exact ⟨[], [], progress.newline indent, fun width =>
      ⟨by simp, fun _ => rfl, rfl, fun _ h => absurd rfl h, fun _ h => absurd rfl h⟩⟩
  | brk count =>
    refine ⟨[], [], progress.write (blanks count) count, fun width =>
      ⟨by simp, fun _ => rfl, rfl, fun hcolumn _ docs => ?_, fun hcolumn _ docs => ?_⟩⟩
    all_goals
      have hleft : width - progress.column - count = width - (progress.column + count) := by omega
    · rw [fitsWithin, if_neg (hroom width hcolumn), hleft]
      rfl
    · rw [visitsWithin, if_neg (hroom width hcolumn), hleft]
      rfl
  | ifFlat whenFlat whenBroken =>
    refine ⟨[⟨indent, true, whenFlat⟩], [], progress, fun width =>
      ⟨by simp, fun _ => rfl, rfl, fun hcolumn _ docs => ?_, fun hcolumn _ docs => ?_⟩⟩
    · rw [fitsWithin, if_neg (hroom width hcolumn)]
      rfl
    · rw [visitsWithin, if_neg (hroom width hcolumn)]
      rfl
  | group child =>
    refine ⟨[⟨indent, true, child⟩], [], progress, fun width =>
      ⟨by simp, fun _ => rfl, rfl, fun hcolumn _ docs => ?_, fun hcolumn _ docs => ?_⟩⟩
    · rw [fitsWithin, if_neg (hroom width hcolumn)]
      rfl
    · rw [visitsWithin, if_neg (hroom width hcolumn)]
      rfl
  | nest amount child =>
    refine ⟨[⟨indent + amount, true, child⟩], [], progress, fun width =>
      ⟨by simp, fun _ => rfl, rfl, fun hcolumn _ docs => ?_, fun hcolumn _ docs => ?_⟩⟩
    · rw [fitsWithin, if_neg (hroom width hcolumn)]
      rfl
    · rw [visitsWithin, if_neg (hroom width hcolumn)]
      rfl
  | column build reports =>
    refine ⟨[⟨indent, true, build progress.column⟩], [⟨progress.column, reports progress.column⟩],
      progress.visit reports, fun width =>
      ⟨by simp, fun _ => rfl, rfl, fun hcolumn _ docs => ?_, fun hcolumn _ docs => ?_⟩⟩
    all_goals
      have hcolumn_eq : width - (width - progress.column) = progress.column := by omega
    · rw [fitsWithin, if_neg (hroom width hcolumn), hcolumn_eq]
      rfl
    · rw [visitsWithin, if_neg (hroom width hcolumn)]
      simp only [hcolumn_eq]
      rfl

/-- A turn on a broken frame: it leaves broken frames in its place, or it is a group that fits and
is opened flat. -/
theorem step_broken_cases {width indent : Int} {doc : Doc} {rest : List Frame}
    {progress : Progress} {next : State}
    (h : State.step width ⟨⟨indent, false, doc⟩ :: rest, progress⟩ = some next) :
    (∃ opened, next.pending = opened ++ rest ∧ ∀ frame ∈ opened, frame.flat = false) ∨
      ∃ child, next.pending = ⟨indent, true, child⟩ :: rest ∧
        next.progress.column = progress.column ∧ fits child progress.column width = true := by
  cases doc with
  | text content =>
    obtain rfl := Option.some.inj h
    exact .inl ⟨[], rfl, by simp⟩
  | concat parts =>
    obtain rfl := Option.some.inj h
    refine .inl ⟨_, rfl, fun frame hframe => ?_⟩
    obtain ⟨doc, -, rfl⟩ := List.mem_map.mp hframe
    rfl
  | hardline =>
    obtain rfl := Option.some.inj h
    exact .inl ⟨[], rfl, by simp⟩
  | brk count =>
    obtain rfl := Option.some.inj h
    exact .inl ⟨[], rfl, by simp⟩
  | ifFlat whenFlat whenBroken =>
    obtain rfl := Option.some.inj h
    exact .inl ⟨[⟨indent, false, whenBroken⟩], rfl, by simp⟩
  | nest amount child =>
    obtain rfl := Option.some.inj h
    exact .inl ⟨[⟨indent + amount, false, child⟩], rfl, by simp⟩
  | group child =>
    obtain rfl := Option.some.inj h
    cases hfits : fits child progress.column width with
    | true => exact .inr ⟨child, by simp, rfl, hfits⟩
    | false => exact .inl ⟨[⟨indent, false, child⟩], by simp, by simp⟩
  | column build reports =>
    obtain rfl := Option.some.inj h
    exact .inl ⟨[⟨indent, false, build progress.column⟩], rfl, by simp⟩

/-! ## Runs -/

namespace State

/-- The column is within the width, and no forced line break is next. -/
structure Within (width : Int) (state : State) : Prop where
  column : state.progress.column ≤ width
  no_hardline : state.pending.head?.map Frame.doc ≠ some .hardline

/-- Once nothing is pending, nothing else is reached. -/
theorem eq_of_reaches_done {width : Int} {progress : Progress} {state : State}
    (h : Reaches (step width) ⟨[], progress⟩ state) : state = ⟨[], progress⟩ := by
  rcases Relation.ReflTransGen.cases_head h with rfl | ⟨next, hnext, -⟩
  · rfl
  · simp [step] at hnext

/-- What is reached is the state itself or what is reached after a turn. -/
theorem reaches_iff_of_step {width : Int} {state next last : State}
    (h : state.step width = some next) :
    Reaches (step width) state last ↔ last = state ∨ Reaches (step width) next last := by
  constructor
  · intro hreaches
    rcases Relation.ReflTransGen.cases_head hreaches with rfl | ⟨other, hother, hlast⟩
    · exact .inl rfl
    · obtain rfl : other = next := Option.mem_unique hother h
      exact .inr hlast
  · rintro (rfl | hlast)
    · exact .refl
    · exact .head h hlast

/-- A run never comes back to the same pending documents. -/
theorem eq_of_reaches_of_agenda_eq {width : Int} {state last : State}
    (h : Reaches (step width) state last) (hdocs : last.agenda.docs = state.agenda.docs) :
    last = state := by
  rcases Relation.reflTransGen_iff_eq_or_transGen.mp h with heq | hturns
  · exact heq
  · have hopens : Relation.TransGen (Function.swap Opens) state.agenda.docs last.agenda.docs :=
      Relation.TransGen.lift (p := Function.swap Opens) (fun state : State => state.agenda.docs)
        (fun _ _ hstep => opens_of_step hstep) _ _ hturns
    rw [hdocs] at hopens
    exact absurd (Relation.transGen_swap.mp hopens) (opens_wellFounded.transGen.irrefl.irrefl _)

/-- A run comes to pending frames only once. -/
theorem eq_of_reaches_of_pending_eq {width : Int} {state first second : State}
    (hfirst : Reaches (step width) state first) (hsecond : Reaches (step width) state second)
    (hpending : first.pending = second.pending) : first = second := by
  have hdocs : first.agenda.docs = second.agenda.docs := by
    simp [agenda, hpending]
  rcases StateTransition.reaches_total hfirst hsecond with hlater | hearlier
  · exact (eq_of_reaches_of_agenda_eq hlater hdocs.symm).symm
  · exact eq_of_reaches_of_agenda_eq hearlier hdocs

end State

/-! ## Runs on flat frames -/

/-- A turn on a flat frame leaves only flat ones. -/
theorem allFlat_of_step {width : Int} {state next : State} (hflat : AllFlat state.pending)
    (h : state.step width = some next) : AllFlat next.pending := by
  obtain ⟨pending, progress⟩ := state
  cases pending with
  | nil => simp [State.step] at h
  | cons frame rest =>
    obtain ⟨indent, flat, doc⟩ := frame
    obtain ⟨rfl : flat = true, hrest⟩ := allFlat_cons.mp hflat
    obtain ⟨opened, visited, after, turns⟩ := exists_flatTurn indent doc progress
    have turn := turns width
    obtain rfl := Option.some.inj ((turn.step rest).symm.trans h)
    exact allFlat_append.mpr ⟨turn.flat, hrest⟩

/-- A run on flat frames stays on flat ones. -/
theorem allFlat_of_reaches {width : Int} {state last : State} (hflat : AllFlat state.pending)
    (h : Reaches (State.step width) state last) : AllFlat last.pending := by
  induction h with
  | refl => exact hflat
  | tail _ hstep ih => exact allFlat_of_step ih hstep

/-- The fit check passes exactly when the run on the same documents, all flat, stays within the
width and meets no forced line break. -/
theorem fitsWithin_iff_forall_reaches (width : Int) (frames : List Frame) (progress : Progress)
    (hflat : AllFlat frames) :
    fitsWithin width (frames.map Frame.doc) (width - progress.column) = true ↔
      ∀ state, Reaches (State.step width) ⟨frames, progress⟩ state → state.Within width := by
  match frames with
  | [] =>
    rw [List.map_nil, fitsWithin_nil, decide_eq_true_iff]
    constructor
    · intro hroom state hstate
      rw [State.eq_of_reaches_done hstate]
      exact ⟨show progress.column ≤ width by omega, by simp⟩
    · intro hall
      have hcolumn : progress.column ≤ width := (hall ⟨[], progress⟩ .refl).column
      omega
  | ⟨indent, flat, doc⟩ :: rest =>
    obtain ⟨rfl : flat = true, hrest⟩ := allFlat_cons.mp hflat
    obtain ⟨opened, visited, after, turns⟩ := exists_flatTurn indent doc progress
    have turn := turns width
    have hstep := turn.step rest
    have ih := fitsWithin_iff_forall_reaches width (opened ++ rest) after
      (allFlat_append.mpr ⟨turn.flat, hrest⟩)
    rw [List.map_append] at ih
    simp only [State.reaches_iff_of_step hstep, forall_eq_or_imp, ← ih, List.map_cons]
    constructor
    · intro hfits
      have hcolumn : progress.column ≤ width := by
        have := room_of_fitsWithin hfits
        omega
      have hdoc : doc ≠ .hardline := by
        rintro rfl
        simp at hfits
      exact ⟨⟨hcolumn, by simpa using hdoc⟩, turn.fits hcolumn hdoc _ ▸ hfits⟩
    · rintro ⟨⟨hcolumn, hdoc⟩, hfits⟩
      rw [turn.fits hcolumn (by simpa using hdoc)]
      exact hfits
termination_by Agenda.mk (frames.map Frame.doc)
decreasing_by
  have hopens := State.opens_of_step hstep
  simpa [State.agenda] using hopens

/-- Where the run stops being within the width, the fit check evaluates nothing more. -/
theorem State.visitsWithin_of_not_within {width indent : Int} {flat : Bool} {doc : Doc}
    {rest : List Frame} {progress : Progress}
    (h : ¬ State.Within width ⟨⟨indent, flat, doc⟩ :: rest, progress⟩) :
    visitsWithin width (doc :: rest.map Frame.doc) (width - progress.column) = [] := by
  by_cases hcolumn : progress.column ≤ width
  · obtain rfl : doc = .hardline := by
      by_contra hdoc
      exact h ⟨hcolumn, by simpa using hdoc⟩
    rw [visitsWithin]
    simp
  · unfold visitsWithin
    exact if_pos (by omega)

/-- The fit check evaluates the `column` nodes that the run on the same documents evaluates, at the
same columns, until there is nothing left or the width is exceeded. -/
theorem exists_reaches_visits (width : Int) (frames : List Frame) (progress : Progress)
    (hflat : AllFlat frames) :
    ∃ last, Reaches (State.step width) ⟨frames, progress⟩ last ∧
      last.progress.visits =
        (visitsWithin width (frames.map Frame.doc) (width - progress.column)).reverse ++
          progress.visits ∧
      (last.pending = [] ∨ ¬ last.Within width) := by
  match frames with
  | [] =>
    refine ⟨⟨[], progress⟩, .refl, ?_, .inl rfl⟩
    rw [List.map_nil, visitsWithin]
    rfl
  | ⟨indent, flat, doc⟩ :: rest =>
    obtain ⟨rfl : flat = true, hrest⟩ := allFlat_cons.mp hflat
    by_cases hwithin : State.Within width ⟨⟨indent, true, doc⟩ :: rest, progress⟩
    · obtain ⟨opened, visited, after, turns⟩ := exists_flatTurn indent doc progress
      have turn := turns width
      have hstep := turn.step rest
      have hdoc : doc ≠ .hardline := by simpa using hwithin.no_hardline
      obtain ⟨last, hlast, hvisits, hend⟩ := exists_reaches_visits width (opened ++ rest) after
        (allFlat_append.mpr ⟨turn.flat, hrest⟩)
      refine ⟨last, .head hstep hlast, ?_, hend⟩
      rw [hvisits, turn.visits, List.map_append, List.map_cons,
        turn.fitVisits hwithin.column hdoc, List.reverse_append, List.append_assoc]
    · refine ⟨_, .refl, ?_, .inr hwithin⟩
      rw [List.map_cons, State.visitsWithin_of_not_within hwithin]
      rfl
termination_by Agenda.mk (frames.map Frame.doc)
decreasing_by
  have hopens := State.opens_of_step hstep
  simpa [State.agenda] using hopens

/-- Flat frames that fit, with `docs` after them, are finished, and then `docs` still fit. -/
theorem exists_reaches_finish (width : Int) (frames rest : List Frame) (progress : Progress)
    (docs : List Doc) (hflat : AllFlat frames)
    (hfits : fitsWithin width (frames.map Frame.doc ++ docs) (width - progress.column) = true) :
    ∃ after, Reaches (State.step width) ⟨frames ++ rest, progress⟩ ⟨rest, after⟩ ∧
      fitsWithin width docs (width - after.column) = true := by
  match frames with
  | [] => exact ⟨progress, .refl, hfits⟩
  | ⟨indent, flat, doc⟩ :: others =>
    obtain ⟨rfl : flat = true, hothers⟩ := allFlat_cons.mp hflat
    obtain ⟨opened, visited, next, turns⟩ := exists_flatTurn indent doc progress
    have turn := turns width
    have hcolumn : progress.column ≤ width := by
      have := room_of_fitsWithin hfits
      omega
    have hdoc : doc ≠ .hardline := by
      rintro rfl
      simp at hfits
    rw [List.map_cons, List.cons_append, turn.fits hcolumn hdoc, ← List.append_assoc,
      ← List.map_append] at hfits
    have hstep := turn.step others
    obtain ⟨after, hreaches, hdocs⟩ := exists_reaches_finish width (opened ++ others) rest next docs
      (allFlat_append.mpr ⟨turn.flat, hothers⟩) hfits
    rw [List.append_assoc] at hreaches
    exact ⟨after, .head (turn.step (others ++ rest)) hreaches, hdocs⟩
termination_by Agenda.mk (frames.map Frame.doc)
decreasing_by
  have hopens := State.opens_of_step hstep
  simpa [State.agenda] using hopens

/-! ## The run on a whole document -/

/-- The stack between two turns: flat frames on top of broken ones, and what is flat fits. -/
structure Steady (width : Int) (flats brokens : List Frame) (column : Int) : Prop where
  flat : AllFlat flats
  broken : ∀ frame ∈ brokens, frame.flat = false
  fits : flats ≠ [] → fitsWithin width (flats.map Frame.doc) (width - column) = true

/-- A turn keeps the stack steady. -/
theorem exists_steady_of_step {width : Int} {flats brokens : List Frame} {progress : Progress}
    {next : State} (hsteady : Steady width flats brokens progress.column)
    (h : State.step width ⟨flats ++ brokens, progress⟩ = some next) :
    ∃ flats' brokens', next.pending = flats' ++ brokens' ∧
      Steady width flats' brokens' next.progress.column := by
  cases flats with
  | cons frame others =>
    obtain ⟨indent, flat, doc⟩ := frame
    obtain ⟨rfl : flat = true, hothers⟩ := allFlat_cons.mp hsteady.flat
    obtain ⟨opened, visited, after, turns⟩ := exists_flatTurn indent doc progress
    have turn := turns width
    obtain rfl := Option.some.inj ((turn.step (others ++ brokens)).symm.trans h)
    have hfits := hsteady.fits (by simp)
    have hcolumn : progress.column ≤ width := by
      have := room_of_fitsWithin hfits
      omega
    have hdoc : doc ≠ .hardline := by
      rintro rfl
      simp at hfits
    rw [List.map_cons, turn.fits hcolumn hdoc, ← List.map_append] at hfits
    exact ⟨opened ++ others, brokens, by simp,
      ⟨allFlat_append.mpr ⟨turn.flat, hothers⟩, hsteady.broken, fun _ => hfits⟩⟩
  | nil =>
    cases brokens with
    | nil => simp [State.step] at h
    | cons frame rest =>
      obtain ⟨indent, flat, doc⟩ := frame
      obtain ⟨rfl : flat = false, hrest⟩ := List.forall_mem_cons.mp hsteady.broken
      rcases step_broken_cases h with
        ⟨opened, hpending, hopened⟩ | ⟨child, hpending, hcolumn, hfits⟩
      · refine ⟨[], opened ++ rest, hpending, ⟨allFlat_nil, fun frame hframe => ?_, by simp⟩⟩
        rcases List.mem_append.mp hframe with hmem | hmem
        · exact hopened frame hmem
        · exact hrest frame hmem
      · refine ⟨[⟨indent, true, child⟩], rest, hpending, ⟨by simp, hrest, fun _ => ?_⟩⟩
        rw [hcolumn]
        exact hfits

/-- The stack is steady in every state of a run. -/
theorem exists_steady_of_reaches {width : Int} {doc : Doc} {state : State}
    (h : Reaches (State.step width) (.start doc) state) :
    ∃ flats brokens, state.pending = flats ++ brokens ∧
      Steady width flats brokens state.progress.column := by
  induction h with
  | refl => exact ⟨[], [⟨0, false, doc⟩], rfl, ⟨allFlat_nil, by simp, by simp⟩⟩
  | @tail state next _ hstep ih =>
    obtain ⟨flats, brokens, hpending, hsteady⟩ := ih
    obtain ⟨pending, progress⟩ := state
    obtain rfl : pending = flats ++ brokens := hpending
    exact exists_steady_of_step hsteady hstep

/-- What is flat fits, together with all that is flat below it. -/
theorem fitsWithin_of_steady {width column indent : Int} {doc : Doc}
    {rest flats brokens : List Frame}
    (hsteady : Steady width flats brokens column)
    (hpending : ⟨indent, true, doc⟩ :: rest = flats ++ brokens) :
    ∃ others, rest = others ++ brokens ∧
      fitsWithin width (doc :: others.map Frame.doc) (width - column) = true := by
  cases flats with
  | nil =>
    have hmem : ⟨indent, true, doc⟩ ∈ brokens := by
      rw [← List.nil_append brokens, ← hpending]
      exact List.mem_cons_self
    have hflat := hsteady.broken ⟨indent, true, doc⟩ hmem
    simp at hflat
  | cons frame others =>
    obtain ⟨rfl, rfl⟩ := List.cons.inj hpending
    exact ⟨others, rfl, by simpa using hsteady.fits (by simp)⟩

/-- In a run no forced line break comes to the top in a flat frame. -/
theorem not_flat_hardline_of_reaches {width : Int} {doc : Doc} {state : State}
    (h : Reaches (State.step width) (.start doc) state) (indent : Int) (rest : List Frame) :
    state.pending ≠ ⟨indent, true, .hardline⟩ :: rest := by
  intro htop
  obtain ⟨flats, brokens, hpending, hsteady⟩ := exists_steady_of_reaches h
  obtain ⟨others, -, hfits⟩ := fitsWithin_of_steady hsteady (htop.symm.trans hpending)
  simp at hfits

/-- A group that is laid out flat fits, together with what is flat below it. -/
theorem exists_fitsWithin_group {width : Int} {doc : Doc} {state : State}
    (h : Reaches (State.step width) (.start doc) state) {indent : Int} {flat : Bool} {child : Doc}
    {rest : List Frame} (htop : state.pending = ⟨indent, flat, .group child⟩ :: rest)
    (hflat : flat = true ∨ fits child state.progress.column width = true) :
    ∃ docs, fitsWithin width (child :: docs) (width - state.progress.column) = true := by
  cases flat with
  | true =>
    obtain ⟨flats, brokens, hpending, hsteady⟩ := exists_steady_of_reaches h
    obtain ⟨others, -, hfits⟩ := fitsWithin_of_steady hsteady (htop.symm.trans hpending)
    rw [fitsWithin_group] at hfits
    exact ⟨others.map Frame.doc, hfits⟩
  | false =>
    have hfits : fits child state.progress.column width = true := by simpa using hflat
    exact ⟨[], hfits⟩

/-- A group that is laid out flat in a run is finished with the column within the width. -/
theorem exists_reaches_group_finish {width : Int} {doc : Doc} {state : State}
    (h : Reaches (State.step width) (.start doc) state) {indent : Int} {flat : Bool} {child : Doc}
    {rest : List Frame} (htop : state.pending = ⟨indent, flat, .group child⟩ :: rest)
    (hflat : flat = true ∨ fits child state.progress.column width = true) :
    ∃ after, Reaches (State.step width) state ⟨rest, after⟩ ∧ after.column ≤ width := by
  obtain ⟨docs, hfits⟩ := exists_fitsWithin_group h htop hflat
  obtain ⟨pending, progress⟩ := state
  obtain rfl : pending = ⟨indent, flat, .group child⟩ :: rest := htop
  have hopens : ∃ opened : Progress, opened.column = progress.column ∧
      State.step width ⟨⟨indent, flat, .group child⟩ :: rest, progress⟩ =
        some ⟨⟨indent, true, child⟩ :: rest, opened⟩ := by
    cases flat with
    | true => exact ⟨progress, rfl, rfl⟩
    | false =>
      have hchild : fits child progress.column width = true := by simpa using hflat
      exact ⟨progress.decide width child, rfl, by simp [State.step, hchild]⟩
  obtain ⟨opened, hcolumn, hstep⟩ := hopens
  have hopened : fitsWithin width ([⟨indent, true, child⟩].map Frame.doc ++ docs)
      (width - opened.column) = true := by
    rw [hcolumn]
    exact hfits
  obtain ⟨after, hreaches, hdocs⟩ :=
    exists_reaches_finish width [⟨indent, true, child⟩] rest opened docs (by simp) hopened
  have hroom := room_of_fitsWithin hdocs
  exact ⟨after, .head hstep hreaches, by omega⟩

/-- The fit check says whether the flat layout stays within the width.

For every document, from every column, the check passes exactly when the run that lays it out flat
meets no forced line break and keeps its column within the width at all times.  Both evaluate the
same `column` nodes at the same columns, as long as that holds.  So in the run on a whole document
no forced line break comes to the top in a flat frame, and a group that is laid out flat is
finished, with the column within the width whenever it is. -/
theorem fits_iff_flat_run_within :
    (∀ (doc : Doc) (width indent : Int) (progress : Progress),
      (fits doc progress.column width = true ↔
        ∀ state, Reaches (State.step width) ⟨[⟨indent, true, doc⟩], progress⟩ state →
          state.Within width) ∧
      ∃ last, Reaches (State.step width) ⟨[⟨indent, true, doc⟩], progress⟩ last ∧
        last.progress.visits =
          (fitVisits doc progress.column width).reverse ++ progress.visits ∧
        (last.pending = [] ∨ ¬ last.Within width)) ∧
    ∀ (doc : Doc) (width : Int) (state : State), Reaches (State.step width) (.start doc) state →
      (∀ indent rest, state.pending ≠ ⟨indent, true, .hardline⟩ :: rest) ∧
      ∀ indent flat child rest, state.pending = ⟨indent, flat, .group child⟩ :: rest →
        flat = true ∨ fits child state.progress.column width = true →
        (∃ done, Reaches (State.step width) state done ∧ done.pending = rest) ∧
        ∀ done, Reaches (State.step width) state done → done.pending = rest →
          done.progress.column ≤ width := by
  refine ⟨fun doc width indent progress => ⟨?_, ?_⟩,
    fun doc width state hstate => ⟨not_flat_hardline_of_reaches hstate, ?_⟩⟩
  · exact fitsWithin_iff_forall_reaches width [⟨indent, true, doc⟩] progress (by simp)
  · exact exists_reaches_visits width [⟨indent, true, doc⟩] progress (by simp)
  · intro indent flat child rest htop hflat
    obtain ⟨after, hreaches, hcolumn⟩ := exists_reaches_group_finish hstate htop hflat
    refine ⟨⟨_, hreaches, rfl⟩, fun done hdone hpending => ?_⟩
    have hdocs : done.agenda.docs = (State.mk rest after).agenda.docs := by
      simp [State.agenda, hpending]
    rcases StateTransition.reaches_total hreaches hdone with hlater | hearlier
    · rw [State.eq_of_reaches_of_agenda_eq hlater hdocs]
      exact hcolumn
    · rw [← State.eq_of_reaches_of_agenda_eq hearlier hdocs.symm]
      exact hcolumn

end ResourceLiterals.Layout
