import Mathlib.Computability.StateTransition
import Mathlib.Data.List.DropRight
import ResourceLiterals.Proofs.Layout.FlatRun
import ResourceLiterals.Proofs.Layout.Loops
import ResourceLiterals.Proofs.Layout.OneLine

/-!
# The column is the real one

The renderer counts the column and never looks at what it has written.  A line feed inside a text,
a negative break or a line that is indented to the left of the margin would set the two apart.
Without any of these, the count is right between any two turns.

There are four groups.

* Where a text ends.  `endColumn` reads the column off the output.
* The count.  `State.Exact` is the invariant, `exact_of_step` says that a turn keeps it, and
  `exact_of_reaches` that all turns do.
* The evaluations of `column` nodes.  The renderer evaluates them at the column that it has counted,
  and so does the fit check: its evaluations are made in the run that lays the group out flat
  (`exists_evaluates_of_mem_fitVisits`).
* Flat groups.  Such a group fits, and `exists_reaches_group_onOneLine` says that the run gets past
  it without leaving the line.
-/

namespace ResourceLiterals.Layout

open StateTransition (Reaches)

/-! ## Where a text ends -/

/-- The number of characters after the last line feed of a text. -/
def endColumn (text : String) : Nat :=
  (text.toList.rtakeWhile (· != '\n')).length

section EndColumn

variable {text content : String}

/-- Characters inside a line move the end of a text. -/
theorem endColumn_append (h : '\n' ∉ content.toList) :
    endColumn (text ++ content) = endColumn text + content.length := by
  have hinLine : ∀ c ∈ content.toList.reverse, (c != '\n') = true := by
    intro c hc
    rw [List.mem_reverse] at hc
    simpa using ne_of_mem_of_not_mem hc h
  unfold endColumn List.rtakeWhile
  rw [String.toList_append, List.reverse_append, List.takeWhile_append_of_pos hinLine]
  simp only [List.length_reverse, List.length_append, String.length_toList]
  omega

/-- A line feed starts a new line. -/
theorem endColumn_lineFeed : endColumn (text ++ "\n") = 0 := by
  have hlast : (text ++ "\n").toList = text.toList ++ ['\n'] := by simp
  rw [endColumn, hlast, List.rtakeWhile_concat_neg _ _ _ (by simp), List.length_nil]

end EndColumn

theorem length_blanks (count : Int) : (blanks count).length = count.toNat := by
  simp [blanks]

theorem lineFeed_not_mem_blanks (count : Int) : '\n' ∉ (blanks count).toList := by
  simp [blanks]

/-! ## The count -/

mutual

/-- No line break of the document starts a line to the left of the margin: the indentation that has
added up there, from `indent` on, is not negative. -/
def Doc.Indented : Doc → (indent : Int) → Prop
  | .text _, _ => True
  | .concat parts, indent => IndentedAll parts indent
  | .hardline, indent => 0 ≤ indent
  | .brk _, indent => 0 ≤ indent
  | .ifFlat whenFlat whenBroken, indent => whenFlat.Indented indent ∧ whenBroken.Indented indent
  | .group child, indent => child.Indented indent
  | .nest amount child, indent => child.Indented (indent + amount)
  | .column build _, indent => ∀ column, (build column).Indented indent
termination_by structural doc => doc

def IndentedAll : List Doc → (indent : Int) → Prop
  | [], _ => True
  | doc :: docs, indent => doc.Indented indent ∧ IndentedAll docs indent
termination_by structural docs => docs

end

theorem indentedAll_iff {docs : List Doc} {indent : Int} :
    IndentedAll docs indent ↔ ∀ doc ∈ docs, doc.Indented indent := by
  induction docs with
  | nil => simp [IndentedAll]
  | cons doc docs ih => rw [IndentedAll, ih, List.forall_mem_cons]

/-- A frame whose document does nothing that would put the count out. -/
structure Frame.Regular (frame : Frame) : Prop where
  plain : frame.doc.Plain
  indented : frame.doc.Indented frame.indent

/-- The column that is counted is the one at which the output ends. -/
def Progress.Exact (progress : Progress) : Prop :=
  progress.column = endColumn progress.output

theorem Progress.exact_start : Progress.start.Exact := rfl

theorem Progress.Exact.write {progress : Progress} (h : progress.Exact) {content : String}
    {advance : Int} (hline : '\n' ∉ content.toList) (hadvance : advance = content.length) :
    (progress.write content advance).Exact := by
  show progress.column + advance = endColumn (progress.output ++ content)
  have hcolumn : progress.column = endColumn progress.output := h
  rw [endColumn_append hline]
  omega

theorem Progress.exact_newline (progress : Progress) {indent : Int} (hindent : 0 ≤ indent) :
    (progress.newline indent).Exact := by
  show indent = endColumn (progress.output ++ "\n" ++ blanks indent)
  rw [endColumn_append (lineFeed_not_mem_blanks indent), endColumn_lineFeed, length_blanks]
  omega

/-- Between two turns: the count is right, and nothing that is pending will put it out. -/
structure State.Exact (state : State) : Prop where
  progress : state.progress.Exact
  pending : ∀ frame ∈ state.pending, frame.Regular

theorem exact_start {doc : Doc} (hplain : doc.Plain) (hindented : doc.Indented 0) :
    (State.start doc).Exact := by
  refine ⟨Progress.exact_start, ?_⟩
  intro frame hframe
  obtain rfl := List.mem_singleton.mp hframe
  exact ⟨hplain, hindented⟩

/-- A turn keeps the count right. -/
theorem exact_of_step {width : Int} {state next : State} (hexact : state.Exact)
    (h : state.step width = some next) : next.Exact := by
  obtain ⟨pending, progress⟩ := state
  obtain ⟨hprogress : progress.Exact, hpending⟩ := hexact
  cases pending with
  | nil => simp [State.step] at h
  | cons frame rest =>
    obtain ⟨indent, flat, doc⟩ := frame
    obtain ⟨⟨hplain, hindented⟩, hrest⟩ := List.forall_mem_cons.mp hpending
    cases doc with
    | text content =>
      obtain rfl := Option.some.inj h
      exact ⟨hprogress.write hplain rfl, hrest⟩
    | concat parts =>
      obtain rfl := Option.some.inj h
      refine ⟨hprogress, ?_⟩
      intro frame hframe
      rcases List.mem_append.mp hframe with hpart | hmem
      · obtain ⟨part, hmem, rfl⟩ := List.mem_map.mp hpart
        exact ⟨plainAll_iff.mp hplain part hmem, indentedAll_iff.mp hindented part hmem⟩
      · exact hrest frame hmem
    | hardline =>
      obtain rfl := Option.some.inj h
      exact ⟨progress.exact_newline hindented, hrest⟩
    | brk count =>
      obtain rfl := Option.some.inj h
      cases flat with
      | true =>
        have hcount : 0 ≤ count := hplain
        have hlength : count = (blanks count).length := by
          rw [length_blanks]
          omega
        exact ⟨hprogress.write (lineFeed_not_mem_blanks count) hlength, hrest⟩
      | false => exact ⟨progress.exact_newline hindented, hrest⟩
    | ifFlat whenFlat whenBroken =>
      obtain rfl := Option.some.inj h
      refine ⟨hprogress, List.forall_mem_cons.mpr ⟨?_, hrest⟩⟩
      cases flat with
      | true => exact ⟨hplain.1, hindented.1⟩
      | false => exact ⟨hplain.2, hindented.2⟩
    | nest amount child =>
      obtain rfl := Option.some.inj h
      exact ⟨hprogress, List.forall_mem_cons.mpr ⟨⟨hplain, hindented⟩, hrest⟩⟩
    | group child =>
      cases flat <;> obtain rfl := Option.some.inj h <;>
        exact ⟨hprogress, List.forall_mem_cons.mpr ⟨⟨hplain, hindented⟩, hrest⟩⟩
    | column build reports =>
      obtain rfl := Option.some.inj h
      exact ⟨hprogress,
        List.forall_mem_cons.mpr ⟨⟨hplain progress.column, hindented progress.column⟩, hrest⟩⟩

/-- The count is right in all that is reached from where it is right. -/
theorem exact_of_reaches {width : Int} {state last : State} (hexact : state.Exact)
    (h : Reaches (State.step width) state last) : last.Exact := by
  induction h with
  | refl => exact hexact
  | tail _ hstep ih => exact exact_of_step ih hstep

/-! ## The evaluations of `column` nodes -/

/-- A `column` node is next, and this is what its evaluation takes down. -/
def State.Evaluates (state : State) (visit : Visit) : Prop :=
  ∃ indent flat build reports rest,
    state.pending = ⟨indent, flat, .column build reports⟩ :: rest ∧
      visit = ⟨state.progress.column, reports state.progress.column⟩

/-- A turn on a flat frame takes down an evaluation only where a `column` node is next. -/
theorem visits_of_flat_step {width : Int} {state next : State} (hflat : AllFlat state.pending)
    (h : state.step width = some next) :
    ∃ made, next.progress.visits = made ++ state.progress.visits ∧
      ∀ visit ∈ made, state.Evaluates visit := by
  obtain ⟨pending, progress⟩ := state
  cases pending with
  | nil => simp [State.step] at h
  | cons frame rest =>
    obtain ⟨indent, flat, doc⟩ := frame
    obtain ⟨rfl : flat = true, -⟩ := allFlat_cons.mp hflat
    cases doc with
    | column build reports =>
      obtain rfl := Option.some.inj h
      refine ⟨[⟨progress.column, reports progress.column⟩], rfl, ?_⟩
      intro visit hvisit
      exact ⟨indent, true, build, reports, rest, rfl, List.mem_singleton.mp hvisit⟩
    | _ =>
      obtain rfl := Option.some.inj h
      exact ⟨[], rfl, by simp⟩

/-- A run on flat frames takes down no other evaluations than those of the `column` nodes that it
comes to. -/
theorem visits_of_flat_run {width : Int} {state last : State} (hflat : AllFlat state.pending)
    (h : Reaches (State.step width) state last) :
    ∃ made, last.progress.visits = made ++ state.progress.visits ∧
      ∀ visit ∈ made, ∃ turn, Reaches (State.step width) state turn ∧ turn.Evaluates visit := by
  induction h with
  | refl => exact ⟨[], rfl, by simp⟩
  | @tail before after hreaches hstep ih =>
    obtain ⟨made, hmade, hevaluates⟩ := ih
    obtain ⟨added, hadded, hadds⟩ := visits_of_flat_step (allFlat_of_reaches hflat hreaches) hstep
    refine ⟨added ++ made, ?_, ?_⟩
    · rw [hadded, hmade, List.append_assoc]
    · intro visit hvisit
      rcases List.mem_append.mp hvisit with hnew | hold
      · exact ⟨before, hreaches, hadds visit hnew⟩
      · exact hevaluates visit hold

/-- The fit check evaluates only `column` nodes that the run on the same document, laid out flat,
comes to, and as that run does. -/
theorem exists_evaluates_of_mem_fitVisits {doc : Doc} {width indent : Int} {progress : Progress}
    {visit : Visit} (h : visit ∈ fitVisits doc progress.column width) :
    ∃ turn, Reaches (State.step width) ⟨[⟨indent, true, doc⟩], progress⟩ turn ∧
      turn.Evaluates visit := by
  have hflat : AllFlat [⟨indent, true, doc⟩] := by simp
  obtain ⟨last, hreaches, hvisits, -⟩ :=
    exists_reaches_visits width [⟨indent, true, doc⟩] progress hflat
  obtain ⟨made, hmade, hevaluates⟩ := visits_of_flat_run hflat hreaches
  have hsame : made = (fitVisits doc progress.column width).reverse :=
    List.append_cancel_right (hmade.symm.trans hvisits)
  apply hevaluates
  rw [hsame, List.mem_reverse]
  exact h

/-! ## Flat groups -/

/-- A plain group that is laid out flat is finished on the line where it starts, with the column
within the width. -/
theorem exists_reaches_group_onOneLine {width : Int} {doc : Doc} {state : State}
    (h : Reaches (State.step width) (.start doc) state) {indent : Int} {flat : Bool} {child : Doc}
    {rest : List Frame} (htop : state.pending = ⟨indent, flat, .group child⟩ :: rest)
    (hplain : child.Plain)
    (hflat : flat = true ∨ fits child state.progress.column width = true) :
    ∃ after line, Reaches (State.step width) state ⟨rest, after⟩ ∧
      after.output = state.progress.output ++ line ∧ '\n' ∉ line.toList ∧
      after.column ≤ width := by
  obtain ⟨docs, hfits⟩ := exists_fitsWithin_group h htop hflat
  obtain ⟨pending, progress⟩ := state
  obtain rfl : pending = ⟨indent, flat, .group child⟩ :: rest := htop
  have hline := onOneLine_written width indent child hplain docs progress.column hfits
  have hroom := room_of_fitsWithin hline.fits
  have hwritten : (Doc.group child).written width indent flat progress.column =
      child.written width indent true progress.column := by
    have hmode : (flat || fits child progress.column width) = true := by simpa using hflat
    rw [written_group, hmode]
  obtain ⟨hchars, hcolumn⟩ := lay_adds_written width (.group child) indent flat progress
  rw [hwritten] at hchars hcolumn
  refine ⟨_, String.ofList (child.written width indent true progress.column).chars,
    State.reaches_lay width ⟨indent, flat, .group child⟩ rest progress, ?_, ?_, ?_⟩
  · apply String.toList_injective
    rw [hchars, String.toList_append, String.toList_ofList]
  · rw [String.toList_ofList]
    exact hline.no_lineFeed
  · rw [hcolumn]
    omega

/-- The column that the renderer counts is the one at which its output ends, if no text of the
document holds a line feed, no break is negative and no line is indented to the left of the margin.

That holds between any two turns, at every width.  So `column` nodes are built from the column at
which they start, and the fit check of a group evaluates them at the columns at which they start
when the group is laid out flat.  A group that is laid out flat is finished on the line on which it
starts, and this line is then no longer than the width. -/
theorem keeps_real_column {doc : Doc} (hplain : doc.Plain) (hindented : doc.Indented 0)
    (width : Int) {state : State} (h : Reaches (State.step width) (.start doc) state) :
    state.progress.column = endColumn state.progress.output ∧
    (∀ indent flat build reports rest,
      state.pending = ⟨indent, flat, .column build reports⟩ :: rest →
      state.step width =
        some ⟨⟨indent, flat, build (endColumn state.progress.output)⟩ :: rest,
          state.progress.visit reports⟩) ∧
    (∀ indent child rest, state.pending = ⟨indent, false, .group child⟩ :: rest →
      ∀ visit ∈ fitVisits child state.progress.column width, ∃ turn,
        Reaches (State.step width) ⟨[⟨indent, true, child⟩], state.progress⟩ turn ∧
        turn.Evaluates visit ∧ visit.column = endColumn turn.progress.output) ∧
    ∀ indent flat child rest, state.pending = ⟨indent, flat, .group child⟩ :: rest →
      flat = true ∨ fits child state.progress.column width = true →
      (∃ done, Reaches (State.step width) state done ∧ done.pending = rest) ∧
      ∀ done, Reaches (State.step width) state done → done.pending = rest →
        (∃ line : String, done.progress.output = state.progress.output ++ line ∧
          '\n' ∉ line.toList) ∧
        endColumn done.progress.output ≤ width := by
  have hexact := exact_of_reaches (exact_start hplain hindented) h
  refine ⟨hexact.progress, ?_, ?_, ?_⟩
  · intro indent flat build reports rest htop
    obtain ⟨pending, progress⟩ := state
    obtain rfl : pending = ⟨indent, flat, .column build reports⟩ :: rest := htop
    have hcolumn : progress.column = endColumn progress.output := hexact.progress
    rw [← hcolumn]
    rfl
  · intro indent child rest htop visit hvisit
    obtain ⟨turn, hturn, hevaluates⟩ := exists_evaluates_of_mem_fitVisits hvisit
    have hgroup : Frame.Regular ⟨indent, false, .group child⟩ :=
      hexact.pending _ (htop ▸ List.mem_cons_self)
    have htrial : State.Exact ⟨[⟨indent, true, child⟩], state.progress⟩ :=
      ⟨hexact.progress, by simpa using ⟨hgroup.plain, hgroup.indented⟩⟩
    refine ⟨turn, hturn, hevaluates, ?_⟩
    obtain ⟨_, _, _, _, _, -, rfl⟩ := hevaluates
    exact (exact_of_reaches htrial hturn).progress
  · intro indent flat child rest htop hflat
    have hgroup : Frame.Regular ⟨indent, flat, .group child⟩ :=
      hexact.pending _ (htop ▸ List.mem_cons_self)
    obtain ⟨after, line, hreaches, houtput, hline, hcolumn⟩ :=
      exists_reaches_group_onOneLine h htop hgroup.plain hflat
    refine ⟨⟨_, hreaches, rfl⟩, ?_⟩
    intro done hdone hpending
    obtain rfl := State.eq_of_reaches_of_pending_eq hdone hreaches hpending
    have hcount := (exact_of_reaches hexact hdone).progress
    exact ⟨⟨line, houtput, hline⟩, hcount ▸ hcolumn⟩

/-- Two texts with a break between them, the second built from the column at which it starts. -/
def measuredPair : Doc :=
  .concat [.text "c", .brk 1,
    .column (fun reached => .text (if reached = 4 then "d" else "?")) fun _ => []]

/-- The pair as a group on an indented line. -/
def indentedPair : Doc :=
  .nest 2 (.concat [.text "ab", .hardline, .group measuredPair])

/-- The state in which the group is next. -/
def beforePair : State :=
  ⟨[⟨2, false, .group measuredPair⟩], (Progress.start.write "ab" "ab".length).newline 2⟩

/-- The group starts in the third column of its line and takes up all five. -/
theorem keeps_real_column_indentedPair :
    (indentedPair.Plain ∧ indentedPair.Indented 0 ∧
      Reaches (State.step 5) (.start indentedPair) beforePair ∧ fits measuredPair 2 5 = true) ∧
    endColumn beforePair.progress.output = 2 ∧
    (beforePair.run 5).progress.output = "ab\n  c d" ∧ endColumn "ab\n  c d" ≤ 5 := by
  have hplain : indentedPair.Plain := by
    simp only [indentedPair, measuredPair, Doc.Plain, PlainAll]
    refine ⟨by decide, trivial, ⟨by decide, by decide, ?_, trivial⟩, trivial⟩
    intro column
    split <;> decide
  have hindented : indentedPair.Indented 0 := by
    simp [indentedPair, measuredPair, Doc.Indented, IndentedAll]
  have hreaches : Reaches (State.step 5) (.start indentedPair) beforePair :=
    .head rfl (.head rfl (.head rfl (.head rfl .refl)))
  have hfits : fits measuredPair 2 5 = true := by
    rw [fits_eq_fitsFlat]
    decide +kernel
  have houtput : (beforePair.run 5).progress.output = "ab\n  c d" := by
    rw [beforePair, State.run_cons, State.run_nil]
    simp only [measuredPair, Doc.lay, layAll, Progress.decide, fits_eq_fitsFlat]
    decide +kernel
  have hdone : (beforePair.run 5).pending = [] := by
    rw [beforePair, State.run_cons, State.run_nil]
  obtain ⟨hcount, -, -, hgroups⟩ := keeps_real_column hplain hindented 5 hreaches
  have hcolumn : (2 : Int) = endColumn beforePair.progress.output := hcount
  have hwidth := ((hgroups 2 false measuredPair [] rfl (.inr hfits)).2 _
    (State.reaches_run 5 beforePair) hdone).2
  rw [houtput] at hwidth
  exact ⟨⟨hplain, hindented, hreaches, hfits⟩, by omega, houtput, by omega⟩

end ResourceLiterals.Layout
