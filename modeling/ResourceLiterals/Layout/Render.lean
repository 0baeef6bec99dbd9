import ResourceLiterals.Layout.Fit

/-!
# The renderer

Resolving a document against a width.  The renderer keeps a stack of frames, each a document with
the indentation and the mode that hold for it, and a counter for the column that the output has
reached.  One `step` takes the topmost frame and either writes it or opens it.

* `Progress` is what has been done, `State` also what is left to do.
* `step` is one turn of the renderer.
* `run`: all turns until no frame is left.
* `render`: the text of a document; `renderReports`: what there is to report about it.

The document as a whole stands in no group and is laid out broken.
-/

namespace ResourceLiterals.Layout

open Log (Record)

/-- A document that waits to be laid out, with its indentation and its mode. -/
structure Frame where
  indent : Int
  flat : Bool
  doc : Doc

/-- What the renderer has done so far. -/
structure Progress where
  output : String
  column : Int
  /-- How many groups were decided to be flat or broken. -/
  decided : Nat
  /-- How many of them were broken. -/
  broken : Nat
  /-- The evaluations of `column` nodes, latest first. -/
  visits : List Visit

/-- So many blanks; none when the count is negative. -/
def blanks (count : Int) : String :=
  String.ofList (List.replicate count.toNat ' ')

namespace Progress

def start : Progress := ⟨"", 0, 0, 0, []⟩

/-- Writes `content` on the current line, which moves the column by `advance`. -/
def write (progress : Progress) (content : String) (advance : Int) : Progress :=
  { progress with output := progress.output ++ content, column := progress.column + advance }

/-- Starts a new line with `indent` blanks. -/
def newline (progress : Progress) (indent : Int) : Progress :=
  { progress with output := (progress.output ++ "\n") ++ blanks indent, column := indent }

/-- Takes down the decision about a group with content `child`. -/
def decide (width : Int) (progress : Progress) (child : Doc) : Progress :=
  { progress with
    decided := progress.decided + 1
    broken :=
      if fits child progress.column width then progress.broken else progress.broken + 1
    visits := (fitVisits child progress.column width).reverse ++ progress.visits }

/-- Takes down the evaluation of a `column` node. -/
def visit (progress : Progress) (reports : Int → List Record) : Progress :=
  { progress with visits := ⟨progress.column, reports progress.column⟩ :: progress.visits }

end Progress

/-- The renderer between two turns: what it has done, and the frames that are still to be laid out,
topmost first. -/
structure State where
  pending : List Frame
  progress : Progress

namespace State

/-- A state in which nothing but `doc` is to be laid out. -/
def start (doc : Doc) : State := ⟨[⟨0, false, doc⟩], .start⟩

/-- One turn: the topmost frame is written or opened.  There is none when no frame is left. -/
def step (width : Int) (state : State) : Option State :=
  match state.pending with
  | [] => none
  | ⟨indent, flat, doc⟩ :: rest =>
    let progress := state.progress
    match doc with
    | .text content => some ⟨rest, progress.write content content.length⟩
    | .concat parts => some ⟨parts.map (⟨indent, flat, ·⟩) ++ rest, progress⟩
    | .hardline => some ⟨rest, progress.newline indent⟩
    | .brk count =>
      some ⟨rest, if flat then progress.write (blanks count) count else progress.newline indent⟩
    | .ifFlat whenFlat whenBroken =>
      some ⟨⟨indent, flat, if flat then whenFlat else whenBroken⟩ :: rest, progress⟩
    | .nest amount child => some ⟨⟨indent + amount, flat, child⟩ :: rest, progress⟩
    | .group child =>
      if flat then
        some ⟨⟨indent, true, child⟩ :: rest, progress⟩
      else
        some ⟨⟨indent, fits child progress.column width, child⟩ :: rest,
          progress.decide width child⟩
    | .column build reports =>
      some ⟨⟨indent, flat, build progress.column⟩ :: rest, progress.visit reports⟩

/-- The documents that are still to be laid out. -/
def agenda (state : State) : Agenda where
  docs := state.pending.map Frame.doc

/-- A turn opens or finishes the topmost document. -/
theorem opens_of_step {width : Int} {state next : State} (h : state.step width = some next) :
    Opens next.agenda.docs state.agenda.docs := by
  unfold step at h
  split at h
  · simp at h
  · rename_i indent flat doc rest hpending
    simp only [agenda, hpending, List.map_cons]
    cases doc with
    | text content =>
      obtain rfl := Option.some.inj h
      exact .finish ..
    | concat parts =>
      obtain rfl := Option.some.inj h
      have opened : (parts.map (Frame.mk indent flat ·)).map Frame.doc = parts := by
        simp [Function.comp_def]
      simpa [opened] using Opens.concat parts (rest.map Frame.doc)
    | hardline =>
      obtain rfl := Option.some.inj h
      exact .finish ..
    | brk count =>
      obtain rfl := Option.some.inj h
      exact .finish ..
    | ifFlat whenFlat whenBroken =>
      obtain rfl := Option.some.inj h
      cases flat
      · exact .broken ..
      · exact .flat ..
    | nest amount child =>
      obtain rfl := Option.some.inj h
      exact .nest ..
    | group child =>
      cases flat <;> obtain rfl := Option.some.inj h <;> exact .group ..
    | column build reports =>
      obtain rfl := Option.some.inj h
      exact .column ..

/-- Takes turns until no frame is left. -/
def run (width : Int) (state : State) : State :=
  match _h : state.step width with
  | none => state
  | some next => run width next
termination_by state.agenda
decreasing_by exact opens_of_step _h

end State

/-- The text of `doc`, with groups broken that do not fit in `width`. -/
def render (doc : Doc) (width : Int) : String :=
  ((State.start doc).run width).progress.output

/-- What there is to report about rendering `doc`: what its `column` nodes reported, each time they
were evaluated, and a summary of the decisions. -/
def renderReports (doc : Doc) (width : Int) : List Record :=
  let done := ((State.start doc).run width).progress
  done.visits.reverse.flatMap Visit.reports ++
    [⟨.trace, s!"pretty: width={width}, {done.decided} group(s) decided, {done.broken} broken"⟩]

end ResourceLiterals.Layout
