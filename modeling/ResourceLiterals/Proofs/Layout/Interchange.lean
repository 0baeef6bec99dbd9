import ResourceLiterals.Proofs.Layout.FitCheck
import ResourceLiterals.Proofs.Layout.Loops

/-!
# Documents that can stand for one another

Many documents come to the same text, at every width and wherever they stand.  Whether they do
cannot be seen from their own text alone: a document around them may measure them, indent them or
build them from the column that it has reached.

* `Context` is a document with holes, and `Interchangeable` says that two documents make no
  difference in any of them.
* `SameLayout` is a condition on the two documents alone: the fit check gets past both in the same
  way, and both write the same.  `SameLayout.fill` carries it through every kind of node, so that it
  is enough for `Interchangeable`.
* The laws of the combinators come last, one lemma each; `combinators_interchangeable` sums up.
-/

namespace ResourceLiterals.Layout

open Log (Record)

/-! ## Documents with holes -/

/-- A document with holes in any number of places, also in what its `column` nodes build. -/
inductive Context where
  | hole
  /-- A part without holes. -/
  | closed (doc : Doc)
  | concat (parts : List Context)
  /-- The parts are put together once the holes are filled, which may flatten what is in them. -/
  | join (parts : List Context)
  | ifFlat (whenFlat whenBroken : Context)
  | group (child : Context)
  | nest (amount : Int) (child : Context)
  | column (build : Int → Context) (reports : Int → List Record)

namespace Context

mutual

/-- The document with `filling` in all holes. -/
def fill (filling : Doc) : Context → Doc
  | .hole => filling
  | .closed doc => doc
  | .concat parts => .concat (fillAll filling parts)
  | .join parts => .join (fillAll filling parts)
  | .ifFlat whenFlat whenBroken => .ifFlat (whenFlat.fill filling) (whenBroken.fill filling)
  | .group child => .group (child.fill filling)
  | .nest amount child => .nest amount (child.fill filling)
  | .column build reports => .column (fun reached => (build reached).fill filling) reports
termination_by structural context => context

def fillAll (filling : Doc) : List Context → List Doc
  | [] => []
  | part :: parts => part.fill filling :: fillAll filling parts
termination_by structural parts => parts

end

end Context

/-- Whichever of the two documents is in the holes of a document, its text is the same. -/
def Interchangeable (first second : Doc) : Prop :=
  ∀ (context : Context) (width : Int),
    render (context.fill first) width = render (context.fill second) width

/-! ## The same layout -/

/-- The two documents are the same to the fit check, whatever comes after them, and they write the
same. -/
structure SameLayout (first second : Doc) : Prop where
  fits : ∀ width docs room,
    fitsWithin width (first :: docs) room = fitsWithin width (second :: docs) room
  written : ∀ width indent flat column,
    first.written width indent flat column = second.written width indent flat column

section Lists

variable {firsts seconds : List Doc}

theorem fitsWithin_append_congr (h : List.Forall₂ SameLayout firsts seconds) (width : Int)
    (docs : List Doc) (room : Int) :
    fitsWithin width (firsts ++ docs) room = fitsWithin width (seconds ++ docs) room := by
  induction h generalizing room with
  | nil => rfl
  | @cons first second firsts seconds hhead _ ih =>
    rw [List.cons_append, List.cons_append, hhead.fits]
    exact fitsWithin_cons_congr ih second

theorem writtenAll_congr (h : List.Forall₂ SameLayout firsts seconds)
    (width indent : Int) (flat : Bool) (column : Int) :
    writtenAll width firsts indent flat column = writtenAll width seconds indent flat column := by
  induction h generalizing column with
  | nil => rfl
  | cons hhead _ ih => rw [writtenAll_cons, writtenAll_cons, hhead.written, funext ih]

end Lists

namespace SameLayout

variable {first second third : Doc}

theorem refl (doc : Doc) : SameLayout doc doc := ⟨fun _ _ _ => rfl, fun _ _ _ _ => rfl⟩

theorem symm (h : SameLayout first second) : SameLayout second first :=
  ⟨fun width docs room => (h.fits width docs room).symm,
    fun width indent flat column => (h.written width indent flat column).symm⟩

theorem trans (h : SameLayout first second) (h' : SameLayout second third) :
    SameLayout first third :=
  ⟨fun width docs room => (h.fits width docs room).trans (h'.fits width docs room),
    fun width indent flat column =>
      (h.written width indent flat column).trans (h'.written width indent flat column)⟩

/-! ### One node around them -/

theorem concat {firsts seconds : List Doc} (h : List.Forall₂ SameLayout firsts seconds) :
    SameLayout (.concat firsts) (.concat seconds) where
  fits width docs room := by
    rw [fitsWithin_concat, fitsWithin_concat]
    exact fitsWithin_append_congr h width docs room
  written := writtenAll_congr h

theorem ifFlat {first' second' : Doc} (h : SameLayout first second)
    (h' : SameLayout first' second') :
    SameLayout (.ifFlat first first') (.ifFlat second second') where
  fits width docs room := by
    rw [fitsWithin_ifFlat, fitsWithin_ifFlat]
    exact h.fits width docs room
  written width indent flat column := by
    rw [written_ifFlat, written_ifFlat, h.written, h'.written]

theorem nest (h : SameLayout first second) (amount : Int) :
    SameLayout (.nest amount first) (.nest amount second) where
  fits width docs room := by
    rw [fitsWithin_nest, fitsWithin_nest]
    exact h.fits width docs room
  written width indent := h.written width (indent + amount)

/-- The decision about a group is the same, since the fit check is. -/
theorem group (h : SameLayout first second) : SameLayout (.group first) (.group second) where
  fits width docs room := by
    rw [fitsWithin_group, fitsWithin_group]
    exact h.fits width docs room
  written width indent flat column := by
    have hfits : Layout.fits first column width = Layout.fits second column width :=
      h.fits width [] (width - column)
    rw [written_group, written_group, hfits, h.written]

theorem column {build build' : Int → Doc}
    (h : ∀ reached, SameLayout (build reached) (build' reached))
    (reports reports' : Int → List Record) :
    SameLayout (.column build reports) (.column build' reports') where
  fits width docs room := by
    rw [fitsWithin_column, fitsWithin_column]
    exact (h (width - room)).fits width docs room
  written width indent flat column := (h column).written width indent flat column

/-- A concatenation node is laid out as the concatenation of its parts, in which nodes are flattened
and empty texts are left out. -/
theorem concat_join (parts : List Doc) : SameLayout (.concat parts) (.join parts) where
  fits width docs room := by rw [fitsWithin_concat, fitsWithin_join]
  written width indent flat column := (written_join width indent flat column parts).symm

theorem join {firsts seconds : List Doc} (h : List.Forall₂ SameLayout firsts seconds) :
    SameLayout (.join firsts) (.join seconds) :=
  (concat_join firsts).symm.trans ((concat h).trans (concat_join seconds))

mutual

/-- What is the same in the holes is the same as a whole. -/
theorem fill (h : SameLayout first second) :
    (context : Context) → SameLayout (context.fill first) (context.fill second)
  | .hole => h
  | .closed doc => refl doc
  | .concat parts => concat (fillAll h parts)
  | .join parts => join (fillAll h parts)
  | .ifFlat whenFlat whenBroken => ifFlat (fill h whenFlat) (fill h whenBroken)
  | .group child => group (fill h child)
  | .nest amount child => nest (fill h child) amount
  | .column build reports => column (fun reached => fill h (build reached)) reports reports
termination_by structural context => context

theorem fillAll (h : SameLayout first second) : (parts : List Context) →
    List.Forall₂ SameLayout (Context.fillAll first parts) (Context.fillAll second parts)
  | [] => .nil
  | part :: parts => .cons (fill h part) (fillAll h parts)
termination_by structural parts => parts

end

theorem interchangeable (h : SameLayout first second) : Interchangeable first second := by
  intro context width
  rw [render_eq_ofList_written, render_eq_ofList_written, (h.fill context).written]

/-! ## Laws of the combinators -/

theorem nest_nest (outer inner : Int) (doc : Doc) :
    SameLayout (.nest outer (.nest inner doc)) (.nest (outer + inner) doc) where
  fits width docs room := by simp only [fitsWithin_nest]
  written width indent flat column := by simp only [written_nest, Int.add_assoc]

theorem nest_zero (doc : Doc) : SameLayout (.nest 0 doc) doc where
  fits _ _ _ := fitsWithin_nest 0 doc
  written width indent flat column := by rw [written_nest, Int.add_zero]

theorem nest_text (amount : Int) (content : String) :
    SameLayout (.nest amount (.text content)) (.text content) where
  fits _ _ _ := fitsWithin_nest amount _
  written _ _ _ _ := rfl

theorem nest_concat (amount : Int) (parts : List Doc) :
    SameLayout (.nest amount (.concat parts)) (.concat (parts.map (.nest amount))) where
  fits width docs room := by
    rw [fitsWithin_nest, fitsWithin_concat, fitsWithin_concat]
    induction parts generalizing room with
    | nil => rfl
    | cons part parts ih =>
      rw [List.map_cons, List.cons_append, List.cons_append, fitsWithin_nest]
      exact fitsWithin_cons_congr ih part
  written width indent flat column := by
    show writtenAll width parts (indent + amount) flat column =
      writtenAll width (parts.map (.nest amount)) indent flat column
    induction parts generalizing column with
    | nil => rfl
    | cons part parts ih =>
      rw [List.map_cons, writtenAll_cons, writtenAll_cons, written_nest, funext ih]

theorem nest_join (amount : Int) (docs : List Doc) :
    SameLayout (.nest amount (.join docs)) (.join (docs.map (.nest amount))) :=
  (nest (concat_join docs).symm amount).trans ((nest_concat amount docs).trans (concat_join _))

theorem nest_ifFlat (amount : Int) (whenFlat whenBroken : Doc) :
    SameLayout (.nest amount (.ifFlat whenFlat whenBroken))
      (.ifFlat (.nest amount whenFlat) (.nest amount whenBroken)) where
  fits width docs room := by simp only [fitsWithin_nest, fitsWithin_ifFlat]
  written _ _ _ _ := rfl

theorem nest_group (amount : Int) (doc : Doc) :
    SameLayout (.nest amount (.group doc)) (.group (.nest amount doc)) where
  fits width docs room := by simp only [fitsWithin_nest, fitsWithin_group]
  written width indent flat column := by
    have hfits : Layout.fits (.nest amount doc) column width = Layout.fits doc column width :=
      fitsWithin_nest amount doc
    rw [written_nest, written_group, written_group, hfits, written_nest]

theorem nest_column (amount : Int) (build : Int → Doc) (reports : Int → List Record) :
    SameLayout (.nest amount (.column build reports))
      (.column (fun reached => .nest amount (build reached)) reports) where
  fits width docs room := by simp only [fitsWithin_nest, fitsWithin_column]
  written _ _ _ _ := rfl

theorem group_group (doc : Doc) : SameLayout (.group (.group doc)) (.group doc) where
  fits _ _ _ := fitsWithin_group _
  written width indent flat column := by
    have hfits : Layout.fits (.group doc) column width = Layout.fits doc column width :=
      fitsWithin_group doc
    rw [written_group, written_group, hfits, written_group, Bool.or_assoc, Bool.or_self]

/-- A group around a `column` node is decided at the column at which the node is evaluated. -/
theorem group_column (build : Int → Doc) (reports : Int → List Record) :
    SameLayout (.group (.column build reports))
      (.column (fun reached => .group (build reached)) reports) where
  fits width docs room := by simp only [fitsWithin_group, fitsWithin_column]
  written width indent flat column := by
    have hcolumn : width - (width - column) = column := by omega
    have hfits : Layout.fits (.column build reports) column width =
        Layout.fits (build column) column width := by
      rw [Layout.fits, fitsWithin_column, hcolumn, Layout.fits]
    rw [written_group, hfits, written_column, written_column, written_group]

end SameLayout

/-- The combinators may be normalised anywhere in a document without a change to its text, at any
width: concatenations are flattened, indentations are added up and moved to the inside, a group in a
group is as good as one, and a group may be put around what a `column` node builds instead of around
the node. -/
theorem combinators_interchangeable :
    (∀ parts, Interchangeable (.concat parts) (.join parts)) ∧
    (∀ outer inner doc,
      Interchangeable (.nest outer (.nest inner doc)) (.nest (outer + inner) doc)) ∧
    (∀ doc, Interchangeable (.nest 0 doc) doc) ∧
    (∀ amount docs, Interchangeable (.nest amount (.join docs)) (.join (docs.map (.nest amount)))) ∧
    (∀ amount whenFlat whenBroken,
      Interchangeable (.nest amount (.ifFlat whenFlat whenBroken))
        (.ifFlat (.nest amount whenFlat) (.nest amount whenBroken))) ∧
    (∀ amount doc, Interchangeable (.nest amount (.group doc)) (.group (.nest amount doc))) ∧
    (∀ amount build reports,
      Interchangeable (.nest amount (.column build reports))
        (.column (fun reached => .nest amount (build reached)) reports)) ∧
    (∀ amount content, Interchangeable (.nest amount (.text content)) (.text content)) ∧
    (∀ doc, Interchangeable (.group (.group doc)) (.group doc)) ∧
    ∀ build reports,
      Interchangeable (.group (.column build reports))
        (.column (fun reached => .group (build reached)) reports) := by
  refine ⟨fun parts => ?flatten, fun outer inner doc => ?add, fun doc => ?none,
    fun amount docs => ?join, fun amount whenFlat whenBroken => ?ifFlat, fun amount doc => ?group,
    fun amount build reports => ?column, fun amount content => ?text, fun doc => ?twice,
    fun build reports => ?inside⟩
  case flatten => exact (SameLayout.concat_join parts).interchangeable
  case add => exact (SameLayout.nest_nest outer inner doc).interchangeable
  case none => exact (SameLayout.nest_zero doc).interchangeable
  case join => exact (SameLayout.nest_join amount docs).interchangeable
  case ifFlat => exact (SameLayout.nest_ifFlat amount whenFlat whenBroken).interchangeable
  case group => exact (SameLayout.nest_group amount doc).interchangeable
  case column => exact (SameLayout.nest_column amount build reports).interchangeable
  case text => exact (SameLayout.nest_text amount content).interchangeable
  case twice => exact (SameLayout.group_group doc).interchangeable
  case inside => exact (SameLayout.group_column build reports).interchangeable

end ResourceLiterals.Layout
