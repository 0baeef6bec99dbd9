import ResourceLiterals.Proofs.Layout.OneLine

/-!
# Concatenations in normal form

Putting documents together flattens the concatenations among them and leaves out the empty texts,
but it looks only at the documents themselves and not into them.  For documents that are made with
the combinators that is enough: there is nothing left in them to be flattened.

* `Doc.Built` singles out these documents, and `Doc.Normal` is the form that all of their
  concatenation nodes have; `normal_of_built` is the induction.
* `pieces_ofPieces` and `ofPieces_pieces`: a document in normal form and the list of its pieces
  determine one another.
* `join_map_join` says that documents may be put together in groups, from which the laws of
  `join_monoid_of_built` come.
-/

namespace ResourceLiterals.Layout

namespace Doc

/-! ## Documents from the combinators -/

/-- The document is made with the combinators, and so is whatever its `column` nodes build. -/
inductive Built : Doc → Prop where
  | text (content : String) : Built (.text content)
  | hardline : Built .hardline
  | brk (width : Int) : Built (.brk width)
  | ifFlat {whenFlat whenBroken : Doc} (hflat : Built whenFlat) (hbroken : Built whenBroken) :
    Built (.ifFlat whenFlat whenBroken)
  | group {child : Doc} (h : Built child) : Built (.group child)
  | nest {child : Doc} (amount : Int) (h : Built child) : Built (.nest amount child)
  | column {build : Int → Doc} (reports : Int → List Log.Record)
    (h : ∀ reached, Built (build reached)) : Built (.column build reports)
  | join {docs : List Doc} (h : ∀ doc ∈ docs, Built doc) : Built (join docs)
  | append {first second : Doc} (hfirst : Built first) (hsecond : Built second) :
    Built (first ++ second)
  | separate {separator : Doc} {docs : List Doc} (hseparator : Built separator)
    (h : ∀ doc ∈ docs, Built doc) : Built (separate separator docs)
  | separateMap {separator : Doc} {α : Type} {layout : α → Doc} {items : List α}
    (hseparator : Built separator) (h : ∀ item ∈ items, Built (layout item)) :
    Built (separateMap separator layout items)

/-! ## Normal form -/

/-- The node is the document itself or stands somewhere in it. -/
inductive Occurs (node : Doc) : Doc → Prop where
  | here : Occurs node node
  | concat {part : Doc} {parts : List Doc} (hpart : part ∈ parts) (h : Occurs node part) :
    Occurs node (.concat parts)
  | whenFlat {whenFlat : Doc} (whenBroken : Doc) (h : Occurs node whenFlat) :
    Occurs node (.ifFlat whenFlat whenBroken)
  | whenBroken {whenBroken : Doc} (whenFlat : Doc) (h : Occurs node whenBroken) :
    Occurs node (.ifFlat whenFlat whenBroken)
  | group {child : Doc} (h : Occurs node child) : Occurs node (.group child)
  | nest {child : Doc} (amount : Int) (h : Occurs node child) : Occurs node (.nest amount child)
  | column {build : Int → Doc} (reports : Int → List Log.Record) (reached : Int)
    (h : Occurs node (build reached)) : Occurs node (.column build reports)

theorem Occurs.trans {node inner outer : Doc} (h : Occurs node inner) (h' : Occurs inner outer) :
    Occurs node outer := by
  induction h' with
  | here => exact h
  | concat hpart _ ih => exact .concat hpart ih
  | whenFlat whenBroken _ ih => exact .whenFlat whenBroken ih
  | whenBroken whenFlat _ ih => exact .whenBroken whenFlat ih
  | group _ ih => exact .group ih
  | nest amount _ ih => exact .nest amount ih
  | column reports reached _ ih => exact .column reports reached ih

/-- The document is neither a concatenation nor the empty text. -/
structure IsPiece (doc : Doc) : Prop where
  ne_concat : ∀ parts, doc ≠ .concat parts
  ne_empty : doc ≠ .empty

/-- All concatenation nodes in the document have two or more parts, and these are pieces. -/
def Normal (doc : Doc) : Prop :=
  ∀ parts, Occurs (.concat parts) doc → 2 ≤ parts.length ∧ ∀ part ∈ parts, part.IsPiece

theorem Normal.of_occurs {node doc : Doc} (h : doc.Normal) (hoccurs : Occurs node doc) :
    node.Normal :=
  fun parts hparts => h parts (hparts.trans hoccurs)

theorem normal_empty : empty.Normal := by
  intro parts hparts
  cases hparts

/-! ## Pieces -/

theorem pieces_of_isPiece {doc : Doc} (h : doc.IsPiece) : doc.pieces = [doc] := by
  cases doc with
  | text content =>
    have hcontent : content ≠ "" := by
      rintro rfl
      exact h.ne_empty rfl
    rw [pieces, if_neg hcontent]
  | concat parts => exact absurd rfl (h.ne_concat parts)
  | _ => rfl

theorem occurs_of_mem_pieces {piece doc : Doc} (h : piece ∈ doc.pieces) : Occurs piece doc := by
  cases doc with
  | text content =>
    rw [pieces] at h
    split at h
    · simp at h
    · obtain rfl := List.mem_singleton.mp h
      exact .here
  | concat parts => exact .concat h .here
  | _ =>
    obtain rfl := List.mem_singleton.mp h
    exact .here

theorem Normal.isPiece_of_mem_pieces {piece doc : Doc} (h : doc.Normal)
    (hpiece : piece ∈ doc.pieces) : piece.IsPiece := by
  cases doc with
  | text content =>
    rw [pieces] at hpiece
    split at hpiece
    · simp at hpiece
    · rename_i hcontent
      obtain rfl := List.mem_singleton.mp hpiece
      exact ⟨by simp, by simpa [empty] using hcontent⟩
  | concat parts => exact (h parts .here).2 piece hpiece
  | _ =>
    obtain rfl := List.mem_singleton.mp hpiece
    exact ⟨by simp, by simp [empty]⟩

/-- From pieces the node can be told, whether there is one or not. -/
theorem pieces_ofPieces {docs : List Doc} (h : ∀ doc ∈ docs, doc.IsPiece) :
    (ofPieces docs).pieces = docs := by
  match docs with
  | [] => rfl
  | [doc] => exact pieces_of_isPiece (h doc List.mem_cons_self)
  | _ :: _ :: _ => rfl

theorem Normal.ofPieces_pieces {doc : Doc} (h : doc.Normal) : ofPieces doc.pieces = doc := by
  cases doc with
  | text content =>
    rw [pieces]
    split
    · rename_i hcontent
      rw [hcontent]
      rfl
    · rfl
  | concat parts =>
    have hlength := (h parts .here).1
    rcases parts with _ | ⟨first, _ | ⟨second, rest⟩⟩
    · simp at hlength
    · simp at hlength
    · rfl
  | _ => rfl

theorem normal_ofPieces {docs : List Doc} (h : ∀ doc ∈ docs, doc.Normal)
    (hpieces : ∀ doc ∈ docs, doc.IsPiece) : (ofPieces docs).Normal := by
  match docs with
  | [] => exact normal_empty
  | [doc] => exact h doc List.mem_cons_self
  | first :: second :: rest =>
    intro parts hparts
    cases hparts with
    | here => exact ⟨by simp, hpieces⟩
    | concat hpart hoccurs => exact h _ hpart parts hoccurs

/-! ## Joining -/

section Join

variable {doc separator : Doc} {docs : List Doc}

theorem isPiece_of_mem_flatMap (h : ∀ doc ∈ docs, doc.Normal) {piece : Doc}
    (hpiece : piece ∈ docs.flatMap pieces) : piece.IsPiece := by
  obtain ⟨doc, hdoc, hmem⟩ := List.mem_flatMap.mp hpiece
  exact (h doc hdoc).isPiece_of_mem_pieces hmem

theorem pieces_join (h : ∀ doc ∈ docs, doc.Normal) : (join docs).pieces = docs.flatMap pieces :=
  pieces_ofPieces fun _ => isPiece_of_mem_flatMap h

theorem normal_join (h : ∀ doc ∈ docs, doc.Normal) : (join docs).Normal := by
  refine normal_ofPieces (fun piece hpiece => ?_) fun _ => isPiece_of_mem_flatMap h
  obtain ⟨doc, hdoc, hmem⟩ := List.mem_flatMap.mp hpiece
  exact (h doc hdoc).of_occurs (occurs_of_mem_pieces hmem)

theorem normal_of_mem_intersperse (hseparator : separator.Normal) (h : ∀ doc ∈ docs, doc.Normal) :
    ∀ doc ∈ docs.intersperse separator, doc.Normal := by
  intro doc hdoc
  rcases mem_or_eq_of_mem_intersperse hdoc with hmem | rfl
  · exact h doc hmem
  · exact hseparator

theorem normal_separate (hseparator : separator.Normal) (h : ∀ doc ∈ docs, doc.Normal) :
    (separate separator docs).Normal :=
  normal_join (normal_of_mem_intersperse hseparator h)

theorem Normal.join_singleton (h : doc.Normal) : join [doc] = doc := by
  rw [join, List.flatMap_singleton, h.ofPieces_pieces]

/-- Documents that are put together in groups first come to the same. -/
theorem join_map_join (groups : List (List Doc)) (h : ∀ doc ∈ groups.flatten, doc.Normal) :
    join (groups.map join) = join groups.flatten := by
  have hpieces : (groups.map join).flatMap pieces = groups.flatten.flatMap pieces := by
    induction groups with
    | nil => rfl
    | cons docs groups ih =>
      rw [List.flatten_cons] at h
      obtain ⟨hdocs, hgroups⟩ := List.forall_mem_append.mp h
      rw [List.map_cons, List.flatMap_cons, pieces_join hdocs, ih hgroups, List.flatten_cons,
        List.flatMap_append]
  rw [join, hpieces, join]

theorem intersperse_append {α : Type} (separator : α) {firsts seconds : List α}
    (hfirsts : firsts ≠ []) (hseconds : seconds ≠ []) :
    (firsts ++ seconds).intersperse separator =
      firsts.intersperse separator ++ separator :: seconds.intersperse separator := by
  obtain ⟨second, rest, rfl⟩ := List.exists_cons_of_ne_nil hseconds
  induction firsts with
  | nil => exact absurd rfl hfirsts
  | cons first firsts ih =>
    cases firsts with
    | nil => rfl
    | cons next firsts =>
      rw [List.cons_append, List.cons_append, List.intersperse_cons_cons, ← List.cons_append,
        ih (List.cons_ne_nil next firsts), List.intersperse_cons_cons]
      rfl

end Join

theorem normal_of_built {doc : Doc} (h : doc.Built) : doc.Normal := by
  induction h with
  | text content =>
    intro parts hparts
    cases hparts
  | hardline =>
    intro parts hparts
    cases hparts
  | brk width =>
    intro parts hparts
    cases hparts
  | ifFlat _ _ ihflat ihbroken =>
    intro parts hparts
    cases hparts with
    | whenFlat _ hoccurs => exact ihflat parts hoccurs
    | whenBroken _ hoccurs => exact ihbroken parts hoccurs
  | group _ ih =>
    intro parts hparts
    cases hparts with
    | group hoccurs => exact ih parts hoccurs
  | nest amount _ ih =>
    intro parts hparts
    cases hparts with
    | nest _ hoccurs => exact ih parts hoccurs
  | column reports _ ih =>
    intro parts hparts
    cases hparts with
    | column _ reached hoccurs => exact ih reached parts hoccurs
  | join _ ih => exact normal_join ih
  | append _ _ ihfirst ihsecond => exact normal_join (by simp [ihfirst, ihsecond])
  | separate _ _ ihseparator ih => exact normal_separate ihseparator ih
  | separateMap _ _ ihseparator ih => exact normal_separate ihseparator (List.forall_mem_map.mpr ih)

/-- In documents that are made with the combinators all concatenations are in normal form.  Putting
such documents together is associative, with the empty text as the neutral element, and documents
with a separator between them may be cut at any of the separators. -/
theorem join_monoid_of_built :
    (∀ doc : Doc, doc.Built → doc.Normal) ∧
    (∀ first second third : Doc, first.Built → second.Built → third.Built →
      join [join [first, second], third] = join [first, second, third] ∧
      join [first, join [second, third]] = join [first, second, third]) ∧
    (∀ doc : Doc, doc.Built → join [empty, doc] = doc ∧ join [doc, empty] = doc) ∧
    ∀ (separator : Doc) (firsts seconds : List Doc), separator.Built →
      (∀ doc ∈ firsts, doc.Built) → (∀ doc ∈ seconds, doc.Built) → firsts ≠ [] → seconds ≠ [] →
      separate separator (firsts ++ seconds) =
        join [separate separator firsts, separator, separate separator seconds] := by
  refine ⟨fun doc => normal_of_built, fun first second third hfirst hsecond hthird => ?assoc,
    fun doc hdoc => ?neutral,
    fun separator firsts seconds hseparator hfirsts hseconds hne hne' => ?separators⟩
  case assoc =>
    have hnormal : ∀ doc ∈ [first, second, third], doc.Normal := by
      simp [normal_of_built, hfirst, hsecond, hthird]
    have hleft : join [join [first, second], join [third]] = join [first, second, third] :=
      join_map_join [[first, second], [third]] hnormal
    have hright : join [join [first], join [second, third]] = join [first, second, third] :=
      join_map_join [[first], [second, third]] hnormal
    rw [(normal_of_built hthird).join_singleton] at hleft
    rw [(normal_of_built hfirst).join_singleton] at hright
    exact ⟨hleft, hright⟩
  case neutral =>
    have hnormal : ∀ one ∈ [doc], one.Normal := by simpa using normal_of_built hdoc
    have hleft : join [empty, join [doc]] = join [doc] := join_map_join [[], [doc]] hnormal
    have hright : join [join [doc], empty] = join [doc] := join_map_join [[doc], []] hnormal
    rw [(normal_of_built hdoc).join_singleton] at hleft hright
    exact ⟨hleft, hright⟩
  case separators =>
    have hnormal : separator.Normal := normal_of_built hseparator
    have hdocs : ∀ doc ∈ firsts ++ seconds, doc.Normal := fun doc hdoc =>
      normal_of_built ((List.mem_append.mp hdoc).elim (hfirsts doc) (hseconds doc))
    have hcut : [firsts.intersperse separator, [separator],
        seconds.intersperse separator].flatten = (firsts ++ seconds).intersperse separator := by
      simp [intersperse_append separator hne hne']
    have hjoined : join [separate separator firsts, join [separator], separate separator seconds] =
        separate separator (firsts ++ seconds) :=
      (join_map_join _ (hcut ▸ normal_of_mem_intersperse hnormal hdocs)).trans (congrArg join hcut)
    rw [hnormal.join_singleton] at hjoined
    exact hjoined.symm

/-- A separator that is a concatenation itself. -/
def commaBreak : Doc := .text "," ++ .brk 1

theorem built_commaBreak : commaBreak.Built := .append (.text ",") (.brk 1)

/-- A list with an empty text in it, cut at its first separator. -/
theorem join_monoid_of_built_commas :
    (commaBreak.Built ∧ (∀ doc ∈ [text "a"], doc.Built) ∧ ∀ doc ∈ [empty, text "b"], doc.Built) ∧
    commaBreak.Normal ∧
    join [join [commaBreak, text "a"], empty] = .concat [.text ",", .brk 1, .text "a"] ∧
    join [empty, commaBreak] = .concat [.text ",", .brk 1] ∧
    separate commaBreak [text "a", empty, text "b"] =
      join [separate commaBreak [text "a"], commaBreak, separate commaBreak [empty, text "b"]] := by
  obtain ⟨hnormal, hassoc, hneutral, hseparate⟩ := join_monoid_of_built
  have hfirsts : ∀ doc ∈ [text "a"], doc.Built := by simp [Built.text]
  have hseconds : ∀ doc ∈ [empty, text "b"], doc.Built := by simp [empty, Built.text]
  refine ⟨⟨built_commaBreak, hfirsts, hseconds⟩, hnormal commaBreak built_commaBreak, ?_, ?_, ?_⟩
  · exact (hassoc commaBreak (text "a") empty built_commaBreak (.text "a") (.text "")).1
  · exact (hneutral commaBreak built_commaBreak).1
  · exact hseparate commaBreak [text "a"] [empty, text "b"] built_commaBreak hfirsts hseconds
      (List.cons_ne_nil _ _) (List.cons_ne_nil _ _)

end Doc

end ResourceLiterals.Layout
