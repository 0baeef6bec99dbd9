import ResourceLiterals.Layout.Doc

/-!
# What is still to be laid out

The fit check and the renderer both work through a list of pending documents: they take the first
one and either finish it or open it, which puts its content in its place.  A document may open into
arbitrarily many others, and a `column` node into one that is not even known beforehand, so no
number bounds the work.  It ends all the same, because what comes out of a document is always one of
its parts.

* `Opens` relates a list of pending documents to what remains after one such step.
* `opens_wellFounded` says that no list can be worked on for ever.
-/

namespace ResourceLiterals.Layout

/-- `Opens after before`: `after` is pending once the first document of `before` is finished or
replaced by its content. -/
inductive Opens : List Doc → List Doc → Prop where
  | finish (doc rest) : Opens rest (doc :: rest)
  | concat (parts rest) : Opens (parts ++ rest) (.concat parts :: rest)
  | flat (flat broken rest) : Opens (flat :: rest) (.ifFlat flat broken :: rest)
  | broken (flat broken rest) : Opens (broken :: rest) (.ifFlat flat broken :: rest)
  | group (child rest) : Opens (child :: rest) (.group child :: rest)
  | nest (amount child rest) : Opens (child :: rest) (.nest amount child :: rest)
  | column (build reports at_ rest) : Opens (build at_ :: rest) (.column build reports :: rest)

mutual

private theorem acc_cons : (doc : Doc) → {rest : List Doc} → Acc Opens rest →
    Acc Opens (doc :: rest)
  | .text _, _, h => ⟨_, fun _ step => by cases step; exact h⟩
  | .hardline, _, h => ⟨_, fun _ step => by cases step; exact h⟩
  | .brk _, _, h => ⟨_, fun _ step => by cases step; exact h⟩
  | .concat parts, _, h => ⟨_, fun _ step => by
      cases step with
      | finish => exact h
      | concat => exact acc_append parts h⟩
  | .ifFlat flat broken, _, h => ⟨_, fun _ step => by
      cases step with
      | finish => exact h
      | flat => exact acc_cons flat h
      | broken => exact acc_cons broken h⟩
  | .group child, _, h => ⟨_, fun _ step => by
      cases step with
      | finish => exact h
      | group => exact acc_cons child h⟩
  | .nest _ child, _, h => ⟨_, fun _ step => by
      cases step with
      | finish => exact h
      | nest => exact acc_cons child h⟩
  | .column build _, _, h => ⟨_, fun _ step => by
      cases step with
      | finish => exact h
      | column _ _ at_ => exact acc_cons (build at_) h⟩

private theorem acc_append : (docs : List Doc) → {rest : List Doc} → Acc Opens rest →
    Acc Opens (docs ++ rest)
  | [], _, h => h
  | doc :: docs, _, h => acc_cons doc (acc_append docs h)

end

/-- Working through pending documents comes to an end. -/
theorem opens_wellFounded : WellFounded Opens := by
  refine ⟨fun docs => ?_⟩
  have done : Acc Opens [] := ⟨_, fun _ step => by cases step⟩
  simpa using acc_append docs done

/-- Pending documents, first one first, ordered by how much work is left. -/
structure Agenda where
  docs : List Doc

instance : WellFoundedRelation Agenda where
  rel after before := Opens after.docs before.docs
  wf := InvImage.wf Agenda.docs opens_wellFounded

end ResourceLiterals.Layout
