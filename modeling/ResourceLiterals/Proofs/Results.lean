/-!
# Steps that may fail

A computation that gives a result has gone through all of its steps, and each of them has given one;
one that fails has failed in one of them.
-/

namespace ResourceLiterals

variable {α β ε : Type} {item : α} {items : List α} {results : List β} {f : α → Except ε β}

theorem exists_of_bind_eq_ok {x : Except ε α} {f : α → Except ε β} {b : β}
    (h : x >>= f = .ok b) : ∃ a, x = .ok a ∧ f a = .ok b := by
  cases x with
  | error error => exact nomatch h
  | ok a => exact ⟨a, rfl, h⟩

theorem exists_of_map_eq_ok {x : Except ε α} {g : α → β} {b : β} (h : x.map g = .ok b) :
    ∃ a, x = .ok a ∧ g a = b := by
  cases x with
  | error error => exact nomatch h
  | ok a => exact ⟨a, rfl, Except.ok.inj h⟩

theorem cases_of_bind_eq_error {x : Except ε α} {f : α → Except ε β} {e : ε}
    (h : x >>= f = .error e) : x = .error e ∨ ∃ a, x = .ok a ∧ f a = .error e := by
  cases x with
  | error error => exact .inl (congrArg Except.error (Except.error.inj h))
  | ok a => exact .inr ⟨a, rfl, h⟩

theorem eq_error_of_map_eq_error {x : Except ε α} {g : α → β} {e : ε} (h : x.map g = .error e) :
    x = .error e := by
  cases x with
  | error error => exact congrArg Except.error (Except.error.inj h)
  | ok a => exact nomatch h

theorem eq_ok_of_mapError_eq_ok {δ : Type} {x : Except ε α} {g : ε → δ} {a : α}
    (h : x.mapError g = .ok a) : x = .ok a := by
  cases x with
  | error error => exact nomatch h
  | ok a => exact congrArg Except.ok (Except.ok.inj h)

/-- What every step preserves holds in the end. -/
theorem foldlM_preserves {P : β → Prop} {step : β → α → Except ε β}
    (hstep : ∀ item ∈ items, ∀ state next, P state → step state item = .ok next → P next)
    {state result : β} (hstate : P state) (h : items.foldlM step state = .ok result) :
    P result := by
  induction items generalizing state with
  | nil =>
    obtain rfl := Except.ok.inj h
    exact hstate
  | cons item rest ih =>
    rw [List.foldlM_cons] at h
    obtain ⟨next, hnext, hrest⟩ := exists_of_bind_eq_ok h
    refine ih (fun other hother => hstep other (List.mem_cons_of_mem _ hother)) ?_ hrest
    exact hstep item List.mem_cons_self state next hstate hnext

theorem exists_of_mapM_cons_eq_ok (h : (item :: items).mapM f = .ok results) :
    ∃ first others, f item = .ok first ∧ items.mapM f = .ok others ∧ first :: others = results := by
  rw [List.mapM_cons] at h
  obtain ⟨first, hfirst, h⟩ := exists_of_bind_eq_ok h
  obtain ⟨others, hothers, h⟩ := exists_of_bind_eq_ok h
  exact ⟨first, others, hfirst, hothers, Except.ok.inj h⟩

theorem map_eq_of_mapM_eq_ok {g : β → α} (hg : ∀ item result, f item = .ok result → g result = item)
    (h : items.mapM f = .ok results) : results.map g = items := by
  induction items generalizing results with
  | nil =>
    obtain rfl := Except.ok.inj h
    rfl
  | cons item rest ih =>
    obtain ⟨first, others, hfirst, hothers, rfl⟩ := exists_of_mapM_cons_eq_ok h
    rw [List.map_cons, hg item first hfirst, ih hothers]

theorem forall_mem_of_mapM_eq_ok {P : β → Prop}
    (hf : ∀ item ∈ items, ∀ result, f item = .ok result → P result)
    (h : items.mapM f = .ok results) : ∀ result ∈ results, P result := by
  induction items generalizing results with
  | nil =>
    obtain rfl := Except.ok.inj h
    exact List.forall_mem_nil P
  | cons item rest ih =>
    obtain ⟨first, others, hfirst, hothers, rfl⟩ := exists_of_mapM_cons_eq_ok h
    refine List.forall_mem_cons.mpr ⟨hf item List.mem_cons_self first hfirst, ?_⟩
    exact ih (fun other hother => hf other (List.mem_cons_of_mem _ hother)) hothers

end ResourceLiterals
