import Mathlib.Data.List.Forall2

/-!
Lists of results: a list of steps that may fail succeeds exactly if each of them does.
-/

namespace Localization

variable {ε α β : Type} {f g : α → Except ε β} {inputs : List α} {outputs : List β}

theorem mapM_eq_ok_iff :
    inputs.mapM f = .ok outputs ↔ List.Forall₂ (fun a b => f a = .ok b) inputs outputs := by
  induction inputs generalizing outputs with
  | nil =>
      rw [List.mapM_nil, List.forall₂_nil_left_iff]
      exact ⟨fun h => (Except.ok.inj h).symm, fun h => h ▸ rfl⟩
  | cons a rest ih =>
      rw [List.mapM_cons, List.forall₂_cons_left_iff]
      cases ha : f a with
      | error e => simp [bind, Except.bind]
      | ok b =>
          cases hrest : rest.mapM f with
          | error e => simp [bind, Except.bind, ← ih, hrest]
          | ok bs => simp [bind, Except.bind, ← ih, hrest, pure, Except.pure, eq_comm]

theorem exists_mem_of_mapM (h : inputs.mapM f = .ok outputs) {b : β} (hb : b ∈ outputs) :
    ∃ a ∈ inputs, f a = .ok b := by
  obtain ⟨i, hi, rfl⟩ := List.getElem_of_mem hb
  have hall := mapM_eq_ok_iff.mp h
  have hi' : i < inputs.length := hall.length_eq ▸ hi
  exact ⟨inputs[i], List.getElem_mem hi', hall.get hi' hi⟩

theorem exists_output_of_mapM (h : inputs.mapM f = .ok outputs) {a : α} (ha : a ∈ inputs) :
    ∃ b ∈ outputs, f a = .ok b := by
  obtain ⟨i, hi, rfl⟩ := List.getElem_of_mem ha
  have hall := mapM_eq_ok_iff.mp h
  have hi' : i < outputs.length := hall.length_eq ▸ hi
  exact ⟨outputs[i], List.getElem_mem hi', hall.get hi hi'⟩

theorem exists_mem_of_mapM_error {e : ε} (h : inputs.mapM f = .error e) : ∃ a ∈ inputs, f a = .error e := by
  induction inputs with
  | nil => cases h
  | cons a rest ih =>
      rw [List.mapM_cons] at h
      cases ha : f a with
      | error first =>
          obtain rfl : first = e := by simpa [ha, bind, Except.bind] using h
          exact ⟨a, List.mem_cons_self, ha⟩
      | ok b =>
          cases hrest : rest.mapM f with
          | ok bs => simp [ha, hrest, bind, Except.bind, pure, Except.pure] at h
          | error later =>
              obtain rfl : later = e := by simpa [ha, hrest, bind, Except.bind] using h
              obtain ⟨c, hc, hfails⟩ := ih hrest
              exact ⟨c, List.mem_cons_of_mem a hc, hfails⟩

theorem exists_mapM_error {a : α} {e : ε} (ha : a ∈ inputs) (h : f a = .error e) :
    ∃ first, inputs.mapM f = .error first := by
  cases hall : inputs.mapM f with
  | error first => exact ⟨first, rfl⟩
  | ok outputs =>
      obtain ⟨b, -, hb⟩ := exists_output_of_mapM hall ha
      rw [h] at hb
      cases hb

theorem bind_eq_error_iff {x : Except ε α} {k : α → Except ε β} {e : ε} :
    x >>= k = .error e ↔ x = .error e ∨ ∃ a, x = .ok a ∧ k a = .error e := by
  cases x with
  | error first => simp [bind, Except.bind]
  | ok a => simp [bind, Except.bind]

theorem bind_eq_ok_iff {x : Except ε α} {k : α → Except ε β} {b : β} :
    x >>= k = .ok b ↔ ∃ a, x = .ok a ∧ k a = .ok b := by
  cases x with
  | error first => simp [bind, Except.bind]
  | ok a => simp [bind, Except.bind]

theorem mapError_eq_error_iff {ε' : Type} {x : Except ε α} {g : ε → ε'} {e : ε'} :
    x.mapError g = .error e ↔ ∃ first, x = .error first ∧ g first = e := by
  cases x with
  | error first => simp [Except.mapError]
  | ok a => simp [Except.mapError]

theorem exists_forall₂ {P : α → β → Prop} (h : ∀ a ∈ inputs, ∃ b, P a b) :
    ∃ outputs, List.Forall₂ P inputs outputs := by
  induction inputs with
  | nil => exact ⟨[], .nil⟩
  | cons a rest ih =>
      obtain ⟨b, hb⟩ := h a List.mem_cons_self
      obtain ⟨bs, hbs⟩ := ih fun c hc => h c (List.mem_cons_of_mem a hc)
      exact ⟨b :: bs, .cons hb hbs⟩

theorem exists_mapM {P : β → Prop} (h : ∀ a ∈ inputs, ∃ b, f a = .ok b ∧ P b) :
    ∃ outputs, inputs.mapM f = .ok outputs ∧ ∀ b ∈ outputs, P b := by
  induction inputs with
  | nil => exact ⟨[], rfl, nofun⟩
  | cons a rest ih =>
      obtain ⟨b, hb, hP⟩ := h a List.mem_cons_self
      obtain ⟨bs, hbs, hPs⟩ := ih fun c hc => h c (List.mem_cons_of_mem a hc)
      refine ⟨b :: bs, mapM_eq_ok_iff.mpr (.cons hb (mapM_eq_ok_iff.mp hbs)), ?_⟩
      exact List.forall_mem_cons.mpr ⟨hP, hPs⟩

/-- What is known about the outcome of a run holds of its result. -/
theorem exists_ok_of_any {x : Except ε α} {p : α → Bool} (h : x.toOption.any p = true) :
    ∃ a, x = .ok a ∧ p a = true := by
  cases x with
  | error e => simp [Except.toOption] at h
  | ok a => exact ⟨a, rfl, by simpa [Except.toOption] using h⟩

theorem exists_error_of_isNone {x : Except ε α} (h : x.toOption.isNone = true) : ∃ e, x = .error e := by
  cases x with
  | error e => exact ⟨e, rfl⟩
  | ok a => simp [Except.toOption] at h

theorem eq_of_fst_of_snd {p : α × β} {a : α} {b : β} (ha : p.1 = a) (hb : p.2 = b) : p = (a, b) := by
  rw [← ha, ← hb]

/-- What is known of each output from its input, for the whole list. -/
theorem map_eq_of_mapM {γ : Type} {p : β → γ} {q : α → γ} (h : inputs.mapM f = .ok outputs)
    (hpq : ∀ a b, f a = .ok b → p b = q a) : outputs.map p = inputs.map q := by
  have hall := mapM_eq_ok_iff.mp h
  induction hall with
  | nil => rfl
  | cons hab hrest ih =>
      rw [List.map_cons, List.map_cons, hpq _ _ hab, ih (mapM_eq_ok_iff.mpr hrest)]

/-- Steps that go along with those of a list give outputs that go along with its outputs. -/
theorem exists_mapM_alike {γ : Type} {R : β → γ → Prop} {k : α → Except ε γ}
    (h : inputs.mapM f = .ok outputs) (hstep : ∀ a b, f a = .ok b → ∃ c, k a = .ok c ∧ R b c) :
    ∃ others, inputs.mapM k = .ok others ∧ List.Forall₂ R outputs others := by
  have hall := mapM_eq_ok_iff.mp h
  clear h
  induction hall with
  | nil => exact ⟨[], rfl, .nil⟩
  | cons hab hrest ih =>
      obtain ⟨c, hc, hR⟩ := hstep _ _ hab
      obtain ⟨cs, hcs, hRs⟩ := ih
      exact ⟨c :: cs, mapM_eq_ok_iff.mpr (.cons hc (mapM_eq_ok_iff.mp hcs)), .cons hR hRs⟩

end Localization
