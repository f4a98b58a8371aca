/-
LinkGrammar/Proofs/Link/Answer.lean

Answers that may fail, taken apart.
-/
import Mathlib
import LinkGrammar.Link.Words

namespace LinkGrammar

variable {ε α β : Type}

theorem bind_eq_ok {x : Except ε α} {f : α → Except ε β} {b : β} :
    x >>= f = .ok b ↔ ∃ a, x = .ok a ∧ f a = .ok b := by
  rcases x with e | a
  · simp [bind, Except.bind]
  · simp [bind, Except.bind]

/-- What is made of an answer comes from one. -/
theorem map_eq_ok {x : Except ε α} {f : α → β} {b : β} :
    x.map f = .ok b ↔ ∃ a, x = .ok a ∧ f a = b := by
  rcases x with e | a
  · simp [Except.map]
  · simp [Except.map]

theorem exists_map_eq_ok {x : Except ε α} {f : α → β} :
    (∃ b, x.map f = .ok b) ↔ ∃ a, x = .ok a := by
  rcases x with e | a
  · simp [Except.map]
  · simp [Except.map]

/-- Two steps fail if the first does, or the second on its answer. -/
theorem bind_eq_error {x : Except ε α} {f : α → Except ε β} {e : ε} :
    x >>= f = .error e ↔ x = .error e ∨ ∃ a, x = .ok a ∧ f a = .error e := by
  rcases x with e | a
  · simp [bind, Except.bind]
  · simp [bind, Except.bind]

theorem map_eq_error {x : Except ε α} {f : α → β} {e : ε} :
    x.map f = .error e ↔ x = .error e := by
  rcases x with e | a
  · simp [Except.map]
  · simp [Except.map]

/-- The error of a run of steps is that of the first step that has one. -/
theorem exists_first_error {step : β → α → Except ε β} {l : List α} {b : β} {e : ε}
    (h : l.foldlM step b = .error e) :
    ∃ front a back b', l = front ++ a :: back ∧ front.foldlM step b = .ok b' ∧
      step b' a = .error e := by
  induction l generalizing b with
  | nil => cases h
  | cons a l ih =>
    rw [List.foldlM_cons] at h
    rcases bind_eq_error.1 h with hstep | ⟨b₁, hb₁, hrest⟩
    · exact ⟨[], a, l, b, rfl, rfl, hstep⟩
    · obtain ⟨front, a', back, b', rfl, hfront, hstep⟩ := ih hrest
      refine ⟨a :: front, a', back, b', rfl, ?_, hstep⟩
      rw [List.foldlM_cons, hb₁]
      exact hfront

/-- The error of a run of steps is that of one of them. -/
theorem exists_step_eq_error {step : β → α → Except ε β} {l : List α} {b : β} {e : ε}
    (h : l.foldlM step b = .error e) : ∃ a ∈ l, ∃ b', step b' a = .error e := by
  obtain ⟨front, a, back, b', rfl, -, hstep⟩ := exists_first_error h
  exact ⟨a, by simp, b', hstep⟩

/-- A run of steps gives an answer when each step does, if no step asks how it was reached. -/
theorem exists_foldlM_eq_ok {step : β → α → Except ε β} {P : α → Prop}
    (hstep : ∀ b a, (∃ b', step b a = .ok b') ↔ P a) (l : List α) (b : β) :
    (∃ b', l.foldlM step b = .ok b') ↔ ∀ a ∈ l, P a := by
  induction l generalizing b with
  | nil => exact ⟨fun _ a ha => (List.not_mem_nil ha).elim, fun _ => ⟨b, rfl⟩⟩
  | cons a l ih =>
    rw [List.forall_mem_cons, List.foldlM_cons, ← hstep b a]
    rcases step b a with e | b'
    · simp [bind, Except.bind]
    · simpa [bind, Except.bind] using ih b'

/-- What every step keeps holds after a run of steps that all gave an answer. -/
theorem foldlM_keeps {step : β → α → Except ε β} (P : β → Prop)
    (hstep : ∀ a b b', P b → step b a = .ok b' → P b') {l : List α} {b b' : β} (hb : P b)
    (h : l.foldlM step b = .ok b') : P b' := by
  induction l generalizing b with
  | nil =>
    cases h
    exact hb
  | cons a l ih =>
    rw [List.foldlM_cons] at h
    obtain ⟨b₁, hb₁, h⟩ := bind_eq_ok.1 h
    exact ih (hstep a b b₁ hb hb₁) h

end LinkGrammar
