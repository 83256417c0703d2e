import Mathlib.Logic.Basic

/-!
# Steps that may fail

When a step after another one succeeds, and what it gives then; and where a failure of the two
comes from.
-/

namespace Statechart

variable {ε α β : Type}

theorem pure_def (a : α) : (pure a : Except ε α) = .ok a := rfl

theorem ok_bind (a : α) (next : α → Except ε β) : Except.ok a >>= next = next a := rfl

theorem pure_eq_ok {a b : α} : (pure a : Except ε α) = .ok b ↔ a = b := by
  simp [pure, Except.pure]

theorem bind_eq_ok {first : Except ε α} {next : α → Except ε β} {b : β} :
    first >>= next = .ok b ↔ ∃ a, first = .ok a ∧ next a = .ok b := by
  cases first <;> simp [bind, Except.bind]

theorem bind_eq_error {first : Except ε α} {next : α → Except ε β} {e : ε} :
    first >>= next = .error e ↔ first = .error e ∨ ∃ a, first = .ok a ∧ next a = .error e := by
  cases first <;> simp [bind, Except.bind]

theorem mapError_eq_ok {δ : Type} {first : Except ε α} {f : ε → δ} {a : α} :
    first.mapError f = .ok a ↔ first = .ok a := by
  cases first with
  | ok b =>
      show (Except.ok b : Except δ α) = .ok a ↔ _
      simp
  | error e => exact ⟨nofun, nofun⟩

theorem mapError_eq_error {δ : Type} {first : Except ε α} {f : ε → δ} {d : δ} :
    first.mapError f = .error d ↔ ∃ e, first = .error e ∧ f e = d := by
  cases first with
  | ok b => exact ⟨nofun, nofun⟩
  | error e =>
      show (Except.error (f e) : Except δ α) = .error d ↔ _
      simp

theorem map_eq_error {first : Except ε α} {f : α → β} {e : ε} :
    first.map f = .error e ↔ first = .error e := by
  cases first <;> simp [Except.map]

/-- A sequence of two steps succeeds if the second one does after the first. -/
theorem exists_bind_eq_ok {first : Except ε α} {next : α → Except ε β} :
    (∃ b, first >>= next = .ok b) ↔ ∃ a, first = .ok a ∧ ∃ b, next a = .ok b := by
  cases first <;> simp [bind, Except.bind]

/-- A sequence of two steps, of which the second may depend on what the first gives but not
its success. -/
theorem exists_bind_iff {first : Except ε α} {next : α → Except ε β} {p : Prop}
    (hnext : ∀ a, (∃ b, next a = .ok b) ↔ p) :
    (∃ b, first >>= next = .ok b) ↔ (∃ a, first = .ok a) ∧ p := by
  rw [exists_bind_eq_ok]
  simp only [hnext, exists_and_right]

end Statechart
