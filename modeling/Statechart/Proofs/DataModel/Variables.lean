import Statechart.Proofs.Expr.Mentioning
import Statechart.Proofs.Fields

/-!
# The declared variables

Which variables a data model declares decides where undefined variables can turn up: in an
expression that mentions one that is not declared, and at a location that begins with one
(`declares_of_iff`).  Writes and repeated declarations leave the declared variables the same.
-/

namespace Statechart

open DataModel (splitPath)

namespace DataModel

/-- The same variables are declared. -/
def SameVariables (data after : DataModel) : Prop :=
  ∀ name, after.isDeclared name = data.isDeclared name

/-- Exactly the known variables are declared, and undefined variables turn up accordingly. -/
structure Declares (known : String → Prop) (data : DataModel) : Prop where
  declared_iff : ∀ name, data.isDeclared name = true ↔ known name
  expression : ∀ text name, Evaluator.standard text data = .error (.undefined name) →
    Expr.Mentions text name ∧ ¬ known name
  guard : ∀ text name, Evaluator.standard.holds text data = .error (.undefined name) →
    Expr.Mentions text name ∧ ¬ known name
  /-- Where all variables that are mentioned are known, none is undefined. -/
  defined : ∀ text, (∀ name, Expr.Mentions text name → known name) → ∀ name,
    Evaluator.standard text data ≠ .error (.undefined name) ∧
      Evaluator.standard.holds text data ≠ .error (.undefined name)
  location : ∀ path v error, data.assign path v = .error error ↔
    ¬ known (splitPath path).1 ∧ error = .undefined (splitPath path).1
  writable : ∀ path v, known (splitPath path).1 → ∃ after, data.assign path v = .ok after

variable {data after last : DataModel} {name : String} {known : String → Prop}

theorem SameVariables.refl (data : DataModel) : SameVariables data data := fun _ => rfl

theorem SameVariables.trans (h : SameVariables data after) (h' : SameVariables after last) :
    SameVariables data last := fun name => (h' name).trans (h name)

theorem isDeclared_declare_iff {other : String} {v : Value} :
    (data.declare name v).isDeclared other = true ↔
      other = name ∨ data.isDeclared other = true := by
  simp only [isDeclared, Fields.has_eq_true_iff, ← Fields.mem_names_iff, declare,
    Fields.mem_names_put]

theorem isDeclared_mk_iff {fields : Fields Value} :
    (mk fields).isDeclared name = true ↔ name ∈ fields.names := by
  rw [isDeclared, Fields.has_eq_true_iff, ← Fields.mem_names_iff]
  exact Fields.mem_names_ofList

/-- The declared variables decide which ones can be undefined. -/
theorem declares_of_iff (h : ∀ name, data.isDeclared name = true ↔ known name) :
    data.Declares known := by
  have hunknown : ∀ {name}, data.isDeclared name = false ↔ ¬ known name := fun {name} => by
    rw [← h name, Bool.not_eq_true]
  have hexpression : ∀ text name, Evaluator.standard text data = .error (.undefined name) →
      Expr.Mentions text name ∧ ¬ known name := fun text name herror =>
    (Expr.undefined_of_standard herror).imp_right hunknown.1
  have hguard : ∀ text name, Evaluator.standard.holds text data = .error (.undefined name) →
      Expr.Mentions text name ∧ ¬ known name := fun text name herror =>
    hexpression text name (Evaluator.standard_holds_eq_error_iff.1 herror)
  refine ⟨h, hexpression, hguard, fun text hknown name => ⟨fun herror => ?_, fun herror => ?_⟩,
    fun path v error => ?_, fun path v hknown => exists_assign_iff.2 ((h _).2 hknown)⟩
  · obtain ⟨hmentions, hnot⟩ := hexpression text name herror
    exact hnot (hknown name hmentions)
  · obtain ⟨hmentions, hnot⟩ := hguard text name herror
    exact hnot (hknown name hmentions)
  · rw [assign_eq_error_iff, hunknown]

end DataModel
end Statechart
