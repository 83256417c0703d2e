import Statechart.Proofs.Action.Walk
import Statechart.Proofs.DataModel.Variables

/-!
# Built-in content and the declared variables

Only one of the primitives changes the data model at all, and it writes to what is declared.  So
along a walk through built-in content the declared variables stay the same (`Walk.sameVariables`),
and this is so whether the content comes to its end or fails (`Action.sameVariables_runBlock`).

An action that fails because of an undefined variable fails on the data it finds
(`Fails.undefined`).
-/

namespace Statechart

open DataModel (SameVariables)

variable {evaluate : Evaluator} {c c' : Surroundings} {todo rest : List Action}

namespace Primitive

variable {data : DataModel} {name : String}

/-- A primitive leaves the declared variables as they are. -/
theorem sameVariables_perform {primitive : Primitive}
    (h : primitive.perform evaluate c = .ok c') : SameVariables c.data c'.data := by
  cases primitive with
  | assign location expr =>
      obtain ⟨value, -, h⟩ := bind_eq_ok.1 h
      obtain ⟨data, hassign, h⟩ := bind_eq_ok.1 h
      obtain rfl := pure_eq_ok.1 h
      exact DataModel.isDeclared_assign_eq (mapError_eq_ok.1 hassign)
  | raise event =>
      obtain rfl := pure_eq_ok.1 h
      exact .refl _
  | log _ _ | send _ _ | exitReport _ _ =>
      obtain ⟨value, -, h⟩ := bind_eq_ok.1 h
      obtain rfl := pure_eq_ok.1 h
      exact .refl _

theorem undefined_of_mapError {text : String}
    (h : (Evaluator.standard text data).mapError ActionError.expression =
      .error (.expression (.undefined name))) : data.isDeclared name = false := by
  obtain ⟨error, herror, heq⟩ := mapError_eq_error.1 h
  obtain rfl := ActionError.expression.inj heq
  exact (Expr.undefined_of_standard herror).2

theorem undefined_of_value? {expr : Option String}
    (h : value? .standard data expr = .error (.expression (.undefined name))) :
    data.isDeclared name = false := by
  cases expr with
  | none => cases h
  | some expr =>
      obtain ⟨error, herror, heq⟩ := mapError_eq_error.1 h
      obtain rfl := ActionError.expression.inj heq
      exact (Expr.undefined_of_standard (map_eq_error.1 herror)).2

/-- What an exit names and does not find is no error of an expression. -/
theorem mapM_named_ne_expression {names : List String} {error : ExpressionError} :
    names.mapM (named data) ≠ .error (.expression error) := by
  induction names with
  | nil => exact nofun
  | cons name rest ih =>
      intro h
      rw [List.mapM_cons] at h
      rcases bind_eq_error.1 h with hfirst | ⟨field, -, h⟩
      · unfold named at hfirst
        split at hfirst <;> cases hfirst
      · rcases bind_eq_error.1 h with hrest | ⟨fields, -, h⟩
        · exact ih hrest
        · cases h

theorem undefined_of_exitValue {expr : Option String} {names : List String}
    (h : exitValue .standard data expr names = .error (.expression (.undefined name))) :
    data.isDeclared name = false := by
  rcases bind_eq_error.1 h with hvalue | ⟨value, -, h⟩
  · exact undefined_of_value? hvalue
  · split at h
    · cases h
    · rcases bind_eq_error.1 h with hnames | ⟨fields, -, h⟩
      · exact absurd hnames mapM_named_ne_expression
      · cases h

theorem undefined_of_perform {primitive : Primitive}
    (h : primitive.perform .standard c = .error (.expression (.undefined name))) :
    c.data.isDeclared name = false := by
  cases primitive with
  | log _ _ | send _ _ =>
      rcases bind_eq_error.1 h with hvalue | ⟨value, -, h⟩
      · exact undefined_of_value? hvalue
      · cases h
  | assign location expr =>
      rcases bind_eq_error.1 h with hvalue | ⟨value, -, h⟩
      · exact undefined_of_mapError hvalue
      rcases bind_eq_error.1 h with hassign | ⟨data, -, h⟩
      · obtain ⟨error, herror, heq⟩ := mapError_eq_error.1 hassign
        obtain rfl := ActionError.expression.inj heq
        obtain ⟨hnot, heq⟩ := DataModel.assign_eq_error_iff.1 herror
        obtain rfl := ExpressionError.undefined.inj heq
        exact hnot
      · cases h
  | raise event => cases h
  | exitReport expr names =>
      rcases bind_eq_error.1 h with hexit | ⟨value, -, h⟩
      · exact undefined_of_exitValue hexit
      · cases h

end Primitive

/-- What an action finds undefined is not declared. -/
theorem Fails.undefined {action : Action} {name : String}
    (h : Fails .standard c action (.expression (.undefined name))) :
    c.data.isDeclared name = false := by
  cases h with
  | condition hcond =>
      exact (Expr.undefined_of_standard (Evaluator.standard_holds_eq_error_iff.1 hcond)).2
  | primitive _ hperform => exact Primitive.undefined_of_perform hperform

theorem Walk.sameVariables {done : List Primitive} (h : Walk evaluate c todo done c' rest) :
    SameVariables c.data c'.data := by
  induction h with
  | here c todo => exact .refl _
  | perform _ hperform _ ih => exact (Primitive.sameVariables_perform hperform).trans ih
  | branch _ _ ih => exact ih

/-- Built-in content leaves the declared variables as they are, also if it fails. -/
theorem Action.sameVariables_runBlock {block : List Action} (h : allBuiltin block = true)
    (c : Surroundings) (state : String) :
    SameVariables c.data (runBlock ⟨c.data, evaluate, state⟩ block).data := by
  have hfollows : Follows evaluate c block [] (runBlock ⟨c.data, evaluate, state⟩ block) :=
    follows_runBlock h c [] state
  cases hfollows with
  | ends _ hwalk => exact hwalk.sameVariables
  | stops _ hwalk _ => exact hwalk.sameVariables

end Statechart
