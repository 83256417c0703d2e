import Statechart.Proofs.Action.Variables
import Statechart.Proofs.Session.Failure

/-!
# The variables of a running chart

Built-in content writes to variables that are declared and declares none.  The engine itself
declares the variable of the event again and again, and nothing else.  So as long as a model has
built-in content only, the declared variables are at every moment of a run those of the document
and the one for the event (`Known`), also within a block of content, in a call that is aborted or
halted, and where an event is forgotten again.

What an expression or a location finds undefined is hence known from the document alone
(`variables_stay`).
-/

namespace Statechart

open DataModel (SameVariables Declares eventVariable)

/-- Holds of a state with built-in content only. -/
def StateNode.isBuiltin (node : StateNode) : Bool :=
  Action.allBuiltin node.onEntry && Action.allBuiltin node.onExit &&
    node.transitions.all fun t => Action.allBuiltin t.actions

/-- Holds of states with built-in content only. -/
def Arena.isBuiltin (arena : Arena) : Bool := arena.all StateNode.isBuiltin

/-- The variables of a document, and the one for the event. -/
def Document.Knows (doc : Document) (name : String) : Prop :=
  name ∈ doc.datamodel.names ∨ name = eventVariable

namespace Arena

variable {arena : Arena} (h : arena.isBuiltin = true)
include h

theorem isBuiltin_state (i : Nat) : (arena.state i).isBuiltin = true := by
  by_cases hi : i < arena.size
  · rw [state, Array.getD_eq_getD_getElem?, Array.getElem?_eq_getElem hi]
    exact Array.all_eq_true.1 h i hi
  · rw [state_of_size_le (by omega)]
    rfl

theorem allBuiltin_content (block : Block) : Action.allBuiltin (arena.content block) = true := by
  cases block with
  | onExit i =>
      have hstate := isBuiltin_state h i
      simp only [StateNode.isBuiltin, Bool.and_eq_true] at hstate
      exact hstate.1.2
  | onEntry i =>
      have hstate := isBuiltin_state h i
      simp only [StateNode.isBuiltin, Bool.and_eq_true] at hstate
      exact hstate.1.1
  | onTransition t =>
      have hstate := isBuiltin_state h t.source
      simp only [StateNode.isBuiltin, Bool.and_eq_true] at hstate
      show Action.allBuiltin (arena.transition t).actions = true
      unfold transition
      cases hget : (arena.state t.source).transitions[t.position]? with
      | none => rfl
      | some found => exact List.all_eq_true.1 hstate.2 found (List.mem_of_getElem? hget)

end Arena

namespace Session

/-- The data model at some moment while operations are performed: between two of them, or within a
block of content. -/
inductive Moment (s : Session) (ops : List Operation) : DataModel → Prop where
  | between {before after : List Operation} : ops = before ++ after →
    Moment s ops (s.performAll before).data
  | within {q : Session} {block : Block} {done : List Primitive} {c : Surroundings}
    {rest : List Action} : s.Performs ops q (.run block) → q.pending = none →
    Walk q.evaluate q.surroundings (q.arena.content block) done c rest → Moment s ops c.data

/-- The model has built-in content only, and the known variables are declared, the one for the
event among them. -/
structure Holds (known : String → Prop) (s : Session) : Prop where
  builtin : s.arena.isBuiltin = true
  event : known eventVariable
  declared_iff : ∀ name, s.data.isDeclared name = true ↔ known name

variable {s q : Session} {c : Call} {op : Operation} {ops : List Operation}
  {known : String → Prop}

theorem Holds.of_same (h : Holds known s) (hmodel : q.model = s.model)
    (hsame : SameVariables s.data q.data) : Holds known q where
  builtin := by
    rw [arena, hmodel]
    exact h.builtin
  event := h.event
  declared_iff name := by rw [hsame name, h.declared_iff]

/-! ## One operation -/

theorem sameVariables_outcome (h : s.arena.isBuiltin = true) (block : Block) :
    SameVariables s.data (s.outcome block).data :=
  Action.sameVariables_runBlock (Arena.allBuiltin_content h block) s.surroundings _

/-- An operation declares the variable of the event, or it runs content. -/
theorem sameVariables_performQuietly (h : s.arena.isBuiltin = true)
    (hevent : s.data.isDeclared eventVariable = true) :
    SameVariables s.data (s.performQuietly op).data := by
  cases op with
  | receive event => exact DataModel.isDeclared_declare_eq hevent event.toValue
  | restore v => exact DataModel.isDeclared_declare_eq hevent v
  | dequeue =>
      unfold performQuietly perform
      dsimp only
      split
      · exact .refl _
      · next event r hdequeue =>
        show SameVariables s.data (r.data.declare eventVariable event.toValue)
        rw [data_dequeue hdequeue]
        exact DataModel.isDeclared_declare_eq hevent event.toValue
  | run block =>
      unfold performQuietly
      dsimp only
      split
      · exact .refl _
      · rw [afterActions, absorb_eq]
        exact sameVariables_outcome h block
  | _ => exact .refl _

theorem Holds.perform (h : Holds known s) (op : Operation) : Holds known (s.perform op) := by
  have hevent := (h.declared_iff eventVariable).2 h.event
  refine h.of_same sameChart_perform.model ?_
  rw [data_perform]
  exact sameVariables_performQuietly h.builtin hevent

/-! ## All operations -/

theorem Holds.performAll (h : Holds known s) (ops : List Operation) :
    Holds known (s.performAll ops) := by
  induction ops generalizing s with
  | nil => exact h
  | cons op rest ih => exact ih (h.perform op)

theorem Holds.performs (h : Holds known s) (hperforms : s.Performs ops q op) : Holds known q := by
  obtain ⟨before, after, -, rfl⟩ := hperforms
  exact h.performAll before

theorem Holds.moment (h : Holds known s) {data : DataModel} (hmoment : Moment s ops data)
    (name : String) : data.isDeclared name = true ↔ known name := by
  cases hmoment with
  | between _ => exact (h.performAll _).declared_iff name
  | within hperforms _ hwalk =>
      rw [hwalk.sameVariables name]
      exact (h.performs hperforms).declared_iff name

/-- What an operation finds undefined is not known. -/
theorem Holds.unknown_of_fault? (h : Holds known s) (hstandard : s.evaluate = .standard)
    {fault : Fault} {name : String} (hfault : s.fault? op = some fault)
    (herror : fault.error = .expression (.undefined name)) : ¬ known name := by
  rw [← h.declared_iff name, Bool.not_eq_true]
  cases op with
  | test t =>
      change s.guardFault? t = some fault at hfault
      unfold guardFault? at hfault
      split at hfault
      · cases hfault
      · next cond _ =>
        split at hfault
        · cases hfault
        · next error hholds =>
          obtain rfl := Option.some.inj hfault
          obtain rfl := ExecutionError.expression.inj herror
          rw [hstandard, Evaluator.standard_holds_eq_error_iff] at hholds
          exact (Expr.undefined_of_standard hholds).2
  | run block =>
      change (if s.pending.isSome then none else s.blockFault? block) = some fault at hfault
      split at hfault
      · cases hfault
      obtain ⟨error, hfailure, rfl⟩ := Option.map_eq_some_iff.1 hfault
      obtain rfl : error = .expression (.undefined name) := by
        cases error with
        | expression error => rw [ExecutionError.expression.inj herror]
        | failed action reason => cases herror
      have hblock := Arena.allBuiltin_content h.builtin block
      have hfollows : Statechart.Follows s.evaluate s.surroundings (s.arena.content block) []
          (s.outcome block) := Action.follows_runBlock hblock s.surroundings [] _
      cases hfollows with
      | ends hnone _ => cases hnone.symm.trans hfailure
      | stops hsome hwalk hfails =>
          obtain rfl := Option.some.inj (hsome.symm.trans hfailure)
          rw [hstandard] at hwalk hfails
          exact (hwalk.sameVariables name).symm.trans hfails.undefined
  | _ => cases hfault

/-! ## Calls -/

/-- What the variables of a call come to. -/
structure KeepsVariables (known : String → Prop) (s : Session) (ops : List Operation)
    (result : Result) : Prop where
  /-- At every moment of the call. -/
  moments : ∀ data, Moment s ops data → data.Declares known
  after : result.2.data.Declares known
  /-- Whatever fails in the call because of an undefined variable, or ends it with that. -/
  faults : s.evaluate = .standard → ∀ f ∈ s.faults ops, ∀ name,
    f.2.error = .expression (.undefined name) → ¬ known name
  error : s.evaluate = .standard → ∀ name,
    result.1 = some (.expression (.undefined name)) → ¬ known name

theorem Holds.call (h : Holds known s) (hrest : AtRest s) (c : Call) :
    Holds known (s.call c).2 := by
  obtain ⟨ops, hcourse⟩ := exists_course hrest c
  obtain ⟨phase, hclosed⟩ := hcourse.exists_eq_closed hrest
  have hops := h.performAll ops
  rw [hclosed]
  exact ⟨hops.builtin, hops.event, hops.declared_iff⟩

theorem Holds.after (h : Holds known s) (hrest : AtRest s) (calls : List Call) :
    Holds known (s.after calls) := by
  induction calls generalizing s with
  | nil => exact h
  | cons c rest ih => exact ih (h.call hrest c) (hrest.call c)

theorem Holds.unknown_of_mem_faults (h : Holds known s) (hstandard : s.evaluate = .standard)
    {f : Operation × Fault} (hf : f ∈ s.faults ops) {name : String}
    (herror : f.2.error = .expression (.undefined name)) : ¬ known name := by
  obtain ⟨q, hperforms, hfault⟩ := exists_performs_of_mem_faults hf
  have hq : q.evaluate = .standard := by
    obtain ⟨before, after, -, rfl⟩ := hperforms
    exact sameChart_performAll.evaluate.trans hstandard
  exact (h.performs hperforms).unknown_of_fault? hq hfault herror

theorem Holds.keepsVariables (h : Holds known s) (hrest : AtRest s)
    (hcourse : Course s c ops (s.call c)) : KeepsVariables known s ops (s.call c) where
  moments data hmoment := DataModel.declares_of_iff (h.moment hmoment)
  after := DataModel.declares_of_iff (h.call hrest c).declared_iff
  faults hstandard f hf name herror := h.unknown_of_mem_faults hstandard hf herror
  error hstandard name herror := by
    have hfailure : (ExecutionError.expression (.undefined name)).IsFailure := trivial
    -- the call ends with what is pending, and that is the failure of an operation
    rcases pending_performAll_or ((hcourse.pending_iff hrest hfailure).1 herror) with
      hbefore | ⟨f, hf, hfault⟩
    · cases hrest.pending.symm.trans hbefore
    · exact h.unknown_of_mem_faults hstandard hf hfault

theorem holds_ofModel {doc : Document} {registry : Registry} {model : Model}
    (hbuild : Model.build doc registry = .ok model) (hbuiltin : model.arena.isBuiltin = true)
    (config : Config) (evaluate : Evaluator) :
    Holds doc.Knows (ofModel model config evaluate) where
  builtin := hbuiltin
  event := .inr rfl
  declared_iff name := by
    obtain ⟨-, _, _, _, -, -, -, rfl⟩ := Model.build_eq_ok_iff.1 hbuild
    refine DataModel.isDeclared_declare_iff.trans ?_
    rw [DataModel.isDeclared_mk_iff]
    exact or_comm

/-- In a model with built-in content only, the declared variables are at every moment of every run
those of the document and the one for the event, and nothing else is ever found undefined than
what is not among them. -/
theorem variables_stay {doc : Document} {registry : Registry} {model : Model}
    (hbuild : Model.build doc registry = .ok model) (hbuiltin : model.arena.isBuiltin = true)
    (config : Config) (evaluate : Evaluator) (calls : List Call) (c : Call) :
    let s := (ofModel model config evaluate).after calls
    (∃ ops, Course s c ops (s.call c)) ∧
      ∀ ops, Course s c ops (s.call c) → KeepsVariables doc.Knows s ops (s.call c) := by
  intro s
  have hheld : Held s := Held.after (.fresh hbuild config evaluate) calls
  have hholds : Holds doc.Knows s :=
    (holds_ofModel hbuild hbuiltin config evaluate).after (atRest_ofModel hbuild config evaluate)
      calls
  exact ⟨exists_course hheld.atRest c, fun _ hcourse => hholds.keepsVariables hheld.atRest hcourse⟩

/-- A state whose entry writes to a variable and then to none, and whose guard reads none. -/
def scribble : Document where
  datamodel := [("note", .null)]
  states :=
    [.state
      { id := "a"
        onEntry := [.assign "note.read" "true",
          .branch "note.read" [.assign "margin" "_event"] [.assign "note" "false"]]
        transitions := [{ event := some "go", cond := some "note.read && ink" }] } []]

/-- The model of `scribble`. -/
def scribbleModel : Model := (Model.build scribble .empty).toOption.getD default

theorem build_scribble : Model.build scribble .empty = .ok scribbleModel := rfl

/-- The start is aborted, after it has written to a variable, and so is the event that follows. -/
theorem variables_stay_scribble :
    let s := (ofModel scribbleModel { policy := .abort } .standard).after [.start]
    let c : Call := .submit (.plain "go")
    Model.build scribble .empty = .ok scribbleModel ∧ scribbleModel.arena.isBuiltin = true ∧
      ((ofModel scribbleModel { policy := .abort } .standard).call .start).1 =
        some (.expression (.undefined "margin")) ∧
      s.data.bindings.names = ["_event", "note"] ∧
      (s.call c).1 = some (.expression (.undefined "ink")) ∧
      (∃ ops, Course s c ops (s.call c)) ∧
      ∀ ops, Course s c ops (s.call c) → KeepsVariables scribble.Knows s ops (s.call c) := by
  intro s c
  have hbuiltin : scribbleModel.arena.isBuiltin = true := by decide +kernel
  exact ⟨build_scribble, hbuiltin, by decide +kernel, by decide +kernel, by decide +kernel,
    variables_stay build_scribble hbuiltin { policy := .abort } .standard [.start] c⟩

end Session
end Statechart
