import Statechart.Proofs.Outcome
import Statechart.Proofs.Session.Frame

/-!
# What a block of built-in actions leaves behind

A block is a tree: its branches hold blocks again.  What runs of it is a list of primitives,
those that are reached in order through the branches taken.  `Walk` says which ones: it goes
through what is still to be done, performs a primitive if one is next, and puts the side that was
chosen in front of the rest if a branch is next.  Which side that is depends on the data at that
moment, hence on what was written before.

`Primitive.perform` says what a primitive does to its surroundings, all or nothing: it gives new
surroundings or an error.

* `Action.run_primitive`: the engine's way to run a primitive is all or nothing in that sense.
* `Action.follows_runBlock`: running a block follows a walk, by the recursion of the block.
* `Walk.resume`: there is one walk only, so where it ends is where every other one leads to.
* `Session.keeps_effects_before_failure`: a session takes over exactly what the primitives
  before a failure did, at any depth of the branches.
-/

namespace Statechart

/-- What a block may change. -/
structure Surroundings where
  data : DataModel
  internal : List Event
  derived : List Event
  reports : ReportLog
  output : List Output
  completion : Option Value

/-- What blocks may change of a session. -/
def Session.surroundings (s : Session) : Surroundings where
  data := s.data
  internal := s.internal
  derived := s.derived
  reports := s.reports
  output := s.output
  completion := s.completion

namespace Surroundings

variable {c : Surroundings}

/-- Takes over what content did. -/
def take (c : Surroundings) (outcome : Outcome) : Surroundings where
  data := outcome.data
  internal := c.internal ++ outcome.raised
  derived := c.derived ++ outcome.sent
  reports := c.reports.pushAll outcome.reports
  output := c.output ++ outcome.output
  completion := outcome.completion.or c.completion

@[simp] theorem take_idle (c : Surroundings) : c.take (.idle c.data) = c := by
  simp [take, Outcome.idle, ReportLog.pushAll]

@[simp] theorem take_failing (c : Surroundings) (error : ActionError) :
    c.take (.failing c.data error) = c := by
  simp [take, Outcome.failing, ReportLog.pushAll]

/-- What goes on after a success is taken over on top of it. -/
theorem take_andThen {first : Outcome} (h : first.failure = none)
    (next : DataModel → Outcome) :
    c.take (first.andThen next) = (c.take first).take (next first.data) := by
  simp [take, Outcome.andThen, h, ReportLog.pushAll, Option.or_assoc]

end Surroundings

theorem Session.surroundings_absorb (s : Session) (outcome : Outcome) :
    (s.absorb outcome).surroundings = s.surroundings.take outcome := by
  rw [absorb_eq]
  rfl

/-! ## Primitives -/

/-- The built-in actions that hold no blocks. -/
inductive Primitive where
  | log (label expr : Option String)
  | assign (location expr : String)
  | raise (event : String)
  | send (event : String) (expr : Option String)
  | exitReport (expr : Option String) (names : List String)
  deriving Repr, DecidableEq

/-- The primitive that an action is, unless it is a branch or an action of the host. -/
def Action.primitive? : Action → Option Primitive
  | .log label expr => some (.log label expr)
  | .assign location expr => some (.assign location expr)
  | .raise event => some (.raise event)
  | .send event expr => some (.send event expr)
  | .exitReport expr names => some (.exitReport expr names)
  | .branch _ _ _ => none
  | .custom _ _ _ => none

namespace Primitive

/-- The value of an expression, if one is given. -/
def value? (evaluate : Evaluator) (data : DataModel) (expr : Option String) :
    Except ActionError (Option Value) :=
  match expr with
  | none => .ok none
  | some expr => ((evaluate expr data).map some).mapError .expression

/-- A variable that an exit names, with its value. -/
def named (data : DataModel) (name : String) : Except ActionError (String × Value) :=
  match data.get? name with
  | none => .error (.failed "exit" ("undefined variable '" ++ name ++ "' in namelist"))
  | some v => .ok (name, v)

/-- The completion data of an exit: the value of the expression, or an object of the named
variables with the value, if there is one, as the member `expr`. -/
def exitValue (evaluate : Evaluator) (data : DataModel) (expr : Option String)
    (names : List String) : Except ActionError Value := do
  let value ← value? evaluate data expr
  if names = [] then return value.getD .null
  let fields ← names.mapM (named data)
  return .ofFields (fields ++ value.toList.map ("expr", ·))

/-- What a primitive does: new surroundings, or an error and nothing else. -/
def perform (evaluate : Evaluator) (c : Surroundings) :
    Primitive → Except ActionError Surroundings
  | log label expr => do
    let value ← value? evaluate c.data expr
    let line := Output.log (label.getD "") ((value.map Value.display).getD "")
    return { c with output := c.output ++ [line] }
  | assign location expr => do
    let value ← (evaluate expr c.data).mapError .expression
    let data ← (c.data.assign location value).mapError .expression
    return { c with data }
  | raise event => return { c with internal := c.internal ++ [⟨event, none⟩] }
  | send event expr => do
    let value ← value? evaluate c.data expr
    return { c with derived := c.derived ++ [⟨event, value⟩] }
  | exitReport expr names => do
    let value ← exitValue evaluate c.data expr names
    return { c with completion := some value }

end Primitive

/-- What primitives do one after the other. -/
def Primitive.performAll (evaluate : Evaluator) (c : Surroundings) (primitives : List Primitive) :
    Except ActionError Surroundings :=
  primitives.foldlM (Primitive.perform evaluate) c

/-! ## Walks -/

/-- `Walk evaluate c todo done c' rest`: with `todo` to be done in `c`, the primitives `done` are
performed up to a moment at which the surroundings are `c'` and `rest` is to be done. -/
inductive Walk (evaluate : Evaluator) :
    Surroundings → List Action → List Primitive → Surroundings → List Action → Prop
  | here (c : Surroundings) (todo : List Action) : Walk evaluate c todo [] c todo
  | perform {c next c' : Surroundings} {action : Action} {primitive : Primitive}
      {todo rest : List Action} {done : List Primitive}
      (hprimitive : action.primitive? = some primitive)
      (hperform : primitive.perform evaluate c = .ok next)
      (hwalk : Walk evaluate next todo done c' rest) :
      Walk evaluate c (action :: todo) (primitive :: done) c' rest
  | branch {c c' : Surroundings} {cond : String} {answer : Bool}
      {actions otherwise todo rest : List Action} {done : List Primitive}
      (hcond : evaluate.holds cond c.data = .ok answer)
      (hwalk : Walk evaluate c ((if answer then actions else otherwise) ++ todo) done c' rest) :
      Walk evaluate c (.branch cond actions otherwise :: todo) done c' rest

/-- An action that cannot be run: a primitive with its own error, or a branch with the error of
its condition. -/
inductive Fails (evaluate : Evaluator) (c : Surroundings) : Action → ActionError → Prop
  | primitive {action : Action} {primitive : Primitive} {error : ActionError}
      (hprimitive : action.primitive? = some primitive)
      (hperform : primitive.perform evaluate c = .error error) : Fails evaluate c action error
  | condition {cond : String} {actions otherwise : List Action} {error : ExpressionError}
      (hcond : evaluate.holds cond c.data = .error error) :
      Fails evaluate c (.branch cond actions otherwise) (.expression error)

/-- Where a block ends: with nothing to be done if there was no failure, and in front of the
action that fails if there was one. -/
def EndsAt (evaluate : Evaluator) (c : Surroundings) (rest : List Action) :
    Option ActionError → Prop
  | none => rest = []
  | some error => ∃ action later, rest = action :: later ∧ Fails evaluate c action error

variable {evaluate : Evaluator} {c c₁ c₂ : Surroundings} {todo rest : List Action}

/-- A walk of no steps. -/
theorem Walk.of_eq (h : c₁ = c) : Walk evaluate c todo [] c₁ todo := by
  rw [h]
  exact .here c todo

theorem Walk.trans {done more : List Primitive} {last : List Action}
    (h : Walk evaluate c todo done c₁ rest) (h' : Walk evaluate c₁ rest more c₂ last) :
    Walk evaluate c todo (done ++ more) c₂ last := by
  induction h with
  | here c todo => exact h'
  | perform hprimitive hperform _ ih => exact .perform hprimitive hperform (ih h')
  | branch hcond _ ih => exact .branch hcond (ih h')

/-- A walk performs its primitives in order. -/
theorem Walk.performAll {done : List Primitive} (h : Walk evaluate c todo done c₁ rest) :
    Primitive.performAll evaluate c done = .ok c₁ := by
  induction h with
  | here c todo => rfl
  | perform _ hperform _ ih =>
      rw [Primitive.performAll, List.foldlM_cons]
      exact bind_eq_ok.2 ⟨_, hperform, ih⟩
  | branch _ _ ih => exact ih

/-- Nothing is performed where a block ends. -/
theorem Walk.eq_of_endsAt {done : List Primitive} {last : List Action}
    {failure : Option ActionError} (h : Walk evaluate c rest done c₁ last)
    (hends : EndsAt evaluate c rest failure) : done = [] ∧ c₁ = c ∧ last = rest := by
  cases failure with
  | none =>
      obtain rfl : rest = [] := hends
      cases h with
      | here => exact ⟨rfl, rfl, rfl⟩
  | some error =>
      obtain ⟨action, later, rfl, hfails⟩ := hends
      cases h with
      | here => exact ⟨rfl, rfl, rfl⟩
      | perform hprimitive hperform _ =>
          cases hfails with
          | primitive hprimitive' hperform' => simp_all
          | condition _ => cases hprimitive
      | branch hcond _ =>
          cases hfails with
          | primitive hprimitive' _ => cases hprimitive'
          | condition hcond' => simp_all

/-- A walk that has come to an end goes through every moment that can be reached at all. -/
theorem Walk.resume {done before : List Primitive} {middle : List Action}
    {failure : Option ActionError} (h : Walk evaluate c todo done c₁ rest)
    (hends : EndsAt evaluate c₁ rest failure) (h' : Walk evaluate c todo before c₂ middle) :
    ∃ more, done = before ++ more ∧ Walk evaluate c₂ middle more c₁ rest := by
  induction h' generalizing done with
  | here c todo => exact ⟨done, rfl, h⟩
  | perform hprimitive hperform hwalk ih =>
      cases h with
      | here =>
          obtain ⟨hnil, -, -⟩ := (Walk.perform hprimitive hperform hwalk).eq_of_endsAt hends
          cases hnil
      | perform hprimitive' hperform' hwalk' =>
          obtain rfl := Option.some.inj (hprimitive.symm.trans hprimitive')
          obtain rfl := Except.ok.inj (hperform.symm.trans hperform')
          obtain ⟨more, rfl, hmore⟩ := ih hwalk'
          exact ⟨more, rfl, hmore⟩
      | branch _ _ => cases hprimitive
  | branch hcond hwalk ih =>
      cases h with
      | here =>
          obtain ⟨rfl, rfl, rfl⟩ := (Walk.branch hcond hwalk).eq_of_endsAt hends
          exact ⟨[], rfl, .here _ _⟩
      | perform hprimitive' _ _ => cases hprimitive'
      | branch hcond' hwalk' =>
          obtain rfl := Except.ok.inj (hcond.symm.trans hcond')
          exact ih hwalk'

/-! ## Running a block -/

namespace Action

mutual

/-- Holds of an action that is no action of the host and holds none. -/
def isBuiltin : Action → Bool
  | branch _ actions otherwise => allBuiltin actions && allBuiltin otherwise
  | custom _ _ _ => false
  | log _ _ | assign _ _ | raise _ | send _ _ | exitReport _ _ => true

/-- Holds of a block of such actions. -/
def allBuiltin : List Action → Bool
  | [] => true
  | action :: rest => action.isBuiltin && allBuiltin rest

end

/-- The engine collects the named variables one by one into the object. -/
theorem gather_eq (data : DataModel) (names : List String) (fields : Fields Value) :
    gather data names fields = do
      let pairs ← names.mapM (Primitive.named data)
      return pairs.foldl (fun fields pair => Fields.put pair.1 pair.2 fields) fields := by
  induction names generalizing fields with
  | nil => rfl
  | cons name rest ih =>
      rw [gather, List.mapM_cons, Primitive.named]
      cases data.get? name with
      | none => rfl
      | some v =>
          dsimp only
          rw [ih]
          cases rest.mapM (Primitive.named data) <;> rfl

/-- The completion data as the engine puts it together once the expression has a value. -/
def collected (data : DataModel) (names : List String) (value : Option Value) :
    Except ActionError Value :=
  if names.isEmpty then .ok (value.getD .null)
  else
    match gather data names [] with
    | .error e => .error e
    | .ok fields =>
      match value with
      | none => .ok (.obj fields)
      | some v => .ok (.obj (Fields.put "expr" v fields))

theorem collected_eq (data : DataModel) (names : List String) (value : Option Value) :
    collected data names value = do
      if names = [] then return value.getD .null
      let fields ← names.mapM (Primitive.named data)
      return .ofFields (fields ++ value.toList.map ("expr", ·)) := by
  cases names with
  | nil => rfl
  | cons name rest =>
      simp only [collected, gather_eq, List.isEmpty_cons, Bool.false_eq_true, if_false,
        reduceCtorEq]
      cases (name :: rest).mapM (Primitive.named data) with
      | error e => rfl
      | ok fields =>
          cases value <;> simp [bind, Except.bind, pure, Except.pure, Value.ofFields, Fields.ofList]

theorem completionData_eq (evaluate : Evaluator) (data : DataModel) (state : String)
    (expr : Option String) (names : List String) :
    completionData ⟨data, evaluate, state⟩ expr names =
      Primitive.exitValue evaluate data expr names := by
  cases expr with
  | none => exact collected_eq data names none
  | some expr =>
      simp only [completionData, Primitive.exitValue, Primitive.value?, View.value]
      cases evaluate expr data with
      | error e => rfl
      | ok v => exact collected_eq data names (some v)

/-- A primitive is all or nothing. -/
theorem run_primitive {action : Action} {primitive : Primitive}
    (h : action.primitive? = some primitive) (evaluate : Evaluator) (c : Surroundings)
    (state : String) :
    match primitive.perform evaluate c with
    | .ok next => (run ⟨c.data, evaluate, state⟩ action).failure = none ∧
        c.take (run ⟨c.data, evaluate, state⟩ action) = next
    | .error error => run ⟨c.data, evaluate, state⟩ action = .failing c.data error := by
  cases action with
  | log label expr =>
      obtain rfl := Option.some.inj h
      cases expr with
      | none => exact ⟨rfl, by simp [run, runLog, Surroundings.take, ReportLog.pushAll]⟩
      | some expr =>
          simp only [Primitive.perform, Primitive.value?, run, runLog, View.value]
          cases evaluate expr c.data with
          | error e => rfl
          | ok v => exact ⟨rfl, by simp [Surroundings.take, ReportLog.pushAll]⟩
  | assign location expr =>
      obtain rfl := Option.some.inj h
      simp only [Primitive.perform, run, runAssign, View.value]
      cases evaluate expr c.data with
      | error e => rfl
      | ok v =>
          have hvalue : (Except.ok v : Except ExpressionError Value).mapError
              ActionError.expression = .ok v := rfl
          simp only [hvalue, bind, Except.bind]
          cases c.data.assign location v with
          | error e => rfl
          | ok data => exact ⟨rfl, by simp [Surroundings.take, Outcome.idle, ReportLog.pushAll]⟩
  | raise event =>
      obtain rfl := Option.some.inj h
      exact ⟨rfl, by simp [run, Surroundings.take, ReportLog.pushAll, Event.plain]⟩
  | send event expr =>
      obtain rfl := Option.some.inj h
      cases expr with
      | none =>
          exact ⟨rfl, by simp [run, runSend, Surroundings.take, ReportLog.pushAll, Event.plain]⟩
      | some expr =>
          simp only [Primitive.perform, Primitive.value?, run, runSend, View.value]
          cases evaluate expr c.data with
          | error e => rfl
          | ok v =>
              exact ⟨rfl, by simp [Surroundings.take, ReportLog.pushAll, Event.carrying]⟩
  | exitReport expr names =>
      obtain rfl := Option.some.inj h
      simp only [Primitive.perform, run, runExitReport, completionData_eq]
      cases Primitive.exitValue evaluate c.data expr names with
      | error e => rfl
      | ok v => exact ⟨rfl, by simp [Surroundings.take, ReportLog.pushAll]⟩
  | branch cond actions otherwise => cases h
  | custom space name run => cases h

end Action

/-- An action that fails does nothing but fail. -/
theorem Fails.run_eq {action : Action} {error : ActionError} (h : Fails evaluate c action error)
    (state : String) :
    Action.run ⟨c.data, evaluate, state⟩ action = .failing c.data error := by
  cases h with
  | primitive hprimitive hperform =>
      have hrun := Action.run_primitive hprimitive evaluate c state
      rwa [hperform] at hrun
  | condition hcond => simp [Action.run, View.holds, hcond, Outcome.misvalued]

/-- Running content with `todo` behind it follows a walk: up to `todo` if it succeeds, and
otherwise up to an action that fails with the error. -/
inductive Follows (evaluate : Evaluator) (c : Surroundings) (content todo : List Action)
    (outcome : Outcome) : Prop
  | ends {done : List Primitive} (hnone : outcome.failure = none)
      (hwalk : Walk evaluate c (content ++ todo) done (c.take outcome) todo)
  | stops {done : List Primitive} {action : Action} {later : List Action} {error : ActionError}
      (hsome : outcome.failure = some error)
      (hwalk : Walk evaluate c (content ++ todo) done (c.take outcome) (action :: later))
      (hfails : Fails evaluate (c.take outcome) action error)

theorem Follows.append {content more : List Action} {first : Outcome}
    {next : DataModel → Outcome} (hfirst : Follows evaluate c content (more ++ todo) first)
    (hnext : Follows evaluate (c.take first) more todo (next first.data)) :
    Follows evaluate c (content ++ more) todo (first.andThen next) := by
  cases hfirst with
  | ends hnone hwalk =>
      have hfailure : (first.andThen next).failure = (next first.data).failure := by
        simp [Outcome.andThen, hnone]
      have htake := Surroundings.take_andThen (c := c) hnone next
      rw [← List.append_assoc] at hwalk
      cases hnext with
      | ends hnone' hwalk' =>
          exact .ends (hfailure.trans hnone') (htake ▸ hwalk.trans hwalk')
      | stops hsome hwalk' hfails =>
          exact .stops (hfailure.trans hsome) (htake ▸ hwalk.trans hwalk') (htake ▸ hfails)
  | stops hsome hwalk hfails =>
      rw [Outcome.andThen_of_failure hsome]
      exact .stops hsome (List.append_assoc content more todo ▸ hwalk) hfails

/-- What fails without having done anything stops where it stands. -/
theorem Follows.of_fails {action : Action} {error : ActionError}
    (h : Fails evaluate c action error) :
    Follows evaluate c [action] todo (.failing c.data error) :=
  .stops rfl (.of_eq (Surroundings.take_failing c error))
    ((Surroundings.take_failing c error).symm ▸ h)

/-- A branch goes the way of the side that is chosen. -/
theorem Follows.branch {cond : String} {actions otherwise : List Action} {answer : Bool}
    {outcome : Outcome} (hcond : evaluate.holds cond c.data = .ok answer)
    (h : Follows evaluate c (if answer then actions else otherwise) todo outcome) :
    Follows evaluate c [.branch cond actions otherwise] todo outcome := by
  cases h with
  | ends hnone hwalk => exact .ends hnone (.branch hcond hwalk)
  | stops hsome hwalk hfails => exact .stops hsome (.branch hcond hwalk) hfails

namespace Action

theorem follows_primitive {action : Action} {primitive : Primitive}
    (h : action.primitive? = some primitive) (state : String) :
    Follows evaluate c [action] todo (run ⟨c.data, evaluate, state⟩ action) := by
  cases hperform : primitive.perform evaluate c with
  | error error =>
      have hfails := Fails.primitive h hperform
      exact hfails.run_eq state ▸ .of_fails hfails
  | ok next =>
      have hrun := run_primitive h evaluate c state
      rw [hperform] at hrun
      obtain ⟨hnone, rfl⟩ := hrun
      exact .ends hnone (.perform h hperform (.here _ todo))

mutual

theorem follows_run {action : Action} (h : action.isBuiltin = true) (c : Surroundings)
    (todo : List Action) (state : String) :
    Follows evaluate c [action] todo (run ⟨c.data, evaluate, state⟩ action) := by
  cases action with
  | log label expr => exact follows_primitive rfl state
  | assign location expr => exact follows_primitive rfl state
  | raise event => exact follows_primitive rfl state
  | send event expr => exact follows_primitive rfl state
  | exitReport expr names => exact follows_primitive rfl state
  | branch cond actions otherwise =>
      obtain ⟨hactions, hotherwise⟩ := Bool.and_eq_true_iff.1 h
      have hthen := follows_runBlock hactions c todo state
      have helse := follows_runBlock hotherwise c todo state
      cases hcond : evaluate.holds cond c.data with
      | error e =>
          have hfails : Fails evaluate c (.branch cond actions otherwise) (.expression e) :=
            .condition hcond
          exact hfails.run_eq state ▸ .of_fails hfails
      | ok answer =>
          simp only [run, View.holds, hcond]
          cases answer with
          | true => exact .branch hcond hthen
          | false => exact .branch hcond helse
  | custom space name run => cases h

/-- Running a block of built-in actions follows a walk, by the recursion of the block. -/
theorem follows_runBlock {block : List Action} (h : allBuiltin block = true) (c : Surroundings)
    (todo : List Action) (state : String) :
    Follows evaluate c block todo (runBlock ⟨c.data, evaluate, state⟩ block) := by
  cases block with
  | nil => exact .ends rfl (.of_eq (Surroundings.take_idle c))
  | cons action rest =>
      obtain ⟨haction, hrest⟩ := Bool.and_eq_true_iff.1 h
      have hfirst := follows_run haction c (rest ++ todo) state
      exact hfirst.append (follows_runBlock hrest _ todo state)

end

end Action

namespace Session

/-- A session takes over from a block of built-in actions exactly what the primitives did that
were reached, in order and through the branches taken: all of them if the block succeeds, and
otherwise those before the action that fails, which itself does nothing. -/
theorem keeps_effects_before_failure {block : List Action}
    (hblock : Action.allBuiltin block = true) (s : Session) (state : String) :
    let outcome := Action.runBlock ⟨s.data, s.evaluate, state⟩ block
    let after := (s.absorb outcome).surroundings
    ∃ done rest, Walk s.evaluate s.surroundings block done after rest ∧
      Primitive.performAll s.evaluate s.surroundings done = .ok after ∧
      EndsAt s.evaluate after rest outcome.failure ∧
      ∀ before c todo, Walk s.evaluate s.surroundings block before c todo →
        ∃ more, done = before ++ more ∧ Walk s.evaluate c todo more after rest := by
  intro outcome after
  have hafter : after = s.surroundings.take outcome := surroundings_absorb s outcome
  obtain ⟨done, rest, hwalk, hends⟩ : ∃ done rest,
      Walk s.evaluate s.surroundings block done after rest ∧
        EndsAt s.evaluate after rest outcome.failure := by
    rw [hafter]
    cases Action.follows_runBlock hblock s.surroundings [] state with
    | ends hnone hwalk =>
        rw [List.append_nil] at hwalk
        exact ⟨_, _, hwalk, hnone ▸ rfl⟩
    | stops hsome hwalk hfails =>
        rw [List.append_nil] at hwalk
        exact ⟨_, _, hwalk, hsome ▸ ⟨_, _, rfl, hfails⟩⟩
  exact ⟨done, rest, hwalk, hwalk.performAll, hends, fun _ _ _ h => hwalk.resume hends h⟩

/-- The failure of an inner branch, which is taken because of what the block wrote before: what
is written and raised up to there stays, and nothing behind it happens. -/
theorem keeps_effects_before_failure_nested :
    let s := { ofModel default {} .standard with data := .mk [("x", .bool false)] }
    let block : List Action := [.assign "x" "true",
      .branch "x" [.raise "a", .branch "x" [.log none (some "y"), .raise "b"] [], .raise "c"] [],
      .send "d" none]
    let outcome := Action.runBlock ⟨s.data, s.evaluate, "state"⟩ block
    let after := (s.absorb outcome).surroundings
    Action.allBuiltin block = true ∧
      outcome.failure = some (.expression (.undefined "y")) ∧
      after.internal.map Event.name = ["a"] ∧ after.derived.map Event.name = [] ∧
      ∃ done rest, Walk s.evaluate s.surroundings block done after rest ∧
        Primitive.performAll s.evaluate s.surroundings done = .ok after ∧
        EndsAt s.evaluate after rest outcome.failure ∧
        ∀ before c todo, Walk s.evaluate s.surroundings block before c todo →
          ∃ more, done = before ++ more ∧ Walk s.evaluate c todo more after rest := by
  intro s block outcome after
  exact ⟨rfl, rfl, rfl, rfl, keeps_effects_before_failure rfl s "state"⟩

end Session
end Statechart
