import Statechart.Action.Block
import Statechart.Config.Basic
import Statechart.Engine.Domain
import Statechart.Engine.Status

/-!
# Sessions

A session is one run of a model: the active states, the data model, two queues
of events, and what was reported and written so far.  Internal events are
processed before derived ones.

A session also keeps a journal of what the engine did, newest entry first.  The
engine never reads it.
-/

namespace Statechart

/-- Why a call on a session fails. -/
inductive ExecutionError where
  | notStarted
  | alreadyStarted
  | halted
  | expression (error : ExpressionError)
  | action (error : ActionError)
  | microstepLimit (limit : Nat)
  deriving Repr, DecidableEq

namespace ExecutionError

/-- The message of an execution error. -/
def message : ExecutionError → String
  | notStarted => "executor has not been started"
  | alreadyStarted => "executor has already been started"
  | halted => "executor is halted after an engine invariant violation"
  | expression error => "macrostep aborted: " ++ error.message
  | action error => "macrostep aborted: " ++ error.message
  | microstepLimit limit =>
    "microstep limit of " ++ toString limit ++ " exceeded; the chart does not settle"

/-- A stable code for the kind of error. -/
def code : ExecutionError → String
  | notStarted => "BAD_REQUEST"
  | alreadyStarted => "BAD_REQUEST"
  | halted => "ENGINE_INVARIANT"
  | expression _ => "EXPRESSION_ERROR"
  | action _ => "ACTION_ERROR"
  | microstepLimit _ => "ENGINE_INVARIANT"

/-- Holds if the session cannot be used any more. -/
def isFatal : ExecutionError → Bool
  | halted => true
  | microstepLimit _ => true
  | _ => false

/-- The error that a failed action ends a macrostep with. -/
def ofAction : ActionError → ExecutionError
  | .expression error => .expression error
  | error => .action error

end ExecutionError

/-- The two queues of a session. -/
inductive Queue where
  | internal
  | derived
  deriving Repr, DecidableEq

/-- The blocks of content that the engine runs. -/
inductive Block where
  | onExit (state : Nat)
  | onTransition (transition : TransitionRef)
  | onEntry (state : Nat)
  deriving Repr, DecidableEq

/-- What the engine notes in the journal. -/
inductive Note where
  /-- Transitions were selected for an event, or without one. -/
  | selected (event : Option Event) (transitions : List TransitionRef)
  /-- A microstep takes transitions. -/
  | stepped (transitions : List TransitionRef)
  /-- A block runs while the given states are active. -/
  | ran (block : Block) (active : StateSet)
  | blockFailed (block : Block) (error : ActionError)
  | guardFailed (transition : TransitionRef) (error : ExpressionError)
  | queued (queue : Queue) (event : Event)
  | dequeued (queue : Queue) (event : Event)
  | exited (state : Nat)
  | entered (state : Nat)
  /-- A state is complete while the given states are active. -/
  | completed (state : Nat) (active : StateSet)

/-- One run of a model. -/
structure Session where
  model : Model
  config : Config
  evaluate : Evaluator
  phase : Phase
  /-- The active states, the root left out. -/
  active : StateSet
  data : DataModel
  internal : List Event
  derived : List Event
  reports : ReportLog
  output : List Output
  completion : Option Value
  /-- Holds once a top-level final state was entered. -/
  isTopFinal : Bool
  /-- The first failure of a macrostep that is to be aborted. -/
  pending : Option ExecutionError
  /-- The transitions whose guards failed in the current macrostep. -/
  failedGuards : List TransitionRef
  journal : List Note

namespace Session

/-- A session that is not started. -/
def ofModel (model : Model) (config : Config) (evaluate : Evaluator) : Session where
  model := model
  config := config
  evaluate := evaluate
  phase := .uninitialized
  active := []
  data := (DataModel.mk model.datamodel).declare DataModel.eventVariable .null
  internal := []
  derived := []
  reports := .ofBound config.maxReports
  output := []
  completion := none
  isTopFinal := false
  pending := none
  failedGuards := []
  journal := []

/-- The states of the model. -/
def arena (s : Session) : Arena := s.model.arena

/-- Changes the configuration, and with it the bound on reports. -/
def withConfig (s : Session) (config : Config) : Session :=
  { s with reports := s.reports.setBound config.maxReports, config := config }

/-- Replaces the evaluator of expressions. -/
def withEvaluator (s : Session) (evaluate : Evaluator) : Session := { s with evaluate := evaluate }

/-- Installs a hook for reports. -/
def withHook (s : Session) : Session := { s with reports := s.reports.withHook }

/-- The reports that are kept, and the session without them. -/
def takeReports (s : Session) : List Report × Session :=
  let (reports, log) := s.reports.drain
  (reports, { s with reports := log })

/-- The output so far, and the session without it. -/
def takeOutput (s : Session) : List Output × Session :=
  (s.output, { s with output := [] })

/-- What a session shows of itself. -/
def status (s : Session) : Status :=
  if s.phase = .uninitialized then .uninitialized
  else
    let id (i : Nat) : String := (s.arena.state i).id
    { leaves := (s.active.filter fun i => (s.arena.state i).isLeaf).map id
      active := s.active.map id
      phase := s.phase
      completion := s.completion }

/-! ## Small steps -/

/-- Notes something in the journal. -/
def note (s : Session) (entry : Note) : Session := { s with journal := entry :: s.journal }

/-- Adds a report. -/
def report (s : Session) (r : Report) : Session := { s with reports := s.reports.push r }

/-- Queues an internal event. -/
def raise (s : Session) (event : Event) : Session :=
  { s with internal := s.internal ++ [event] }.note (.queued .internal event)

/-- Queues a derived event. -/
def send (s : Session) (event : Event) : Session :=
  { s with derived := s.derived ++ [event] }.note (.queued .derived event)

/-- Makes an event the one that expressions see. -/
def setEvent (s : Session) (event : Event) : Session :=
  { s with data := s.data.declare DataModel.eventVariable event.toValue }

/-- Empties both queues. -/
def clearQueues (s : Session) : Session := { s with internal := [], derived := [] }

/-- Follows the policy for a failure that was reported with a message: it is
raised as an event, or it is what the macrostep will end with, unless there was
one before. -/
def fail (s : Session) (message : String) (error : ExecutionError) : Session :=
  match s.config.policy with
  | .skip => s.raise (.executionError message)
  | .abort => { s with pending := s.pending.or (some error) }

/-- Takes over what a block did. -/
def absorb (s : Session) (outcome : Outcome) : Session :=
  let s := { s with
    data := outcome.data
    reports := s.reports.pushAll outcome.reports
    output := s.output ++ outcome.output
    completion := outcome.completion.or s.completion }
  outcome.sent.foldl send (outcome.raised.foldl raise s)

/-- The kind of report on a failed action. -/
def failureKind : ActionError → ReportKind
  | .expression _ => .expression
  | .failed _ _ => .action

/-- Runs a block of content of a state, unless a failure is pending. -/
def runContent (s : Session) (block : Block) (state : Nat) (actions : List Action) : Session :=
  if s.pending.isSome then s
  else
    let s := s.note (.ran block s.active)
    if actions.isEmpty then s
    else
      let id := (s.arena.state state).id
      let outcome := Action.runBlock ⟨s.data, s.evaluate, id⟩ actions
      let s := s.absorb outcome
      match outcome.failure with
      | none => s
      | some error =>
        let message := error.message
        let s := s.note (.blockFailed block error)
        let s := s.report ⟨failureKind error, some id, message⟩
        s.fail message (.ofAction error)

end Session
end Statechart
