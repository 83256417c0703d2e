import Statechart.Engine.Microstep

/-!
# Macrosteps

`start` enters the initial states and `submit` processes an event; both go on
until the chart is stable, that is, until no transition without an event is
enabled and both queues are empty, or until it is final.  Every round counts
against the bound on microsteps, and a chart that exceeds it is halted.

Under the abort policy the first failure ends the macrostep after the microstep
in which it happened.
-/

namespace Statechart
namespace Session

/-- Holds if the chart is complete: a top-level final state was entered, or all
active leaves are final and no active state has a transition. -/
def isFinalConfiguration (s : Session) : Bool :=
  s.isTopFinal ||
    (!s.active.isEmpty && s.active.all fun i =>
      let node := s.arena.state i
      (!node.isLeaf || node.isFinal) && node.transitions.isEmpty)

/-- Ends the session if the chart is complete. -/
def checkFinal (s : Session) : Session :=
  if s.isFinalConfiguration then { s with phase := .final }.clearQueues else s

/-- How a call on a session ends: with an error or without, and the session
afterwards. -/
abbrev Result := Option ExecutionError × Session

/-- Ends the macrostep with the failure that is pending. -/
def abort (s : Session) (error : ExecutionError) : Result :=
  (some error, { s with pending := none }.clearQueues.checkFinal)

/-- Ends the macrostep because the bound is exceeded. -/
def halt (s : Session) : Result :=
  (some (.microstepLimit s.config.maxMicrosteps),
    { s with phase := .halted }.clearQueues)

/-- The event to process next, internal events first. -/
def dequeue (s : Session) : Option (Event × Session) :=
  match s.internal, s.derived with
  | event :: rest, _ =>
    some (event, { s with internal := rest }.note (.dequeued .internal event))
  | [], event :: rest =>
    some (event, { s with derived := rest }.note (.dequeued .derived event))
  | [], [] => none

/-- What a round of a macrostep comes to. -/
inductive Round where
  /-- The macrostep is over. -/
  | over (result : Result)
  /-- The given transitions are to be taken, if any. -/
  | take (ts : List TransitionRef) (s : Session)

/-- Processes the next event, if no failure is pending. -/
def nextEvent (s : Session) : Round :=
  match s.dequeue with
  | none => .over (none, s)
  | some (event, s) =>
    let (ts, s) := (s.setEvent event).select (some event)
    match s.pending with
    | some error => .over (s.abort error)
    | none => .take ts s

/-- Looks for the transitions of a round: those without an event, or else those
for the next event. -/
def round (s : Session) : Round :=
  if s.isFinalConfiguration then .over (none, s.checkFinal)
  else
    let (ts, s) := s.select none
    match s.pending with
    | some error => .over (s.abort error)
    | none => if ts.isEmpty then s.nextEvent else .take ts s

/-- Takes the transitions of a round, if any. -/
def takeAll (s : Session) (ts : List TransitionRef) : Session :=
  if ts.isEmpty then s else s.microstep ts

/-- Runs rounds until the macrostep is over; `budget` is the number of
microsteps that are left. -/
def settle : (budget : Nat) → Session → Result
  | 0, s =>
    match s.round with
    | .over result => result
    | .take _ s => s.halt
  | budget + 1, s =>
    match s.round with
    | .over result => result
    | .take ts s =>
      let s := s.takeAll ts
      match s.pending with
      | some error => s.abort error
      | none => settle budget s

/-- Runs a macrostep that begins with the given transitions. -/
def macrostep (s : Session) (first : List TransitionRef) : Result :=
  match s.pending with
  | some error => s.abort error
  | none =>
    if first.isEmpty then settle s.config.maxMicrosteps s
    else
      match s.config.maxMicrosteps with
      | 0 => s.halt
      | budget + 1 =>
        let s := s.microstep first
        match s.pending with
        | some error => s.abort error
        | none => settle budget s

/-- Enters the initial states and runs until the chart is stable. -/
def start (s : Session) : Result :=
  if s.phase = .uninitialized then
    let s := { s with phase := .running, failedGuards := [] }
    (s.enterAll s.arena.initialStates).macrostep []
  else (some .alreadyStarted, s)

/-- The report on an event for a chart that is complete. -/
def ignoredReport (event : Event) : Report :=
  ⟨.warning, none, "event '" ++ event.name ++ "' ignored: chart is already final"⟩

/-- Processes an event in a running session. -/
def process (s : Session) (event : Event) : Result :=
  let s := { s with failedGuards := [] }
  let before := (s.data.get? DataModel.eventVariable).getD .null
  let (ts, s) := (s.setEvent event).select (some event)
  if ts.isEmpty && s.pending.isNone && s.internal.isEmpty then
    let s := { s with data := s.data.declare DataModel.eventVariable before }
    (none, s.checkFinal)
  else s.macrostep ts

/-- Submits an event. -/
def submit (s : Session) (event : Event) : Result :=
  match s.phase with
  | .uninitialized => (some .notStarted, s)
  | .halted => (some .halted, s)
  | .final => (none, s.report (ignoredReport event))
  | .running => s.process event

end Session
end Statechart
