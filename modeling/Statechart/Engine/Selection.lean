import Statechart.Engine.Session

/-!
# Selecting transitions

For an event, or without one, each active leaf chooses the first transition that
fits and whose guard holds, going from the leaf outwards and at each state in
the order of declaration.  Conflicts between the chosen transitions are then
resolved.

A guard that fails counts as false.  The failure is reported once in a
macrostep, so that a transition without an event cannot raise errors for ever.
-/

namespace Statechart

/-- Holds if a transition is tried on an event, or without one. -/
def Transition.fits (t : Transition) (event : Option Event) : Bool :=
  match event, t.event with
  | none, none => true
  | some event, some pattern => pattern.covers event.name
  | _, _ => false

namespace Session

/-- Reports a guard that failed and follows the policy. -/
def guardFailed (s : Session) (t : TransitionRef) (cond : String) (error : ExpressionError) :
    Session :=
  let message := "guard '" ++ cond ++ "' failed: " ++ error.message
  let s := { s with failedGuards := t :: s.failedGuards }.note (.guardFailed t error)
  let s := s.report ⟨.expression, some (s.arena.state t.source).id, message⟩
  s.fail message (.expression error)

/-- Evaluates the guard of a transition. -/
def guardHolds (s : Session) (t : TransitionRef) (cond : Option String) : Bool × Session :=
  match cond with
  | none => (true, s)
  | some cond =>
    match s.evaluate.holds cond s.data with
    | .ok answer => (answer, s)
    | .error error =>
      if s.failedGuards.contains t then (false, s) else (false, s.guardFailed t cond error)

/-- The first of some transitions of a state that fits and whose guard holds;
`position` is the position of the first one. -/
def chooseAt (s : Session) (event : Option Event) (source position : Nat) :
    List Transition → Option TransitionRef × Session
  | [] => (none, s)
  | t :: rest =>
    if t.fits event then
      match s.guardHolds ⟨source, position⟩ t.cond with
      | (true, s) => (some ⟨source, position⟩, s)
      | (false, s) => s.chooseAt event source (position + 1) rest
    else s.chooseAt event source (position + 1) rest

/-- The first transition along some states that fits and whose guard holds. -/
def chooseAlong (s : Session) (event : Option Event) :
    List Nat → Option TransitionRef × Session
  | [] => (none, s)
  | source :: rest =>
    match s.chooseAt event source 0 (s.arena.state source).transitions with
    | (some t, s) => (some t, s)
    | (none, s) => s.chooseAlong event rest

/-- The transitions that some leaves choose, each one once. -/
def chooseAll (s : Session) (event : Option Event) (chosen : List TransitionRef) :
    List Nat → List TransitionRef × Session
  | [] => (chosen, s)
  | leaf :: rest =>
    match s.chooseAlong event (leaf :: s.arena.ancestors leaf) with
    | (none, s) => s.chooseAll event chosen rest
    | (some t, s) =>
      s.chooseAll event (if chosen.contains t then chosen else chosen ++ [t]) rest

/-- The active leaves. -/
def leaves (s : Session) : StateSet :=
  s.active.filter fun i => (s.arena.state i).isLeaf

/-- The transitions to take on an event, or without one, in document order. -/
def select (s : Session) (event : Option Event) : List TransitionRef × Session :=
  let (chosen, s) := s.chooseAll event [] s.leaves
  let taken := s.arena.withoutConflicts s.active chosen
  (taken, s.note (.selected event taken))

end Session
end Statechart
