import Statechart.Engine.Selection

/-!
# Microsteps

A microstep takes some transitions at once: it leaves states in reverse document
order, runs the actions of the transitions, and enters states in document order.
A state is left after its content has run and entered before.

Entering a final state completes its parent, and with it the parallel state
around that if all its children are complete.
-/

namespace Statechart
namespace Session

/-- Holds if a region is complete: a compound state with an active final child,
or a parallel state whose children are complete.  `fuel` bounds the depth. -/
def isCompleteUpTo (arena : Arena) (active : StateSet) : (fuel : Nat) → Nat → Bool
  | 0, _ => false
  | fuel + 1, i =>
    let node := arena.state i
    match node.kind with
    | .compound => node.children.any fun c => (arena.state c).isFinal && active.contains c
    | .parallel => node.children.all fun c => isCompleteUpTo arena active fuel c
    | .atomic => false
    | .final => false

/-- Holds if a region is complete. -/
def isComplete (s : Session) (i : Nat) : Bool :=
  isCompleteUpTo s.arena s.active s.arena.size i

/-- Raises the completion event of a state. -/
def complete (s : Session) (i : Nat) : Session :=
  (s.note (.completed i s.active)).raise (.completion (s.arena.state i).id)

/-- Follows the entry of a final state with the given parent. -/
def enteredFinal (s : Session) (parent : Nat) : Session :=
  if parent = Arena.root then { s with isTopFinal := true }
  else
    let s := s.complete parent
    match (s.arena.state parent).parent with
    | none => s
    | some around =>
      let node := s.arena.state around
      if node.isParallel && node.children.all s.isComplete then s.complete around else s

/-- Enters a state that is not active. -/
def enter (s : Session) (i : Nat) : Session :=
  if s.active.contains i then s
  else
    let node := s.arena.state i
    let s := { s with active := s.active.insert i }.note (.entered i)
    let s := s.runContent (.onEntry i) i node.onEntry
    if node.isFinal then
      match node.parent with
      | none => s
      | some parent => s.enteredFinal parent
    else s

/-- Enters states in document order. -/
def enterAll (s : Session) (states : StateSet) : Session := states.foldl enter s

/-- Leaves a state. -/
def exit (s : Session) (i : Nat) : Session :=
  let s := s.runContent (.onExit i) i (s.arena.state i).onExit
  { s with active := s.active.erase i }.note (.exited i)

/-- Runs the actions of a transition. -/
def act (s : Session) (t : TransitionRef) : Session :=
  s.runContent (.onTransition t) t.source (s.arena.transition t).actions

/-- Takes some transitions at once. -/
def microstep (s : Session) (ts : List TransitionRef) : Session :=
  let s := s.note (.stepped ts)
  let s := (s.arena.exitSets s.active ts).reverse.foldl exit s
  let s := ts.foldl act s
  s.enterAll (s.arena.entrySet ts)

end Session
end Statechart
