import Statechart.Engine.Entry

/-!
# Which states are left

The domain of a transition is the state whose active descendants it leaves: the
source for an internal transition from a compound state to a descendant, and the
least common compound ancestor of source and target otherwise.  A transition
without a target has no domain and leaves nothing.
-/

namespace Statechart
namespace Arena

/-- The domain of a transition. -/
def domain? (arena : Arena) (t : TransitionRef) : Option Nat :=
  let transition := arena.transition t
  transition.target.map fun target =>
    if transition.isInternal && (arena.state t.source).isCompound &&
        arena.isDescendant target t.source then
      t.source
    else arena.commonAncestor [t.source, target]

/-- The active states that a transition leaves. -/
def exitSet (arena : Arena) (active : StateSet) (t : TransitionRef) : StateSet :=
  match arena.domain? t with
  | none => []
  | some domain => active.filter fun s => arena.isDescendant s domain

/-- The active states that some transitions leave. -/
def exitSets (arena : Arena) (active : StateSet) (ts : List TransitionRef) : StateSet :=
  let sets := ts.map (arena.exitSet active)
  active.filter fun s => sets.any fun set => set.contains s

/-- The states that some transitions enter. -/
def entrySet (arena : Arena) (ts : List TransitionRef) : StateSet :=
  ts.foldl (fun set t =>
    match (arena.transition t).target, arena.domain? t with
    | some target, some domain => arena.enterTarget target domain set
    | _, _ => set) []

/-! ## Conflicts -/

/-- A transition with the states it leaves. -/
structure Exiting where
  transition : TransitionRef
  exits : StateSet

/-- Holds if two transitions leave a common state. -/
def Exiting.meets (a b : Exiting) : Bool := a.exits.any b.exits.contains

/-- The kept transitions that remain beside `new`: those with an inner source
that leave a common state give way.  `none` if `new` has to give way itself. -/
def challenge (arena : Arena) (new : Exiting) : List Exiting → Option (List Exiting)
  | [] => some []
  | kept :: rest =>
    if !new.meets kept then (challenge arena new rest).map (kept :: ·)
    else if arena.isDescendant kept.transition.source new.transition.source then
      challenge arena new rest
    else none

/-- Keeps transitions of which no two leave a common state. -/
def keep (arena : Arena) (active : StateSet) (ts : List TransitionRef) : List Exiting :=
  ts.foldl (fun kept t =>
    let new : Exiting := ⟨t, arena.exitSet active t⟩
    match arena.challenge new kept with
    | none => kept
    | some remaining => remaining ++ [new]) []

/-- Puts a transition into a list in document order. -/
def insertInOrder (t : TransitionRef) : List TransitionRef → List TransitionRef
  | [] => [t]
  | u :: rest => if t.le u then t :: u :: rest else u :: insertInOrder t rest

/-- Transitions in document order. -/
def inOrder (ts : List TransitionRef) : List TransitionRef := ts.foldr insertInOrder []

/-- The transitions that are taken out of some enabled ones, in document
order. -/
def withoutConflicts (arena : Arena) (active : StateSet) (ts : List TransitionRef) :
    List TransitionRef :=
  inOrder ((arena.keep active ts).map Exiting.transition)

end Arena
end Statechart
