import Statechart.Engine.StateSet
import Statechart.Model.Hierarchy

/-!
# Which states are entered

Entering a state enters its default descendants: the initial state of a compound
state with the states on the way to it, and all children of a parallel state.
Entering a target also enters the states between it and a domain, and the other
children of those among them that are parallel.

Every step goes from a state to a proper descendant, which has a greater index,
so the number of states bounds the depth.
-/

namespace Statechart
namespace Arena

/-- Holds if a state or one of its descendants is in a set. -/
def isCovered (arena : Arena) (set : StateSet) (s : Nat) : Bool :=
  set.any fun t => t == s || arena.isDescendant t s

/-- Enters the children that are not covered; `enter` enters one. -/
def enterChildren (arena : Arena) (enter : Nat → StateSet → StateSet)
    (children : List Nat) (set : StateSet) : StateSet :=
  children.foldl (fun set child =>
    if arena.isCovered set child then set else enter child set) set

/-- The proper ancestors of a state below a domain. -/
def between (arena : Arena) (s domain : Nat) : List Nat :=
  (arena.ancestors s).takeWhile fun a => a != domain && a != root

/-- Enters the ancestors of a state below a domain; `enter` enters a child of a
parallel one. -/
def enterBetween (arena : Arena) (enter : Nat → StateSet → StateSet)
    (s domain : Nat) (set : StateSet) : StateSet :=
  (arena.between s domain).foldl (fun set a =>
    let node := arena.state a
    let set := set.insert a
    if node.isParallel then arena.enterChildren enter node.children set else set) set

/-- Enters a state with its default descendants, at most `fuel` levels deep. -/
def enterDefault (arena : Arena) : (fuel : Nat) → Nat → StateSet → StateSet
  | 0, s, set => set.insert s
  | fuel + 1, s, set =>
    let node := arena.state s
    let set := set.insert s
    let enter := arena.enterDefault fuel
    match node.kind with
    | .compound =>
      match node.initial with
      | none => set
      | some initial => arena.enterBetween enter initial s (enter initial set)
    | .parallel => arena.enterChildren enter node.children set
    | .atomic => set
    | .final => set

/-- Enters a state with its default descendants. -/
def enterState (arena : Arena) (s : Nat) (set : StateSet) : StateSet :=
  arena.enterDefault arena.size s set

/-- Enters the target of a transition with the given domain. -/
def enterTarget (arena : Arena) (target domain : Nat) (set : StateSet) : StateSet :=
  arena.enterBetween arena.enterState target domain (arena.enterState target set)

/-- The states that are active when a chart starts. -/
def initialStates (arena : Arena) : StateSet :=
  (arena.enterState root []).erase root

end Arena
end Statechart
