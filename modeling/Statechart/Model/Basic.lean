import Statechart.Action.Basic
import Statechart.Event.Pattern

/-!
# Models

A model is a chart in a form that can be run.  Its states stand in an arena in
document order, every state after the states around it, and are addressed by
their index; index `0` is a root above the top-level states.
-/

namespace Statechart

/-- The kinds of states. -/
inductive StateKind where
  | atomic
  | compound
  | parallel
  | final
  deriving Repr, DecidableEq, Inhabited

/-- A transition of a model. -/
structure Transition where
  source : Nat
  /-- The events it is taken on; without a pattern it is tried without an
  event. -/
  event : Option Event.Pattern
  cond : Option String
  target : Option Nat
  isInternal : Bool
  actions : List Action
  deriving Inhabited

/-- A state of a model. -/
structure StateNode where
  id : String
  kind : StateKind
  parent : Option Nat
  children : List Nat
  /-- The descendant that is entered by default. -/
  initial : Option Nat
  /-- Holds of a final state that stands for an exit. -/
  isAnonymous : Bool
  onEntry : List Action
  onExit : List Action
  transitions : List Transition
  deriving Inhabited

namespace StateNode

/-- Atomic and final states have no children. -/
def isLeaf (node : StateNode) : Bool :=
  node.kind == .atomic || node.kind == .final

def isFinal (node : StateNode) : Bool := node.kind == .final

def isParallel (node : StateNode) : Bool := node.kind == .parallel

def isCompound (node : StateNode) : Bool := node.kind == .compound

end StateNode

/-- The states of a model in document order. -/
abbrev Arena := Array StateNode

/-- The index of the root. -/
def Arena.root : Nat := 0

/-- The state at an index. -/
def Arena.state (arena : Arena) (s : Nat) : StateNode := arena.getD s default

/-- The index of the state with an identifier; the root has none. -/
def Arena.find? (arena : Arena) (id : String) : Option Nat :=
  (List.range' 1 (arena.size - 1)).find? fun s => (arena.state s).id == id

/-- The address of a transition: its source and its position there. -/
structure TransitionRef where
  source : Nat
  position : Nat
  deriving Repr, DecidableEq, Inhabited

/-- Document order of transitions: by source, then by position. -/
def TransitionRef.le (a b : TransitionRef) : Bool :=
  a.source < b.source || (a.source == b.source && a.position ≤ b.position)

/-- The transition at an address. -/
def Arena.transition (arena : Arena) (t : TransitionRef) : Transition :=
  (arena.state t.source).transitions[t.position]?.getD default

/-- A chart that can be run. -/
structure Model where
  name : String
  arena : Arena
  /-- The first values of the variables. -/
  datamodel : Fields Value
  /-- The checksum of the document. -/
  checksum : String
  deriving Inhabited

/-- The number of states, the root left out. -/
def Model.size (model : Model) : Nat := model.arena.size - 1

end Statechart
