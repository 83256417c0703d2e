import Statechart.Value

/-!
# Chart documents

A document describes a chart: variables with their first values and a tree of
states.  A leaf of the tree may be an exit, which stands for a final state
without a name of its own that reports completion data.
-/

namespace Statechart

/-- Executable content as a document writes it. -/
inductive Content where
  | log (label expr : Option String)
  | assign (location expr : String)
  | raise (event : String)
  | send (event : String) (expr : Option String)
  | branch (cond : String) (actions otherwise : List Content)
  | custom (space name : String) (attributes : Fields Value)
  deriving Inhabited

/-- A transition as a document writes it. -/
structure TransitionDef where
  /-- The event pattern; a transition without one is tried without an event. -/
  event : Option String := none
  cond : Option String := none
  /-- The target state; a transition without one leaves the active states alone. -/
  target : Option String := none
  /-- An internal transition stays in its source when it targets a descendant. -/
  isInternal : Bool := false
  actions : List Content := []
  deriving Inhabited

/-- An exit: what the chart reports when it is reached. -/
structure ExitDef where
  expr : Option String := none
  /-- Names of variables, with blanks between them. -/
  namelist : Option String := none
  deriving Repr, DecidableEq, Inhabited

/-- A state as a document writes it, without its children. -/
structure StateDef where
  id : String
  /-- The descendant that is entered by default. -/
  initial : Option String := none
  /-- All children of a parallel state are active at once. -/
  isParallel : Bool := false
  isFinal : Bool := false
  /-- A document whose states become children. -/
  src : Option String := none
  onEntry : List Content := []
  onExit : List Content := []
  transitions : List TransitionDef := []
  deriving Inhabited

/-- A node of the tree of states. -/
inductive Node where
  | exit (definition : ExitDef)
  | state (definition : StateDef) (children : List Node)
  deriving Inhabited

/-- A chart document. -/
structure Document where
  name : Option String := none
  /-- The top-level state that is entered first. -/
  initial : Option String := none
  datamodel : Fields Value := []
  states : List Node := []
  deriving Inhabited

namespace Node

mutual

/-- The number of nodes of a tree. -/
def size : Node → Nat
  | exit _ => 1
  | state _ children => sizes children + 1

/-- The number of nodes of some trees. -/
def sizes : List Node → Nat
  | [] => 0
  | node :: rest => node.size + sizes rest

end

mutual

/-- The identifiers that are written in a tree, in document order. -/
def ids : Node → List String
  | exit _ => []
  | state definition children => definition.id :: allIds children

/-- The identifiers that are written in some trees, in document order. -/
def allIds : List Node → List String
  | [] => []
  | node :: rest => node.ids ++ allIds rest

end

end Node
end Statechart
