import Statechart.Document.Encoding
import Statechart.Model.Error
import Statechart.Model.Hierarchy
import Statechart.Model.Layout
import Statechart.Registry

/-!
# Building models

A document is checked and turned into a model in three passes, and the first
fault ends it.

1. Every state in document order: its shape, the content that runs when it is
   entered and left, and its identifier, which must not be blank or used before.
2. Every written initial state, the document's first: it must be a descendant of
   the state that names it.  A compound state that names none gets its first
   child.
3. Every transition in document order: its target, its event pattern and its
   actions.
-/

namespace Statechart

/-- The result of building a part of a model. -/
abbrev Built (α : Type) := Except BuildError α

/-! ## Content -/

namespace Content

mutual

/-- The action that content stands for. -/
def build (registry : Registry) : Content → Built Action
  | log label expr => .ok (.log label expr)
  | assign location expr => .ok (.assign location expr)
  | raise event => .ok (.raise event)
  | send event expr => .ok (.send event expr)
  | branch cond actions otherwise => do
    let actions ← buildAll registry actions
    let otherwise ← buildAll registry otherwise
    return .branch cond actions otherwise
  | custom space name attributes =>
    match registry.resolve space name with
    | none => .error (.unresolvedAction space name)
    | some type =>
      match type.make attributes with
      | none => .error (.badAttributes space name)
      | some run => .ok (.custom space name run)

/-- The actions that a block of content stands for. -/
def buildAll (registry : Registry) : List Content → Built (List Action)
  | [] => .ok []
  | content :: rest => do
    let action ← content.build registry
    return action :: (← buildAll registry rest)

end

end Content

namespace Model

open Layout

/-! ## States -/

/-- The kind of a state, if its shape is right. -/
def kindOf (d : StateDef) (isChildless : Bool) : Built StateKind :=
  if d.isFinal then
    if d.isParallel then .error (.badState d.id .finalParallel)
    else if !isChildless then .error (.badState d.id .finalChildren)
    else if !d.transitions.isEmpty then .error (.badState d.id .finalTransitions)
    else .ok .final
  else if d.isParallel then
    if isChildless then .error (.badState d.id .parallelChildless)
    else if d.initial.isSome then .error (.badState d.id .parallelInitial)
    else .ok .parallel
  else if isChildless then
    match d.initial with
    | some initial => .error (.badInitial d.id initial)
    | none => .ok .atomic
  else .ok .compound

/-- The action of an exit. -/
def exitAction (e : ExitDef) : Action :=
  .exitReport e.expr (Text.words (e.namelist.getD ""))

/-- The state at a slot, without its initial state and its transitions. -/
def stateAt (registry : Registry) (id : String) (slot : Slot) : Built StateNode :=
  match slot.occupant with
  | .exit definition =>
    .ok { id, kind := .final, parent := some slot.parent, children := slot.children
          initial := none, isAnonymous := true
          onEntry := [exitAction definition], onExit := [], transitions := [] }
  | .state d =>
    match d.src with
    | some src => .error (.unloadedSource d.id src)
    | none => do
      let kind ← kindOf d slot.children.isEmpty
      let onEntry ← Content.buildAll registry d.onEntry
      let onExit ← Content.buildAll registry d.onExit
      return { id, kind, parent := some slot.parent, children := slot.children
               initial := none, isAnonymous := false
               onEntry, onExit, transitions := [] }

/-- Refuses a blank identifier and one that is used already. -/
def checkId (used : List String) (id : String) : Built Unit :=
  if Text.isBlankText id then .error .blankId
  else if used.contains id then .error (.duplicateId id)
  else .ok ()

/-- The states at some slots; `used` holds the identifiers before them. -/
def statesAt (registry : Registry) (used : List String) :
    List (String × Slot) → Built (List StateNode)
  | [] => .ok []
  | (id, slot) :: rest => do
    let node ← stateAt registry id slot
    checkId used id
    return node :: (← statesAt registry (id :: used) rest)

/-- The root above the top-level states. -/
def rootNode (name : String) (children : List Nat) : StateNode where
  id := name
  kind := .compound
  parent := none
  children := children
  initial := none
  isAnonymous := false
  onEntry := []
  onExit := []
  transitions := []

/-! ## Initial states and transitions -/

/-- The state that `owner` names as its initial state. -/
def namedInitial (arena : Arena) (owner : Nat) (initial : String) : Built Nat :=
  match arena.find? initial with
  | some s =>
    if arena.isDescendant s owner then .ok s
    else .error (.badInitial (arena.state owner).id initial)
  | none => .error (.badInitial (arena.state owner).id initial)

/-- The initial state of a state, named or by default. -/
def initialOf (arena : Arena) (owner : Nat) (written : Option String) : Built (Option Nat) :=
  match written with
  | some initial => do return some (← namedInitial arena owner initial)
  | none =>
    let node := arena.state owner
    .ok (if node.isCompound then node.children.head? else none)

/-- The initial states of consecutive states from `owner` on. -/
def initialsFrom (arena : Arena) (owner : Nat) : List (Option String) → Built (List (Option Nat))
  | [] => .ok []
  | written :: rest => do
    let initial ← initialOf arena owner written
    return initial :: (← initialsFrom arena (owner + 1) rest)

/-- The target that a transition names. -/
def targetOf (arena : Arena) (source : Nat) (target : Option String) : Built (Option Nat) :=
  match target with
  | none => .ok none
  | some id =>
    match arena.find? id with
    | some s => .ok (some s)
    | none => .error (.unknownTarget (arena.state source).id id)

/-- The event pattern of a transition. -/
def patternOf (arena : Arena) (source : Nat) (event : Option String) :
    Built (Option Event.Pattern) :=
  match event with
  | none => .ok none
  | some text =>
    match Event.Pattern.parse text with
    | .ok pattern => .ok pattern
    | .error _ => .error (.badEvent (arena.state source).id text)

/-- A transition of the state `source`. -/
def transitionOf (registry : Registry) (arena : Arena) (source : Nat) (t : TransitionDef) :
    Built Transition := do
  let target ← targetOf arena source t.target
  let event ← patternOf arena source t.event
  let actions ← Content.buildAll registry t.actions
  return { source, event, cond := t.cond, target, isInternal := t.isInternal, actions }

/-- The transitions of the state `source`. -/
def transitionsOf (registry : Registry) (arena : Arena) (source : Nat) :
    List TransitionDef → Built (List Transition)
  | [] => .ok []
  | t :: rest => do
    let transition ← transitionOf registry arena source t
    return transition :: (← transitionsOf registry arena source rest)

/-- The transitions of consecutive states from `source` on. -/
def transitionsFrom (registry : Registry) (arena : Arena) (source : Nat) :
    List (List TransitionDef) → Built (List (List Transition))
  | [] => .ok []
  | defs :: rest => do
    let transitions ← transitionsOf registry arena source defs
    return transitions :: (← transitionsFrom registry arena (source + 1) rest)

/-! ## Models -/

/-- The initial state that is written at a slot. -/
def writtenInitial (slot : Slot) : Option String :=
  match slot.occupant with
  | .exit _ => none
  | .state d => d.initial

/-- The transitions that are written at a slot. -/
def writtenTransitions (slot : Slot) : List TransitionDef :=
  match slot.occupant with
  | .exit _ => []
  | .state d => d.transitions

/-- The states with their initial states. -/
def withInitials (nodes : List StateNode) (initials : List (Option Nat)) : List StateNode :=
  List.zipWith (fun node initial => { node with initial }) nodes initials

/-- The states with their transitions. -/
def withTransitions (nodes : List StateNode) (transitions : List (List Transition)) :
    List StateNode :=
  List.zipWith (fun node transitions => { node with transitions }) nodes transitions

/-- Builds the model of a document. -/
def build (doc : Document) (registry : Registry) : Built Model := do
  let name := doc.name.getD "chart"
  if doc.states.isEmpty then throw (.badState name .noStates)
  let slots := ofDocument doc
  let nodes ← statesAt registry [] slots
  let nodes := rootNode name (tops 1 doc.states) :: nodes
  let arena := nodes.toArray
  let initials ← initialsFrom arena 0 (doc.initial :: slots.map fun slot => writtenInitial slot.2)
  let transitions ←
    transitionsFrom registry arena 0 ([] :: slots.map fun slot => writtenTransitions slot.2)
  return { name
           arena := (withTransitions (withInitials nodes initials) transitions).toArray
           datamodel := doc.datamodel
           checksum := doc.checksum }

end Model
end Statechart
