import Statechart.Action.Basic
import Statechart.Text.Blank

/-!
# The registry of custom actions

Hosts supply actions of their own.  A registry maps a namespace and a local name
to an action type, which makes one action from the attributes of each place it
is used at.  A later registration of the same name replaces the earlier one, and
a registration that is refused changes nothing.
-/

namespace Statechart

/-- A kind of custom action: `make` gives the action for some attributes, unless
they are invalid. -/
structure ActionType where
  name : String
  make : Fields Value → Option (View → Outcome)

/-- Why a registration is refused. -/
inductive RegistrationError where
  | blankNamespace
  | blankLocalName (space : String)
  | notAnAction (space name : String)
  deriving Repr, DecidableEq

/-- The message of a registration error. -/
def RegistrationError.message : RegistrationError → String
  | blankNamespace => "custom action namespace must not be blank"
  | blankLocalName space =>
    "custom action local name must not be blank (namespace '" ++ space ++ "')"
  | notAnAction space name =>
    "implementation registered for " ++ space ++ ":" ++ name ++ " is not an action type"

/-- A registered action. -/
structure ActionRecord where
  space : String
  name : String
  type : ActionType

/-- The registered actions, by namespace and then by local name. -/
structure Registry where
  spaces : Fields (Fields ActionType)

namespace Registry

/-- A registry without actions. -/
def empty : Registry := ⟨[]⟩

/-- The actions of a namespace. -/
def inSpace (registry : Registry) (space : String) : Fields ActionType :=
  (Fields.get? space registry.spaces).getD []

/-- Looks an action up. -/
def resolve (registry : Registry) (space name : String) : Option ActionType :=
  Fields.get? name (registry.inSpace space)

/-- Enters an action type under a name. -/
def insert (registry : Registry) (space name : String) (type : ActionType) : Registry :=
  ⟨Fields.put space (Fields.put name type (registry.inSpace space)) registry.spaces⟩

/-- Registers what a host supplies under a name; `none` stands for something
that is no action type.  The names are checked first. -/
def register (registry : Registry) (space name : String) (supplied : Option ActionType) :
    Except RegistrationError Registry :=
  if Text.isBlankText space then .error .blankNamespace
  else if Text.isBlankText name then .error (.blankLocalName space)
  else
    match supplied with
    | none => .error (.notAnAction space name)
    | some type => .ok (registry.insert space name type)

/-- All registered actions, by namespace and then by local name. -/
def records (registry : Registry) : List ActionRecord :=
  registry.spaces.flatMap fun (space, actions) =>
    actions.map fun (name, type) => ⟨space, name, type⟩

/-- The number of registered actions. -/
def size (registry : Registry) : Nat := registry.records.length

/-- The last registration of a name counts. -/
@[simp] theorem resolve_insert_self (registry : Registry) (space name : String)
    (type : ActionType) :
    (registry.insert space name type).resolve space name = some type := by
  simp [insert, resolve, inSpace]

/-- A registration leaves the other names of its namespace alone. -/
theorem resolve_insert_of_ne {name other : String} (h : name ≠ other)
    (registry : Registry) (space : String) (type : ActionType) :
    (registry.insert space name type).resolve space other =
      registry.resolve space other := by
  simp [insert, resolve, inSpace, Fields.get?_put_of_ne h]

/-- A registration leaves other namespaces alone. -/
theorem resolve_insert_of_space_ne {space other : String} (h : space ≠ other)
    (registry : Registry) (name : String) (type : ActionType) (asked : String) :
    (registry.insert space name type).resolve other asked =
      registry.resolve other asked := by
  simp [insert, resolve, inSpace, Fields.get?_put_of_ne h]

end Registry
end Statechart
