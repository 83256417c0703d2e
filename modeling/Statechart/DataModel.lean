import Statechart.Expr.Basic
import Statechart.Text.Split

/-!
# The data model

Variables are named values.  A dotted path addresses a member of a variable:
its first segment names the variable, which has to be declared, and the others
name members.  Reading an absent member gives `null`; writing one makes objects
of whatever stands in the way.
-/

namespace Statechart

namespace Value

/-- The value that the names lead to; an absent member is `null`. -/
def lookup (v : Value) : List String → Value
  | [] => v
  | name :: rest => (v.member name).lookup rest

/-- Replaces the value that the names lead to.  What is no object on the way
becomes one. -/
def assign (v : Value) : List String → Value → Value
  | [], new => new
  | name :: rest, new =>
    let fields := match v with
      | obj fields => fields
      | _ => []
    obj (Fields.put name ((v.member name).assign rest new) fields)

/-- A write is read back. -/
@[simp] theorem lookup_assign (v : Value) (path : List String) (new : Value) :
    (v.assign path new).lookup path = new := by
  induction path generalizing v with
  | nil => rfl
  | cons name rest ih => simp [assign, lookup, ih]

/-- Of two writes to one place the second counts. -/
@[simp] theorem assign_assign (v : Value) (path : List String) (first second : Value) :
    (v.assign path first).assign path second = v.assign path second := by
  induction path generalizing v with
  | nil => rfl
  | cons name rest ih => simp [assign, ih]

end Value

/-- The variables of a running chart, in the order of their names. -/
structure DataModel where
  ofOrdered ::
  bindings : Fields Value
  ordered : bindings.Ordered

namespace DataModel

/-- The data model with the given variables. -/
def mk (fields : Fields Value) : DataModel :=
  ⟨Fields.ofList fields, Fields.ordered_ofList fields⟩

instance : Inhabited DataModel := ⟨mk []⟩

/-- The name of the variable that holds the event being processed. -/
def eventVariable : String := "_event"

/-- A data model without variables. -/
def empty : DataModel := mk []

/-- The value of a variable. -/
def get? (data : DataModel) (name : String) : Option Value :=
  Fields.get? name data.bindings

/-- Holds of a declared variable. -/
def isDeclared (data : DataModel) (name : String) : Bool :=
  Fields.has name data.bindings

/-- Declares a variable, or overwrites it. -/
def declare (data : DataModel) (name : String) (v : Value) : DataModel :=
  ⟨Fields.put name v data.bindings, Fields.ordered_put data.ordered name v⟩

/-- The variable and the member names of a path. -/
def splitPath (path : String) : String × List String :=
  match Text.segments path with
  | [] => ("", [])
  | head :: rest => (head, rest)

/-- The value at a dotted path. -/
def lookup (data : DataModel) (path : String) : Except ExpressionError Value :=
  let (head, rest) := splitPath path
  match data.get? head with
  | some v => .ok (v.lookup rest)
  | none => .error (.undefined head)

/-- Writes the value at a dotted path of a declared variable. -/
def assign (data : DataModel) (path : String) (new : Value) :
    Except ExpressionError DataModel :=
  let (head, rest) := splitPath path
  match data.get? head with
  | some v => .ok (data.declare head (v.assign rest new))
  | none => .error (.undefined head)

/-- All variables as one object. -/
def toValue (data : DataModel) : Value := .obj data.bindings

@[simp] theorem declare_declare (data : DataModel) (name : String) (first second : Value) :
    (data.declare name first).declare name second = data.declare name second := by
  simp [declare]

/-- A variable that is declared again with its own value stays as it is. -/
theorem declare_get?_self {data : DataModel} {name : String} {v : Value}
    (h : data.get? name = some v) : data.declare name v = data := by
  simp [declare, Fields.put_get?_self data.ordered h]

@[simp] theorem isDeclared_declare_self (data : DataModel) (name : String) (v : Value) :
    (data.declare name v).isDeclared name = true := by
  simp [declare, isDeclared, Fields.has]

/-- A declaration takes no variable away. -/
theorem isDeclared_declare {data : DataModel} {name : String} (h : data.isDeclared name)
    (other : String) (v : Value) : (data.declare other v).isDeclared name := by
  by_cases heq : other = name
  · rw [heq]
    exact isDeclared_declare_self data name v
  · rw [isDeclared, declare, Fields.has, Fields.get?_put_of_ne heq]
    exact h

/-- A write takes no variable away. -/
theorem isDeclared_assign {data after : DataModel} {name path : String} {v : Value}
    (h : data.isDeclared name) (hassign : data.assign path v = .ok after) :
    after.isDeclared name := by
  unfold assign at hassign
  dsimp only at hassign
  split at hassign
  · obtain rfl := Except.ok.inj hassign
    exact isDeclared_declare h _ _
  · exact nomatch hassign

theorem exists_get?_of_isDeclared {data : DataModel} {name : String}
    (h : data.isDeclared name) : ∃ v, data.get? name = some v :=
  Fields.has_eq_true_iff.1 h

/-- Declaring a variable with its old value undoes a declaration in between. -/
theorem declare_restore {data : DataModel} {name : String} (h : data.isDeclared name)
    (v : Value) : (data.declare name v).declare name ((data.get? name).getD .null) = data := by
  obtain ⟨before, hbefore⟩ := exists_get?_of_isDeclared h
  rw [declare_declare, hbefore]
  exact declare_get?_self hbefore

end DataModel
end Statechart
