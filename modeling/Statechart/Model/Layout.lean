import Statechart.Document.Basic

/-!
# The layout of the arena

The trees of a document are laid out in pre-order behind the root: a tree of `n`
nodes takes `n` consecutive indices, its top first, and the trees of a list
follow each other.  So the index of every child is known from the sizes of the
trees before it.

Each exit gets an identifier of its own, `_exit.` with a number.  The numbers
grow in document order and pass over those that the document has used itself,
before or after the exit.
-/

namespace Statechart
namespace Layout

/-- What a document puts at an index. -/
inductive Occupant where
  | exit (definition : ExitDef)
  | state (definition : StateDef)

/-- An occupant with its place in the tree. -/
structure Slot where
  occupant : Occupant
  parent : Nat
  children : List Nat

/-- The indices of the tops of some trees that are laid out from `next` on. -/
def tops (next : Nat) : List Node → List Nat
  | [] => []
  | node :: rest => next :: tops (next + node.size) rest

mutual

/-- The slots of a tree that is laid out from `next` on. -/
def slots (parent next : Nat) : Node → List Slot
  | .exit definition => [⟨.exit definition, parent, []⟩]
  | .state definition children =>
    ⟨.state definition, parent, tops (next + 1) children⟩ ::
      slotsOfAll next (next + 1) children

/-- The slots of some trees that are laid out from `next` on. -/
def slotsOfAll (parent next : Nat) : List Node → List Slot
  | [] => []
  | node :: rest => slots parent next node ++ slotsOfAll parent (next + node.size) rest

end

/-- The identifier of an exit. -/
def exitId (n : Nat) : String := "_exit." ++ toString n

/-- The first number from `n` on that gives an identifier no state has; `fuel`
bounds how many are passed over. -/
def freeFrom (taken : List String) : (fuel : Nat) → Nat → Nat
  | 0, n => n
  | fuel + 1, n => if taken.contains (exitId n) then freeFrom taken fuel (n + 1) else n

/-- The slots with their identifiers; exits take numbers from `next` on. -/
def withIds (taken : List String) (next : Nat) : List Slot → List (String × Slot)
  | [] => []
  | slot :: rest =>
    match slot.occupant with
    | .state definition => (definition.id, slot) :: withIds taken next rest
    | .exit _ =>
      let n := freeFrom taken taken.length next
      (exitId n, slot) :: withIds taken (n + 1) rest

/-- The slots of a document behind the root, with their identifiers. -/
def ofDocument (doc : Document) : List (String × Slot) :=
  withIds (Node.allIds doc.states) 0 (slotsOfAll 0 1 doc.states)

mutual

/-- A tree takes as many slots as it has nodes. -/
theorem length_slots (parent next : Nat) (node : Node) :
    (slots parent next node).length = node.size := by
  cases node with
  | exit definition => simp [slots, Node.size]
  | state definition children =>
    simp [slots, Node.size, length_slotsOfAll next (next + 1) children]

/-- Trees take as many slots as they have nodes. -/
theorem length_slotsOfAll (parent next : Nat) (nodes : List Node) :
    (slotsOfAll parent next nodes).length = Node.sizes nodes := by
  cases nodes with
  | nil => simp [slotsOfAll, Node.sizes]
  | cons node rest =>
    simp [slotsOfAll, Node.sizes, length_slots parent next node,
      length_slotsOfAll parent (next + node.size) rest]

end

/-! ## Consecutive indices -/

/-- Items have a property at the indices from `next` on, one after the other. -/
def Consecutive {α : Type} (P : Nat → α → Prop) (next : Nat) (items : List α) : Prop :=
  ∀ k item, items[k]? = some item → P (next + k) item

namespace Consecutive

variable {α : Type} {P : Nat → α → Prop} {next : Nat} {item : α} {items rest : List α}

theorem head (h : Consecutive P next (item :: items)) : P next item := h 0 item rfl

theorem tail (h : Consecutive P next (item :: items)) : Consecutive P (next + 1) items := by
  intro k item' hk
  have hitem := h (k + 1) item' hk
  rwa [show next + (k + 1) = next + 1 + k by omega] at hitem

theorem left (h : Consecutive P next (items ++ rest)) : Consecutive P next items := by
  intro k item' hk
  have hlt : k < items.length := (List.getElem?_eq_some_iff.1 hk).1
  exact h k item' (by rw [List.getElem?_append_left hlt, hk])

theorem right (h : Consecutive P next (items ++ rest)) :
    Consecutive P (next + items.length) rest := by
  intro k item' hk
  have hitem := h (items.length + k) item' (by
    rw [List.getElem?_append_right (Nat.le_add_right _ _), Nat.add_sub_cancel_left, hk])
  rwa [← Nat.add_assoc] at hitem

end Consecutive

end Layout
end Statechart
