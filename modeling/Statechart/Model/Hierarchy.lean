import Statechart.Model.Basic

/-!
# The hierarchy of states

Ancestors and descendants are proper.  In the arena a parent has a smaller index
than its children, so the chain of ancestors of a state is not longer than its
index.
-/

namespace Statechart
namespace Arena

/-- The chain of parents of a state, innermost first, at most `fuel` of them. -/
def ancestorsUpTo (arena : Arena) : (fuel : Nat) → Nat → List Nat
  | 0, _ => []
  | fuel + 1, s =>
    match (arena.state s).parent with
    | none => []
    | some p => p :: arena.ancestorsUpTo fuel p

/-- The proper ancestors of a state, innermost first; the last one is the
root. -/
def ancestors (arena : Arena) (s : Nat) : List Nat := arena.ancestorsUpTo s s

/-- Holds if `a` is a proper descendant of `b`. -/
def isDescendant (arena : Arena) (a b : Nat) : Bool := (arena.ancestors a).contains b

/-- The least common compound ancestor of some states: of the compound ancestors
of the first one, the innermost that is an ancestor of all others too. -/
def commonAncestor (arena : Arena) : List Nat → Nat
  | [] => root
  | head :: tail =>
    let common := (arena.ancestors head).find? fun a =>
      (arena.state a).isCompound && tail.all fun s => arena.isDescendant s a
    common.getD root

end Arena
end Statechart
