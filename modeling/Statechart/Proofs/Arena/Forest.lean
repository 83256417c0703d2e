import Mathlib.Tactic.ByContra
import Statechart.Model.Layout
import Statechart.Proofs.Arena.Hierarchy

/-!
# Forests in an arena

A `Forest` is a run of consecutive states that consists of whole subtrees with a
common parent in front of them.  Two forests under one parent that follow each
other make one forest, and a forest together with its parent makes a forest of
one tree.

The slots of a document are laid out by the same two steps, so an arena in which
they are placed holds a forest behind its root (`forest_slotsOfAll`).  This says
nothing about identifiers, kinds or content.
-/

namespace Statechart
namespace Arena

open Layout Relation

/-- The slots stand in the arena from `next` on. -/
def Placed (arena : Arena) (next : Nat) (slots : List Slot) : Prop :=
  ∀ k slot, slots[k]? = some slot →
    arena.Parent (next + k) slot.parent ∧ (arena.state (next + k)).children = slot.children

/-- The states from `next` to before `stop` are trees below `parent`, whose tops
are the given ones. -/
structure Forest (arena : Arena) (parent next stop : Nat) (tops : List Nat) : Prop where
  parent_lt : parent < next
  /-- The parent of a state is `parent` or in the forest, and around the state
  before. -/
  inside : ∀ i, next ≤ i → i < stop →
    ∃ p, arena.Parent i p ∧ (p = parent ∨ next ≤ p) ∧ p < i ∧
      ReflTransGen arena.Parent (i - 1) p
  /-- The last state is in the last tree, so a tree can follow. -/
  last : ReflTransGen arena.Parent (stop - 1) parent
  mem_tops_iff : ∀ c, c ∈ tops ↔ (next ≤ c ∧ c < stop) ∧ arena.Parent c parent
  tops_sorted : tops.Pairwise (· < ·)
  mem_children_iff : ∀ i, next ≤ i → i < stop →
    ∀ c, c ∈ (arena.state i).children ↔ (next ≤ c ∧ c < stop) ∧ arena.Parent c i
  children_sorted : ∀ i, next ≤ i → i < stop → (arena.state i).children.Pairwise (· < ·)

variable {arena : Arena} {parent next mid stop : Nat}

theorem parent_unique {s p q : Nat} (hp : arena.Parent s p) (hq : arena.Parent s q) : p = q :=
  Option.some.inj (hp.symm.trans hq)

namespace Forest

variable {first second : List Nat}

theorem nil (hlt : parent < next) (hlast : ReflTransGen arena.Parent (next - 1) parent) :
    Forest arena parent next next [] where
  parent_lt := hlt
  inside := by omega
  last := hlast
  mem_tops_iff c := by
    constructor
    · intro hc
      exact absurd hc List.not_mem_nil
    · rintro ⟨hc, -⟩
      omega
  tops_sorted := List.Pairwise.nil
  mem_children_iff := by omega
  children_sorted := by omega

/-- The parent of a state in a forest is not before the forest, except for the
common one. -/
theorem not_parent_of_lt (h : Forest arena parent next stop first) {c i : Nat}
    (hc : next ≤ c) (hcs : c < stop) (hi : i < next) (hne : i ≠ parent) :
    ¬ arena.Parent c i := by
  intro hp
  obtain ⟨p, hcp, hin, -, -⟩ := h.inside c hc hcs
  obtain rfl : p = i := parent_unique hcp hp
  omega

/-- A state in a forest stands behind its parent. -/
theorem lt_of_parent (h : Forest arena parent next stop first) {c i : Nat}
    (hc : next ≤ c) (hcs : c < stop) (hp : arena.Parent c i) : i < c := by
  obtain ⟨p, hcp, -, hlt, -⟩ := h.inside c hc hcs
  obtain rfl : p = i := parent_unique hcp hp
  exact hlt

theorem append (h : Forest arena parent next mid first) (hle : next ≤ mid)
    (h' : Forest arena parent mid stop second) (hle' : mid ≤ stop) :
    Forest arena parent next stop (first ++ second) where
  parent_lt := h.parent_lt
  inside i hi his := by
    by_cases him : i < mid
    · exact h.inside i hi him
    · obtain ⟨p, hp, hin, hlt, hchain⟩ := h'.inside i (by omega) his
      exact ⟨p, hp, by omega, hlt, hchain⟩
  last := h'.last
  mem_tops_iff c := by
    rw [List.mem_append, h.mem_tops_iff, h'.mem_tops_iff, ← or_and_right]
    refine and_congr_left fun _ => ?_
    omega
  tops_sorted := by
    refine List.pairwise_append.2 ⟨h.tops_sorted, h'.tops_sorted, fun c hc d hd => ?_⟩
    have hcm := ((h.mem_tops_iff c).1 hc).1
    have hdm := ((h'.mem_tops_iff d).1 hd).1
    omega
  mem_children_iff i hi his c := by
    by_cases him : i < mid
    · -- no state of the second forest has its parent in the first one
      rw [h.mem_children_iff i hi him]
      refine and_congr_left fun hp => ⟨by omega, fun hc => ⟨hc.1, ?_⟩⟩
      by_contra hcm
      have hparent := h.parent_lt
      exact h'.not_parent_of_lt (by omega) hc.2 him (by omega) hp
    · -- no state of the first forest has its parent in the second one
      rw [h'.mem_children_iff i (by omega) his]
      refine and_congr_left fun hp => ⟨by omega, fun hc => ⟨?_, hc.2⟩⟩
      by_contra hcm
      have hlt := h.lt_of_parent hc.1 (by omega) hp
      omega
  children_sorted i hi his := by
    by_cases him : i < mid
    · exact h.children_sorted i hi him
    · exact h'.children_sorted i (by omega) his

/-- A forest below a state and the state itself make a forest of one tree. -/
theorem node (h : Forest arena next (next + 1) stop (arena.state next).children)
    (hle : next + 1 ≤ stop) (hlt : parent < next) (hp : arena.Parent next parent)
    (hlast : ReflTransGen arena.Parent (next - 1) parent) :
    Forest arena parent next stop [next] where
  parent_lt := hlt
  inside i hi his := by
    rcases Nat.eq_or_lt_of_le hi with rfl | hi
    · exact ⟨parent, hp, .inl rfl, hlt, hlast⟩
    · obtain ⟨p, hip, hin, hpi, hchain⟩ := h.inside i hi his
      exact ⟨p, hip, by omega, hpi, hchain⟩
  last := h.last.tail hp
  mem_tops_iff c := by
    constructor
    · intro hc
      obtain rfl : c = next := List.mem_singleton.1 hc
      exact ⟨by omega, hp⟩
    · rintro ⟨⟨hc, hcs⟩, hcp⟩
      rcases Nat.eq_or_lt_of_le hc with rfl | hc
      · exact List.mem_singleton_self next
      · exact absurd hcp (h.not_parent_of_lt hc hcs (by omega) (by omega))
  tops_sorted := List.pairwise_singleton _ _
  mem_children_iff i hi his c := by
    have hself : ∀ j, next ≤ j → ¬ arena.Parent next j := by
      intro j hj hnj
      have hj' : parent = j := parent_unique hp hnj
      omega
    -- The range begins one earlier than that of `h`, and the new first state is no child in it.
    rcases Nat.eq_or_lt_of_le hi with rfl | hi
    · rw [h.mem_tops_iff]
      refine and_congr_left fun hcp => ⟨by omega, fun hc => ⟨?_, hc.2⟩⟩
      rcases Nat.eq_or_lt_of_le hc.1 with rfl | hlt
      · exact absurd hcp (hself _ hi)
      · exact hlt
    · rw [h.mem_children_iff i hi his]
      refine and_congr_left fun hcp => ⟨by omega, fun hc => ⟨?_, hc.2⟩⟩
      rcases Nat.eq_or_lt_of_le hc.1 with rfl | hlt
      · exact absurd hcp (hself _ (by omega))
      · exact hlt
  children_sorted i hi his := by
    rcases Nat.eq_or_lt_of_le hi with rfl | hi
    · exact h.tops_sorted
    · exact h.children_sorted i hi his

end Forest

/-! ## Slots make forests -/

namespace Placed

variable {slot : Slot} {slots rest : List Slot}

theorem iff_consecutive : Placed arena next slots ↔
    Consecutive (fun s slot =>
      arena.Parent s slot.parent ∧ (arena.state s).children = slot.children) next slots :=
  Iff.rfl

theorem head (h : Placed arena next (slot :: slots)) :
    arena.Parent next slot.parent ∧ (arena.state next).children = slot.children :=
  (iff_consecutive.1 h).head

theorem tail (h : Placed arena next (slot :: slots)) : Placed arena (next + 1) slots :=
  iff_consecutive.2 (iff_consecutive.1 h).tail

theorem left (h : Placed arena next (slots ++ rest)) : Placed arena next slots :=
  iff_consecutive.2 (iff_consecutive.1 h).left

theorem right (h : Placed arena next (slots ++ rest)) :
    Placed arena (next + slots.length) rest :=
  iff_consecutive.2 (iff_consecutive.1 h).right

end Placed

mutual

/-- A tree that is laid out behind its parent is a forest. -/
theorem forest_slots {parent next : Nat} (node : Node) (hlt : parent < next)
    (hlast : ReflTransGen arena.Parent (next - 1) parent)
    (h : Placed arena next (slots parent next node)) :
    Forest arena parent next (next + node.size) [next] := by
  cases node with
  | exit definition =>
      obtain ⟨hp, hchildren⟩ := h.head
      refine Forest.node ?_ (Nat.le_refl _) hlt hp hlast
      rw [hchildren]
      exact Forest.nil (Nat.lt_succ_self next) .refl
  | state definition children =>
      obtain ⟨hp, hchildren⟩ := h.head
      have hinner : Forest arena next (next + 1) (next + 1 + Node.sizes children)
          (arena.state next).children := by
        rw [hchildren]
        exact forest_slotsOfAll children (Nat.lt_succ_self next) .refl h.tail
      have hsize : next + 1 + Node.sizes children =
          next + (Node.state definition children).size := by
        simp only [Node.size]
        omega
      rw [hsize] at hinner
      exact hinner.node (by omega) hlt hp hlast

/-- Trees that are laid out behind their parent are a forest. -/
theorem forest_slotsOfAll {parent next : Nat} (nodes : List Node) (hlt : parent < next)
    (hlast : ReflTransGen arena.Parent (next - 1) parent)
    (h : Placed arena next (slotsOfAll parent next nodes)) :
    Forest arena parent next (next + Node.sizes nodes) (tops next nodes) := by
  cases nodes with
  | nil => exact Forest.nil hlt hlast
  | cons node rest =>
      have hfirst := forest_slots node hlt hlast h.left
      have hright := h.right
      rw [length_slots] at hright
      have hrest := forest_slotsOfAll rest (by omega) hfirst.last hright
      have hboth := hfirst.append (by omega) hrest (by omega)
      rwa [Nat.add_assoc] at hboth

end

end Arena
end Statechart
