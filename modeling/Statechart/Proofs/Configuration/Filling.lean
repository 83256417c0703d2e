import Statechart.Proofs.Configuration.Legal

/-!
# What entering a state enters

`Fill arena s g` holds of the states that are entered when `s` is entered on the
way to `g`, a state within `s`.  Entering `s` for its own sake is the case
`g = s`.  The definition speaks of the tree only; the engine computes the same
sets by inserting states one after the other.

The equations `fill_leaf`, `fill_initial`, `fill_compound` and `fill_parallel`
determine the filling of every state from those of its children, and
`region_fill` says that it is a configuration of the subtree.
-/

namespace Statechart

open Arena (root)

/-- The states that are entered with `s` on the way to `g`. -/
inductive Fill (arena : Arena) : (s g x : Nat) → Prop
  | self (s g : Nat) : Fill arena s g s
  /-- A compound state without a goal below it goes to its initial state. -/
  | initial {s i x : Nat} (hs : (arena.state s).kind = .compound)
      (hi : (arena.state s).initial = some i) (h : Fill arena s i x) : Fill arena s s x
  /-- The child around the goal is entered on the way to it. -/
  | toward {s g c x : Nat} (hc : c ∈ (arena.state s).children) (hg : arena.Within g c)
      (h : Fill arena c g x) : Fill arena s g x
  /-- The other children of a parallel state are entered for their own sake. -/
  | beside {s g c x : Nat} (hs : (arena.state s).kind = .parallel)
      (hc : c ∈ (arena.state s).children) (hg : ¬ arena.Within g c)
      (h : Fill arena c c x) : Fill arena s g x

/-- The goal inside a child: the given one if it lies there, or else the child. -/
def goalIn (arena : Arena) (g c : Nat) : Nat := if arena.Within g c then g else c

section Equations

variable {arena : Arena} (hw : arena.WellFormed) {s g c i x : Nat}
include hw

omit hw in
theorem goalIn_within : arena.Within (goalIn arena g c) c := by
  unfold goalIn
  split
  · assumption
  · exact .refl

omit hw in
theorem goalIn_of_within (h : arena.Within g c) : goalIn arena g c = g := if_pos h

/-- Beside the child around the goal, every child is a goal itself. -/
theorem goalIn_of_ne (hc : c ∈ (arena.state s).children) (hi : i ∈ (arena.state s).children)
    (hg : arena.Within g i) (hne : c ≠ i) : goalIn arena g c = c :=
  if_neg fun hgc => hne (hw.child_eq_of_within hc hi hgc hg)

theorem fill_leaf (hs : (arena.state s).isLeaf) : Fill arena s g x ↔ x = s := by
  have hnil : (arena.state s).children = [] := (hw.isLeaf_iff s).1 hs
  constructor
  · intro h
    cases h with
    | self => rfl
    | initial hk => simp [StateNode.isLeaf, hk] at hs
    | toward hc => rw [hnil] at hc; cases hc
    | beside _ hc => rw [hnil] at hc; cases hc
  · rintro rfl
    exact .self x g

theorem fill_initial (hs : (arena.state s).kind = .compound)
    (hi : (arena.state s).initial = some i) : Fill arena s s x ↔ Fill arena s i x := by
  refine ⟨fun h => ?_, .initial hs hi⟩
  cases h with
  | self => exact .self s i
  | initial _ hi' h =>
      obtain rfl := Option.some.inj (hi.symm.trans hi')
      exact h
  | toward hc hg =>
      exact absurd hg (hw.not_within_of_below (hw.below_of_mem_children hc))
  | beside hk => rw [hs] at hk; cases hk

theorem fill_compound (hs : (arena.state s).kind = .compound)
    (hc : c ∈ (arena.state s).children) (hg : arena.Within g c) :
    Fill arena s g x ↔ x = s ∨ Fill arena c g x := by
  constructor
  · intro h
    cases h with
    | self => exact .inl rfl
    | initial =>
        exact absurd hg (hw.not_within_of_below (hw.below_of_mem_children hc))
    | toward hd hg' h =>
        obtain rfl := hw.child_eq_of_within hd hc hg' hg
        exact .inr h
    | beside hk => rw [hs] at hk; cases hk
  · rintro (rfl | h)
    · exact .self x g
    · exact .toward hc hg h

omit hw in
theorem fill_parallel (hs : (arena.state s).kind = .parallel) :
    Fill arena s g x ↔
      x = s ∨ ∃ c ∈ (arena.state s).children, Fill arena c (goalIn arena g c) x := by
  unfold goalIn
  constructor
  · intro h
    cases h with
    | self => exact .inl rfl
    | initial hk => rw [hs] at hk; cases hk
    | toward hc hg h => exact .inr ⟨_, hc, by rwa [if_pos hg]⟩
    | beside _ hc hg h => exact .inr ⟨_, hc, by rwa [if_neg hg]⟩
  · rintro (rfl | ⟨c, hc, h⟩)
    · exact .self x g
    · split at h
      · next hg => exact .toward hc hg h
      · next hg => exact .beside hs hc hg h

theorem fill_parallel_self (hs : (arena.state s).kind = .parallel) :
    Fill arena s s x ↔ x = s ∨ ∃ c ∈ (arena.state s).children, Fill arena c c x := by
  rw [fill_parallel hs]
  refine or_congr_right (exists_congr fun c => and_congr_right fun hc => ?_)
  rw [goalIn, if_neg (hw.not_within_of_below (hw.below_of_mem_children hc))]

/-- The way to a goal leads to it. -/
theorem fill_goal (h : arena.Within g s) : Fill arena s g g := by
  induction s using hw.children_induction with
  | step s ih =>
      rcases h with rfl | h
      · exact .self g g
      obtain ⟨c, hc, hgc⟩ := hw.exists_child_within h
      exact .toward hc hgc (ih c hc hgc)

/-- A filling is a configuration of the subtree that is entered. -/
theorem region_fill (h : arena.Within g s) : Region arena s (Fill arena s g) := by
  induction s using hw.children_induction generalizing g with
  | step s ih =>
      -- also used for the initial state, which stands in for a goal at the state itself
      have hcompound : ∀ {g}, (arena.state s).kind = .compound → arena.Below g s →
          Region arena s (Fill arena s g) := by
        intro g hk hgs
        obtain ⟨c, hc, hgc⟩ := hw.exists_child_within hgs
        have hregion := Region.ofCompound hw hk hc (ih c hc hgc)
        exact hregion.congr fun x => fill_compound hw hk hc hgc
      cases hleaf : (arena.state s).isLeaf with
      | true => exact (Region.ofLeaf hleaf).congr fun x => fill_leaf hw hleaf
      | false =>
          rcases Arena.kind_of_isLeaf_eq_false hleaf with hk | hk
          · rcases h with rfl | h
            · obtain ⟨i, hi, hbelow⟩ := hw.initial_below hk
              have hregion := hcompound hk hbelow
              exact hregion.congr fun x => fill_initial hw hk hi
            · exact hcompound hk h
          · have hregion := Region.ofParallel hw hk fun c hc => ih c hc (goalIn_within (g := g))
            exact hregion.congr fun x => fill_parallel hk

/-- A filling stays within the subtree that is entered. -/
theorem within_of_fill (hg : arena.Within g s) (h : Fill arena s g x) : arena.Within x s :=
  (region_fill hw hg).within hw h

/-- The initial states of a chart make up a legal configuration. -/
theorem legal_of_fill_root {active : StateSet}
    (h : ∀ x, x ∈ active ↔ x ≠ root ∧ Fill arena root root x) : Legal arena active := by
  refine (Legal.iff_region hw).2 ⟨fun hmem => ((h root).1 hmem).1 rfl, ?_⟩
  refine (region_fill hw .refl).congr fun x => ?_
  by_cases hx : x = root
  · subst hx
    exact ⟨fun _ => .self root root, fun _ => .inl rfl⟩
  · simp [StateSet.On, hx, h]

end Equations
end Statechart
