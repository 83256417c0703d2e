import Statechart.Engine.Entry
import Statechart.Proofs.Configuration.Filling

/-!
# The engine enters fillings

The engine collects the states to enter in one set, to which it adds state after
state.  A child of a parallel state is passed over if the set already covers it.
This file shows that the test does what it is for: as long as a subtree is clear
of the set when its entry begins, exactly the filling of the subtree is added
(`enters_enterDefault`, `mem_enterTarget_iff`).  In particular the order in
which states are added does not matter.
-/

namespace Statechart

open Arena (root)

/-- No state of a set lies within `s`. -/
def Clear (arena : Arena) (set : StateSet) (s : Nat) : Prop :=
  ∀ x ∈ set, ¬ arena.Within x s

/-- A way to enter states adds the filling of `s` if its subtree is clear. -/
def Enters (arena : Arena) (enter : Nat → StateSet → StateSet) (s : Nat) : Prop :=
  ∀ set, Clear arena set s → ∀ x, x ∈ enter s set ↔ x ∈ set ∨ Fill arena s s x

section Membership

variable {arena : Arena} (hw : arena.WellFormed) {c d g s x : Nat} {set : StateSet}
  {enter : Nat → StateSet → StateSet}

theorem isCovered_eq_false_iff : arena.isCovered set s = false ↔ Clear arena set s := by
  simp [Arena.isCovered, Clear, Arena.Within]

include hw

theorem Clear.of_within (h : Clear arena set d) (hcd : arena.Within c d) :
    Clear arena set c := fun x hx hxc => h x hx (hw.within_trans hxc hcd)

/-- Entering a state does not disturb a subtree apart from it. -/
theorem clear_insert_of_below (h : Clear arena set s) (hc : arena.Below c s) :
    Clear arena (set.insert s) c := by
  intro x hx
  rcases StateSet.mem_insert.1 hx with rfl | hx
  · exact hw.not_within_of_below hc
  · exact h.of_within hw hc.within x hx

/-- Entering a child leaves its siblings as clear as they were. -/
theorem clear_enter_iff (henter : Enters arena enter c) (hclear : Clear arena set c)
    (hc : c ∈ (arena.state s).children) (hd : d ∈ (arena.state s).children) (hne : c ≠ d) :
    Clear arena (enter c set) d ↔ Clear arena set d := by
  constructor
  · exact fun h y hy => h y ((henter set hclear y).2 (.inl hy))
  · intro h y hy hyd
    rcases (henter set hclear y).1 hy with hy | hy
    · exact h y hy hyd
    · exact hne (hw.child_eq_of_within hc hd (within_of_fill hw .refl hy) hyd)

/-- Of some children of a state those are entered that are clear at first. -/
theorem mem_enterChildren_iff {children : List Nat} (hnodup : children.Nodup)
    (hsub : ∀ c ∈ children, c ∈ (arena.state s).children)
    (henter : ∀ c ∈ children, Enters arena enter c) :
    x ∈ arena.enterChildren enter children set ↔
      x ∈ set ∨ ∃ c ∈ children, Clear arena set c ∧ Fill arena c c x := by
  induction children generalizing set with
  | nil => simp [Arena.enterChildren]
  | cons c rest ih =>
      obtain ⟨hc, hnodup⟩ := List.nodup_cons.1 hnodup
      obtain ⟨hcs, hsub⟩ := List.forall_mem_cons.1 hsub
      obtain ⟨hcenter, henter⟩ := List.forall_mem_cons.1 henter
      cases hcovered : arena.isCovered set c with
      | true =>
          have hclear : ¬ Clear arena set c := by
            simp [← isCovered_eq_false_iff, hcovered]
          have hstep : arena.enterChildren enter (c :: rest) set =
              arena.enterChildren enter rest set := by
            simp [Arena.enterChildren, hcovered]
          rw [hstep, ih hnodup hsub henter]
          simp [hclear]
      | false =>
          have hclear : Clear arena set c := isCovered_eq_false_iff.1 hcovered
          have hstep : arena.enterChildren enter (c :: rest) set =
              arena.enterChildren enter rest (enter c set) := by
            simp [Arena.enterChildren, hcovered]
          -- What is clear is asked of the set before the loop, not of the one so far.
          have hrest : ∀ d ∈ rest, Clear arena (enter c set) d ↔ Clear arena set d := by
            intro d hd
            have hne : c ≠ d := fun heq => hc (heq ▸ hd)
            exact clear_enter_iff hw hcenter hclear hcs (hsub d hd) hne
          rw [hstep, ih hnodup hsub henter, hcenter set hclear x]
          constructor
          · rintro ((hx | hx) | ⟨d, hd, hdclear, hx⟩)
            · exact .inl hx
            · exact .inr ⟨c, List.mem_cons_self, hclear, hx⟩
            · exact .inr ⟨d, List.mem_cons_of_mem c hd, (hrest d hd).1 hdclear, hx⟩
          · rintro (hx | ⟨d, hd, hdclear, hx⟩)
            · exact .inl (.inl hx)
            · rcases List.mem_cons.1 hd with rfl | hd
              · exact .inl (.inr hx)
              · exact .inr ⟨d, hd, (hrest d hd).2 hdclear, hx⟩

theorem nodup_children : (arena.state s).children.Nodup :=
  (hw.children_sorted s).imp Nat.ne_of_lt

/-- Beside a child that is entered, the other children are clear. -/
theorem clear_beside {base : StateSet} (hs : s ∈ (arena.state d).children)
    (hgs : arena.Within g s) (hclear : Clear arena base d)
    (hset : ∀ x, x ∈ set ↔ x ∈ base ∨ Fill arena s g x)
    (hc : c ∈ (arena.state d).children) (hne : c ≠ s) : Clear arena (set.insert d) c := by
  intro y hy hyc
  rcases StateSet.mem_insert.1 hy with rfl | hy
  · exact hw.not_within_of_below (hw.below_of_mem_children hc) hyc
  rcases (hset y).1 hy with hy | hy
  · exact hclear y hy (hw.within_trans hyc (hw.below_of_mem_children hc).within)
  · exact hne (hw.child_eq_of_within hc hs hyc (within_of_fill hw hgs hy))

/-- One step outwards: what is entered with a child becomes what is entered
with its parent. -/
theorem mem_enterParent_iff {base : StateSet} (hs : s ∈ (arena.state d).children)
    (hgs : arena.Within g s) (hclear : Clear arena base d)
    (henter : ∀ c ∈ (arena.state d).children, Enters arena enter c)
    (hset : ∀ x, x ∈ set ↔ x ∈ base ∨ Fill arena s g x) :
    x ∈ (if (arena.state d).isParallel then
        arena.enterChildren enter (arena.state d).children (set.insert d)
      else set.insert d) ↔ x ∈ base ∨ Fill arena d g x := by
  rcases Arena.kind_of_isLeaf_eq_false (hw.isLeaf_of_mem_children hs) with hk | hk
  · simp only [StateNode.isParallel, hk, beq_iff_eq, reduceCtorEq, if_false,
      StateSet.mem_insert, hset, fill_compound hw hk hs hgs]
    exact or_left_comm
  · -- The child on the way is covered, and the other children are clear.
    have hcovered : ¬ Clear arena (set.insert d) s := fun h =>
      h s (StateSet.mem_insert.2 (.inr ((hset s).2 (.inr (.self s g))))) .refl
    simp only [StateNode.isParallel, hk, beq_self_eq_true, if_true,
      mem_enterChildren_iff hw (nodup_children hw) (fun c hc => hc) henter,
      StateSet.mem_insert, hset, fill_parallel hk]
    constructor
    · rintro ((hx | hx | hx) | ⟨c, hc, hcclear, hx⟩)
      · exact .inr (.inl hx)
      · exact .inl hx
      · exact .inr (.inr ⟨s, hs, by rwa [goalIn_of_within hgs]⟩)
      · have hne : c ≠ s := fun heq => hcovered (heq ▸ hcclear)
        exact .inr (.inr ⟨c, hc, by rwa [goalIn_of_ne hw hc hs hgs hne]⟩)
    · rintro (hx | hx | ⟨c, hc, hx⟩)
      · exact .inl (.inr (.inl hx))
      · exact .inl (.inl hx)
      · by_cases hcs : c = s
        · subst hcs
          rw [goalIn_of_within hgs] at hx
          exact .inl (.inr (.inr hx))
        · rw [goalIn_of_ne hw hc hs hgs hcs] at hx
          exact .inr ⟨c, hc, clear_beside hw hs hgs hclear hset hc hcs, hx⟩

theorem between_of_parent {p : Nat} (hp : (arena.state s).parent = some p) :
    arena.between s d =
      if p = d ∨ p = root then [] else p :: arena.between p d := by
  unfold Arena.between
  rw [hw.ancestors_of_parent hp]
  by_cases hpd : p = d <;> by_cases hproot : p = root <;> simp [hpd, hproot]

/-- All steps outwards up to a child `c` of the domain. -/
theorem mem_enterBetween_iff {base : StateSet} (hc : c ∈ (arena.state d).children)
    (hsc : arena.Within s c) (hgs : arena.Within g s) (hclear : Clear arena base c)
    (henter : ∀ e, arena.Below e d → Enters arena enter e)
    (hset : ∀ x, x ∈ set ↔ x ∈ base ∨ Fill arena s g x) :
    x ∈ arena.enterBetween enter s d set ↔ x ∈ base ∨ Fill arena c g x := by
  have hcd : arena.Below c d := hw.below_of_mem_children hc
  induction s using Nat.strongRecOn generalizing set with
  | ind s ih =>
      -- the walk outwards ends at `c`, below the domain, which is not entered
      rcases hsc with rfl | hsc
      · have hnil : arena.between s d = [] := by
          simp [between_of_parent hw (hw.parent_of_mem_children hc)]
        simpa [Arena.enterBetween, hnil] using hset x
      · obtain ⟨p, hp, hpc⟩ := hw.below_iff.1 hsc
        have hpd : arena.Below p d := hw.below_of_within_of_below hpc hcd
        have hne : ¬ (p = d ∨ p = root) := by
          have hlt : d < p := hw.lt_of_below hpd
          simp only [root]
          omega
        have hsp : s ∈ (arena.state p).children := (hw.mem_children_iff p s).2 hp
        have hgp : arena.Within g p :=
          hw.within_trans hgs (hw.below_of_mem_children hsp).within
        have hchildren : ∀ e ∈ (arena.state p).children, Enters arena enter e :=
          fun e he => henter e
            (hw.below_of_below_of_within (hw.below_of_mem_children he) hpd.within)
        have hstep : arena.enterBetween enter s d set =
            arena.enterBetween enter p d
              (if (arena.state p).isParallel then
                arena.enterChildren enter (arena.state p).children (set.insert p)
              else set.insert p) := by
          simp [Arena.enterBetween, between_of_parent hw hp, hne]
        rw [hstep]
        refine ih p (hw.parent_lt _ _ hp) hpc hgp fun y => ?_
        exact mem_enterParent_iff hw hsp hgs (hclear.of_within hw hpc) hchildren hset

end Membership

section Default

variable {arena : Arena} (hw : arena.WellFormed) {c d fuel g s x : Nat} {set : StateSet}
include hw

/-- With enough fuel, entering a state adds its filling. -/
theorem enters_enterDefault (hfuel : arena.size ≤ fuel + s) :
    Enters arena (arena.enterDefault fuel) s := by
  induction fuel generalizing s with
  | zero =>
      -- a state outside of the arena reads as one without children
      intro set _ x
      have hleaf : (arena.state s).isLeaf := by
        rw [Arena.state_of_size_le (by omega)]
        rfl
      simp only [Arena.enterDefault, StateSet.mem_insert, fill_leaf hw hleaf]
      exact or_comm
  | succ fuel ih =>
      intro set hclear x
      have henter : ∀ e, arena.Below e s → Enters arena (arena.enterDefault fuel) e := by
        intro e he
        have hlt : s < e := hw.lt_of_below he
        exact ih (by omega)
      have hinsert : ∀ e, arena.Below e s → Clear arena (set.insert s) e :=
        fun e he => clear_insert_of_below hw hclear he
      cases hleaf : (arena.state s).isLeaf with
      | true =>
          have hadd : arena.enterDefault (fuel + 1) s set = set.insert s := by
            cases hk : (arena.state s).kind <;>
              simp_all [Arena.enterDefault, StateNode.isLeaf]
          rw [hadd, StateSet.mem_insert, fill_leaf hw hleaf]
          exact or_comm
      | false =>
        rcases Arena.kind_of_isLeaf_eq_false hleaf with hk | hk
        · obtain ⟨i, hi, his⟩ := hw.initial_below hk
          obtain ⟨c, hc, hic⟩ := hw.exists_child_within his
          have hset := henter i his (set.insert s) (hinsert i his)
          simp only [Arena.enterDefault, hk, hi]
          rw [mem_enterBetween_iff hw hc hic .refl (hinsert c (hw.below_of_mem_children hc))
            henter hset, fill_initial hw hk hi, fill_compound hw hk hc hic,
            StateSet.mem_insert, or_assoc]
          exact or_left_comm
        · simp only [Arena.enterDefault, hk]
          rw [mem_enterChildren_iff hw (nodup_children hw) (fun c hc => hc)
            (fun e he => henter e (hw.below_of_mem_children he)), fill_parallel_self hw hk,
            StateSet.mem_insert]
          constructor
          · rintro ((hx | hx) | ⟨e, he, -, hx⟩)
            · exact .inr (.inl hx)
            · exact .inl hx
            · exact .inr (.inr ⟨e, he, hx⟩)
          · -- only the state itself was added, so no child is covered yet
            rintro (hx | hx | ⟨e, he, hx⟩)
            · exact .inl (.inr hx)
            · exact .inl (.inl hx)
            · exact .inr ⟨e, he, hinsert e (hw.below_of_mem_children he), hx⟩

theorem enters_enterState : Enters arena arena.enterState s :=
  enters_enterDefault hw (Nat.le_add_right _ s)

/-- Entering a target adds what is entered with the child of the domain around
it, as long as nothing below the domain is there yet. -/
theorem mem_enterTarget_iff (hc : c ∈ (arena.state d).children) (hg : arena.Within g c)
    (hclear : Clear arena set c) :
    x ∈ arena.enterTarget g d set ↔ x ∈ set ∨ Fill arena c g x :=
  mem_enterBetween_iff hw hc hg .refl hclear (fun _ _ => enters_enterState hw)
    (enters_enterState hw set (hclear.of_within hw hg))

theorem mem_initialStates_iff :
    x ∈ arena.initialStates ↔ x ≠ root ∧ Fill arena root root x := by
  have hclear : Clear arena [] root := fun y hy => absurd hy List.not_mem_nil
  have hset := enters_enterState hw [] hclear x
  simp only [Arena.initialStates, StateSet.mem_erase, hset, List.not_mem_nil, false_or]
  exact and_comm

end Default

/-! ## Document order -/

section Order

variable {arena : Arena} {set : StateSet}

theorem pairwise_enterChildren {enter : Nat → StateSet → StateSet} {children : List Nat}
    (henter : ∀ c set, set.Pairwise (· < ·) → (enter c set).Pairwise (· < ·))
    (h : set.Pairwise (· < ·)) :
    (arena.enterChildren enter children set).Pairwise (· < ·) := by
  induction children generalizing set with
  | nil => exact h
  | cons c rest ih =>
      simp only [Arena.enterChildren, List.foldl_cons]
      apply ih
      split
      · exact h
      · exact henter c set h

theorem pairwise_enterBetween {enter : Nat → StateSet → StateSet} {s d : Nat}
    (henter : ∀ c set, set.Pairwise (· < ·) → (enter c set).Pairwise (· < ·))
    (h : set.Pairwise (· < ·)) :
    (arena.enterBetween enter s d set).Pairwise (· < ·) := by
  unfold Arena.enterBetween
  induction arena.between s d generalizing set with
  | nil => exact h
  | cons a rest ih =>
      rw [List.foldl_cons]
      apply ih
      dsimp only
      split
      · exact pairwise_enterChildren henter (StateSet.pairwise_insert h)
      · exact StateSet.pairwise_insert h

theorem pairwise_enterDefault (fuel s : Nat) (h : set.Pairwise (· < ·)) :
    (arena.enterDefault fuel s set).Pairwise (· < ·) := by
  induction fuel generalizing s set with
  | zero => exact StateSet.pairwise_insert h
  | succ fuel ih =>
      have hset : (set.insert s).Pairwise (· < ·) := StateSet.pairwise_insert h
      unfold Arena.enterDefault
      dsimp only
      split
      · split
        · exact hset
        · exact pairwise_enterBetween (fun c _ => ih c) (ih _ hset)
      · exact pairwise_enterChildren (fun c _ => ih c) hset
      · exact hset
      · exact hset

theorem pairwise_enterTarget {g d : Nat} (h : set.Pairwise (· < ·)) :
    (arena.enterTarget g d set).Pairwise (· < ·) :=
  pairwise_enterBetween (fun c _ => pairwise_enterDefault arena.size c)
    (pairwise_enterDefault arena.size g h)

end Order
end Statechart
