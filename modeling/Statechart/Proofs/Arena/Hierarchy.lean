import Mathlib.Data.Nat.Find
import Mathlib.Logic.Relation
import Mathlib.Tactic.ByContra
import Statechart.Model.Hierarchy

/-!
# The tree in an arena

A well-formed arena is a tree in document order: a state stands in the state
right before it or in one around that.  From this local condition follow the
global facts that the engine relies on.

* The states around one state are nested in each other
  (`WellFormed.within_or_within`).
* The descendants of a state stand right behind it, without a gap
  (`WellFormed.below_of_between`, `WellFormed.exists_stop`).
* A state that lies below another one lies within exactly one of its children
  (`WellFormed.exists_child_within`, `WellFormed.child_eq_of_within`).

Nothing is said here about which arenas are well-formed.
-/

namespace Statechart
namespace Arena

/-- `p` is the parent of `s`. -/
def Parent (arena : Arena) (s p : Nat) : Prop := (arena.state s).parent = some p

/-- An arena that holds a chart in document order. -/
structure WellFormed (arena : Arena) : Prop where
  root_kind : (arena.state root).kind = .compound
  root_transitions : (arena.state root).transitions = []
  parent_lt : ∀ s p, arena.Parent s p → p < s
  /-- A state stands in the state before it or in one around that. -/
  preorder : ∀ s, s + 1 < arena.size →
    ∃ p, arena.Parent (s + 1) p ∧ Relation.ReflTransGen arena.Parent s p
  mem_children_iff : ∀ s c, c ∈ (arena.state s).children ↔ arena.Parent c s
  children_sorted : ∀ s, (arena.state s).children.Pairwise (· < ·)
  isLeaf_iff : ∀ s, (arena.state s).isLeaf ↔ (arena.state s).children = []
  initial_inside : ∀ s, (arena.state s).kind = .compound →
    ∃ i, (arena.state s).initial = some i ∧ Relation.TransGen arena.Parent i s
  target_inside : ∀ s, ∀ t ∈ (arena.state s).transitions, ∀ g, t.target = some g →
    root < g ∧ g < arena.size

/-- `a` is a proper descendant of `b`. -/
def Below (arena : Arena) (a b : Nat) : Prop := b ∈ arena.ancestors a

/-- `a` is `b` or a descendant of it. -/
def Within (arena : Arena) (a b : Nat) : Prop := a = b ∨ arena.Below a b

/-- Neither of two states lies within the other one. -/
def Unrelated (arena : Arena) (a b : Nat) : Prop := ¬ arena.Within a b ∧ ¬ arena.Within b a

instance (arena : Arena) (a b : Nat) : Decidable (arena.Below a b) :=
  inferInstanceAs (Decidable (b ∈ arena.ancestors a))

instance (arena : Arena) (a b : Nat) : Decidable (arena.Within a b) :=
  inferInstanceAs (Decidable (a = b ∨ arena.Below a b))

instance (arena : Arena) (a b : Nat) : Decidable (arena.Unrelated a b) :=
  inferInstanceAs (Decidable (¬ arena.Within a b ∧ ¬ arena.Within b a))

variable {arena : Arena} {a b c d p s x : Nat}

@[simp] theorem isDescendant_iff : arena.isDescendant a b = true ↔ arena.Below a b := by
  simp [isDescendant, Below]

@[simp] theorem Within.refl : arena.Within a a := .inl rfl

theorem Unrelated.symm (h : arena.Unrelated a b) : arena.Unrelated b a := And.symm h

theorem Below.within (h : arena.Below a b) : arena.Within a b := .inr h

/-- Outside an arena every state is an atomic one without a parent. -/
theorem state_of_size_le (h : arena.size ≤ s) : arena.state s = default := by
  simp [state, h]

theorem lt_size_of_parent (h : arena.Parent s p) : s < arena.size := by
  by_contra hs
  rw [Parent, state_of_size_le (Nat.le_of_not_lt hs)] at h
  cases h

theorem kind_of_isLeaf_eq_false (h : (arena.state s).isLeaf = false) :
    (arena.state s).kind = .compound ∨ (arena.state s).kind = .parallel := by
  unfold StateNode.isLeaf at h
  cases hk : (arena.state s).kind <;> simp [hk] at h ⊢

theorem lt_size_of_kind (h : (arena.state s).kind ≠ .atomic) : s < arena.size := by
  by_contra hs
  rw [state_of_size_le (Nat.le_of_not_lt hs)] at h
  exact h rfl

/-! ## The chain of ancestors -/

section ParentsFirst

variable (hlt : ∀ s p, arena.Parent s p → p < s)
include hlt

/-- Any fuel that is not smaller than the index of a state finds all ancestors. -/
private theorem ancestorsUpTo_eq (n : Nat) :
    ∀ m s, s ≤ n → s ≤ m → arena.ancestorsUpTo n s = arena.ancestorsUpTo m s := by
  have hroot : (arena.state 0).parent = none :=
    Option.eq_none_iff_forall_ne_some.2 fun p hp => Nat.not_lt_zero p (hlt 0 p hp)
  induction n with
  | zero =>
      intro m s hn _
      obtain rfl : s = 0 := by omega
      cases m <;> simp [ancestorsUpTo, hroot]
  | succ n ih =>
      intro m s hn hm
      cases m with
      | zero =>
          obtain rfl : s = 0 := by omega
          simp [ancestorsUpTo, hroot]
      | succ m =>
          cases hp : (arena.state s).parent with
          | none => simp [ancestorsUpTo, hp]
          | some p =>
              have hps : p < s := hlt s p hp
              simp [ancestorsUpTo, hp, ih m p (by omega) (by omega)]

theorem ancestors_of_parent_lt (h : arena.Parent s p) :
    arena.ancestors s = p :: arena.ancestors p := by
  have hps : p < s := hlt _ _ h
  obtain ⟨k, rfl⟩ : ∃ k, s = k + 1 := ⟨s - 1, by omega⟩
  have hp : (arena.state (k + 1)).parent = some p := h
  simp [ancestors, ancestorsUpTo, hp, ancestorsUpTo_eq hlt k p p (by omega) (Nat.le_refl p)]

/-- Where parents stand before their children, the chain of ancestors leads over
all of them. -/
theorem below_iff_of_parent_lt :
    arena.Below a b ↔ ∃ p, arena.Parent a p ∧ arena.Within p b := by
  unfold Parent
  cases hp : (arena.state a).parent with
  | none =>
      have hnil : arena.ancestors a = [] := by
        cases a <;> simp [ancestors, ancestorsUpTo, hp]
      simp [Below, hnil]
  | some p =>
      rw [Below, ancestors_of_parent_lt hlt hp, List.mem_cons]
      simp [Within, Below, eq_comm]

end ParentsFirst

namespace WellFormed

variable (hw : arena.WellFormed)
include hw

theorem root_parent : (arena.state root).parent = none := by
  cases hp : (arena.state root).parent with
  | none => rfl
  | some p => exact absurd (hw.parent_lt root p hp) (Nat.not_lt_zero p)

theorem not_parent_root : ¬ arena.Parent root p := fun hp =>
  Option.some_ne_none p (hp.symm.trans hw.root_parent)

theorem ancestors_of_parent (h : arena.Parent s p) :
    arena.ancestors s = p :: arena.ancestors p :=
  ancestors_of_parent_lt hw.parent_lt h

theorem below_iff :
    arena.Below a b ↔ ∃ p, arena.Parent a p ∧ arena.Within p b :=
  below_iff_of_parent_lt hw.parent_lt

theorem not_root_below (d : Nat) : ¬ arena.Below root d := by
  intro h
  obtain ⟨p, hp, -⟩ := hw.below_iff.1 h
  exact hw.not_parent_root hp

theorem below_of_parent (h : arena.Parent a b) : arena.Below a b :=
  hw.below_iff.2 ⟨b, h, .refl⟩

theorem below_of_transGen (h : Relation.TransGen arena.Parent a b) : arena.Below a b := by
  induction h using Relation.TransGen.head_induction_on with
  | single h => exact hw.below_of_parent h
  | head h _ ih => exact hw.below_iff.2 ⟨_, h, ih.within⟩

theorem initial_below (h : (arena.state s).kind = .compound) :
    ∃ i, (arena.state s).initial = some i ∧ arena.Below i s := by
  obtain ⟨i, hi, hinside⟩ := hw.initial_inside s h
  exact ⟨i, hi, hw.below_of_transGen hinside⟩

theorem below_of_mem_children (h : c ∈ (arena.state s).children) : arena.Below c s :=
  hw.below_of_parent ((hw.mem_children_iff s c).1 h)

theorem lt_of_below (h : arena.Below a b) : b < a := by
  induction a using Nat.strongRecOn with
  | ind a ih =>
      obtain ⟨p, hp, hpb⟩ := hw.below_iff.1 h
      have hpa : p < a := hw.parent_lt _ _ hp
      rcases hpb with rfl | hpb
      · exact hpa
      · exact Nat.lt_trans (ih p hpa hpb) hpa

theorem le_of_within (h : arena.Within a b) : b ≤ a := by
  rcases h with rfl | h
  · exact Nat.le_refl a
  · exact Nat.le_of_lt (hw.lt_of_below h)

theorem not_below_self : ¬ arena.Below a a := fun h => Nat.lt_irrefl a (hw.lt_of_below h)

theorem below_of_below_of_within (hab : arena.Below a b) (hbc : arena.Within b c) :
    arena.Below a c := by
  rcases hbc with rfl | hbc
  · exact hab
  induction a using Nat.strongRecOn with
  | ind a ih =>
      obtain ⟨p, hp, hpb⟩ := hw.below_iff.1 hab
      refine hw.below_iff.2 ⟨p, hp, .inr ?_⟩
      rcases hpb with rfl | hpb
      · exact hbc
      · exact ih p (hw.parent_lt _ _ hp) hpb

theorem below_of_within_of_below (hab : arena.Within a b) (hbc : arena.Below b c) :
    arena.Below a c := by
  rcases hab with rfl | hab
  · exact hbc
  · exact hw.below_of_below_of_within hab hbc.within

theorem within_trans (hab : arena.Within a b) (hbc : arena.Within b c) : arena.Within a c := by
  rcases hab with rfl | hab
  · exact hbc
  · exact (hw.below_of_below_of_within hab hbc).within

theorem not_within_of_below (h : arena.Below a b) : ¬ arena.Within b a := fun hba =>
  hw.not_below_self (hw.below_of_below_of_within h hba)

/-- The states around one state are nested in each other. -/
theorem within_or_within (ha : arena.Within x a) (hb : arena.Within x b) :
    arena.Within a b ∨ arena.Within b a := by
  induction x using Nat.strongRecOn with
  | ind x ih =>
      rcases ha with rfl | ha
      · exact .inl hb
      rcases hb with rfl | hb
      · exact .inr ha.within
      obtain ⟨p, hp, hpa⟩ := hw.below_iff.1 ha
      obtain ⟨q, hq, hqb⟩ := hw.below_iff.1 hb
      obtain rfl : p = q := Option.some.inj (hp.symm.trans hq)
      exact ih p (hw.parent_lt _ _ hp) hpa hqb

/-! ## Subtrees are intervals -/

/-- Between a state and one of its descendants stand only descendants. -/
theorem below_of_between (h : arena.Below a s) (hsb : s < b) (hba : b ≤ a) :
    arena.Below b s := by
  induction a with
  | zero => omega
  | succ a ih =>
      rcases Nat.eq_or_lt_of_le hba with rfl | hlt
      · exact h
      obtain ⟨p, hp, hps⟩ := hw.below_iff.1 h
      obtain ⟨q, hq, hqa⟩ := hw.preorder a (lt_size_of_parent hp)
      obtain rfl : q = p := Option.some.inj (hq.symm.trans hp)
      have haq : arena.Within a q := by
        rcases Relation.reflTransGen_iff_eq_or_transGen.1 hqa with rfl | hqa
        · exact .refl
        · exact (hw.below_of_transGen hqa).within
      have has : arena.Within a s := hw.within_trans haq hps
      rcases has with rfl | has
      · omega
      · exact ih has (by omega)

theorem lt_size_of_below (h : arena.Below a b) : a < arena.size := by
  obtain ⟨p, hp, -⟩ := hw.below_iff.1 h
  exact lt_size_of_parent hp

/-- The descendants of a state are those behind it up to some index. -/
theorem exists_stop (hs : s < arena.size) :
    ∃ stop, s < stop ∧ stop ≤ arena.size ∧ ∀ a, arena.Below a s ↔ s < a ∧ a < stop := by
  have hsize : s < arena.size ∧ ¬ arena.Below arena.size s :=
    ⟨hs, fun h => Nat.lt_irrefl _ (hw.lt_size_of_below h)⟩
  have hend : ∃ n, s < n ∧ ¬ arena.Below n s := ⟨arena.size, hsize⟩
  refine ⟨Nat.find hend, (Nat.find_spec hend).1, Nat.find_min' hend hsize, fun a => ?_⟩
  constructor
  · intro h
    refine ⟨hw.lt_of_below h, ?_⟩
    by_contra hle
    have hstop := hw.below_of_between h (Nat.find_spec hend).1 (Nat.le_of_not_lt hle)
    exact (Nat.find_spec hend).2 hstop
  · rintro ⟨hsa, hstop⟩
    by_contra h
    exact Nat.find_min hend hstop ⟨hsa, h⟩

theorem below_root (h0 : root < s) (hs : s < arena.size) : arena.Below s root := by
  induction s using Nat.strongRecOn with
  | ind s ih =>
      obtain ⟨k, rfl⟩ : ∃ k, s = k + 1 := ⟨s - 1, by simp only [root] at h0; omega⟩
      obtain ⟨p, hp, -⟩ := hw.preorder k hs
      have hpk : p < k + 1 := hw.parent_lt _ _ hp
      refine hw.below_iff.2 ⟨p, hp, ?_⟩
      rcases Nat.eq_zero_or_pos p with rfl | hp0
      · exact .refl
      · exact (ih p hpk hp0 (by omega)).within

/-! ## Children -/

/-- A descendant lies within a child. -/
theorem exists_child_within (h : arena.Below x s) :
    ∃ c ∈ (arena.state s).children, arena.Within x c := by
  induction x using Nat.strongRecOn with
  | ind x ih =>
      obtain ⟨p, hp, hps⟩ := hw.below_iff.1 h
      rcases hps with rfl | hps
      · exact ⟨x, (hw.mem_children_iff p x).2 hp, .refl⟩
      · obtain ⟨c, hc, hpc⟩ := ih p (hw.parent_lt _ _ hp) hps
        exact ⟨c, hc, (hw.below_iff.2 ⟨p, hp, hpc⟩).within⟩

theorem parent_of_mem_children (h : c ∈ (arena.state s).children) :
    arena.Parent c s :=
  (hw.mem_children_iff s c).1 h

theorem child_eq_of_within_child (hc : c ∈ (arena.state s).children)
    (hd : d ∈ (arena.state s).children) (h : arena.Within c d) : c = d := by
  rcases h with rfl | h
  · rfl
  obtain ⟨p, hp, hpd⟩ := hw.below_iff.1 h
  obtain rfl : p = s := Option.some.inj (hp.symm.trans (hw.parent_of_mem_children hc))
  exact absurd hpd (hw.not_within_of_below (hw.below_of_mem_children hd))

/-- The children of a state have no descendant in common. -/
theorem child_eq_of_within (hc : c ∈ (arena.state s).children)
    (hd : d ∈ (arena.state s).children) (hxc : arena.Within x c) (hxd : arena.Within x d) :
    c = d := by
  rcases hw.within_or_within hxc hxd with h | h
  · exact hw.child_eq_of_within_child hc hd h
  · exact (hw.child_eq_of_within_child hd hc h).symm

/-- A state around a child is around its parent, unless it is the child. -/
theorem within_of_child_below (hc : c ∈ (arena.state s).children) (h : arena.Below c a) :
    arena.Within s a := by
  obtain ⟨p, hp, hpa⟩ := hw.below_iff.1 h
  obtain rfl : p = s := Option.some.inj (hp.symm.trans (hw.parent_of_mem_children hc))
  exact hpa

/-- A child lies below a state only if its parent does or is that state. -/
theorem not_below_of_mem_children (hc : c ∈ (arena.state s).children) (hne : s ≠ a)
    (h : ¬ arena.Below s a) : ¬ arena.Below c a := by
  intro hca
  rcases hw.within_of_child_below hc hca with heq | hsa
  · exact hne heq
  · exact h hsa

/-- A state around another one is no child of it. -/
theorem not_mem_children_of_within (hc : c ∈ (arena.state s).children)
    (h : arena.Within a c) : s ∉ (arena.state a).children := by
  intro hs
  have has : arena.Below a s := hw.below_of_within_of_below h (hw.below_of_mem_children hc)
  exact hw.not_within_of_below has (hw.below_of_mem_children hs).within

theorem isLeaf_of_mem_children (h : c ∈ (arena.state s).children) :
    (arena.state s).isLeaf = false := by
  cases hleaf : (arena.state s).isLeaf with
  | false => rfl
  | true =>
      rw [(hw.isLeaf_iff s).1 hleaf] at h
      cases h

theorem exists_mem_children (h : (arena.state s).isLeaf = false) :
    ∃ c, c ∈ (arena.state s).children := by
  have hne : (arena.state s).children ≠ [] := fun hnil => by
    rw [(hw.isLeaf_iff s).2 hnil] at h
    cases h
  exact List.exists_mem_of_ne_nil _ hne

/-- What holds of a state whenever it holds of its children holds of all. -/
theorem children_induction {P : Nat → Prop}
    (step : ∀ s, (∀ c ∈ (arena.state s).children, P c) → P s) (s : Nat) : P s := by
  -- children have a greater index, and the size bounds those of all states
  induction hn : arena.size - s using Nat.strongRecOn generalizing s with
  | ind n ih =>
      refine step s fun c hc => ih (arena.size - c) ?_ c rfl
      have hlt : s < c := hw.parent_lt _ _ (hw.parent_of_mem_children hc)
      have hsize : c < arena.size := lt_size_of_parent (hw.parent_of_mem_children hc)
      omega

end WellFormed
end Arena
end Statechart
