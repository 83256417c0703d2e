import Mathlib.Logic.ExistsUnique
import Statechart.Engine.Session
import Statechart.Proofs.Arena.Hierarchy

/-!
# Legal configurations

The active states of a running chart form a configuration of its tree: one
top-level state, one child of every active compound state and all children of
every active parallel one.  This file states that as `Legal` and, for one
subtree instead of the whole chart, as `Region`.  Regions can be put together
from the regions of children (`Region.ofCompound`, `Region.ofParallel`), and
inside a region several subtrees can be exchanged at once
(`Exchange.region_after`).  The latter is what a microstep does.
-/

namespace Statechart

open Arena (root)

/-- The active states, the root left out, make up a configuration. -/
structure Legal (arena : Arena) (active : StateSet) : Prop where
  /-- Exactly one top-level state is active. -/
  top : ∃! c, c ∈ (arena.state root).children ∧ c ∈ active
  parent : ∀ s ∈ active, ∃ p, (arena.state s).parent = some p ∧ (p = root ∨ p ∈ active)
  compound : ∀ s ∈ active, (arena.state s).kind = .compound →
    ∃! c, c ∈ (arena.state s).children ∧ c ∈ active
  parallel : ∀ s ∈ active, (arena.state s).kind = .parallel →
    ∀ c ∈ (arena.state s).children, c ∈ active
  leaf : ∀ s ∈ active, (arena.state s).isLeaf → ∀ c ∈ (arena.state s).children, c ∉ active

/-- Some states make up a configuration of the subtree of `top`. -/
structure Region (arena : Arena) (top : Nat) (states : Nat → Prop) : Prop where
  top_mem : states top
  parent : ∀ x, states x → x ≠ top → ∃ p, (arena.state x).parent = some p ∧ states p
  compound : ∀ x, states x → (arena.state x).kind = .compound →
    ∃! c, c ∈ (arena.state x).children ∧ states c
  parallel : ∀ x, states x → (arena.state x).kind = .parallel →
    ∀ c ∈ (arena.state x).children, states c

namespace Region

variable {arena : Arena} {s c x : Nat} {states : Nat → Prop}

theorem congr {other : Nat → Prop} (h : Region arena s states)
    (heq : ∀ x, other x ↔ states x) : Region arena s other := by
  have hfun : other = states := funext fun x => propext (heq x)
  rwa [hfun]

theorem ofLeaf (hs : (arena.state s).isLeaf) : Region arena s (· = s) where
  top_mem := rfl
  parent x hx hne := absurd hx hne
  compound x hx hk := by subst hx; simp [StateNode.isLeaf, hk] at hs
  parallel x hx hk := by subst hx; simp [StateNode.isLeaf, hk] at hs

variable (hw : arena.WellFormed)
include hw

/-- A region of a subtree has no states outside of it. -/
theorem within (h : Region arena s states) (hx : states x) : arena.Within x s := by
  induction x using Nat.strongRecOn with
  | ind x ih =>
      by_cases hxs : x = s
      · exact .inl hxs
      · obtain ⟨p, hp, hstates⟩ := h.parent x hx hxs
        exact .inr (hw.below_iff.2 ⟨p, hp, ih p (hw.parent_lt _ _ hp) hstates⟩)

/-- A compound state with a region of one child. -/
theorem ofCompound (hs : (arena.state s).kind = .compound) (hc : c ∈ (arena.state s).children)
    (h : Region arena c states) : Region arena s fun x => x = s ∨ states x where
  top_mem := .inl rfl
  parent x hx hne := by
    have hx : states x := hx.resolve_left hne
    by_cases hxc : x = c
    · subst hxc
      exact ⟨s, hw.parent_of_mem_children hc, .inl rfl⟩
    · obtain ⟨p, hp, hstates⟩ := h.parent x hx hxc
      exact ⟨p, hp, .inr hstates⟩
  compound x hx hk := by
    rcases hx with rfl | hx
    · refine ⟨c, ⟨hc, .inr h.top_mem⟩, ?_⟩
      rintro d ⟨hd, rfl | hd'⟩
      · exact absurd (hw.below_of_mem_children hd) hw.not_below_self
      · exact hw.child_eq_of_within_child hd hc (h.within hw hd')
    · obtain ⟨d, ⟨hd, hstates⟩, huniq⟩ := h.compound x hx hk
      refine ⟨d, ⟨hd, .inr hstates⟩, ?_⟩
      rintro e ⟨he, rfl | he'⟩
      · exact absurd he (hw.not_mem_children_of_within hc (h.within hw hx))
      · exact huniq e ⟨he, he'⟩
  parallel x hx hk d hd := by
    rcases hx with rfl | hx
    · rw [hs] at hk
      cases hk
    · exact .inr (h.parallel x hx hk d hd)

/-- A parallel state with a region of each child. -/
theorem ofParallel {regions : Nat → Nat → Prop} (hs : (arena.state s).kind = .parallel)
    (h : ∀ c ∈ (arena.state s).children, Region arena c (regions c)) :
    Region arena s fun x => x = s ∨ ∃ c ∈ (arena.state s).children, regions c x where
  top_mem := .inl rfl
  parent x hx hne := by
    obtain ⟨c, hc, hx⟩ := hx.resolve_left hne
    by_cases hxc : x = c
    · subst hxc
      exact ⟨s, hw.parent_of_mem_children hc, .inl rfl⟩
    · obtain ⟨p, hp, hstates⟩ := (h c hc).parent x hx hxc
      exact ⟨p, hp, .inr ⟨c, hc, hstates⟩⟩
  compound x hx hk := by
    rcases hx with rfl | ⟨c, hc, hx⟩
    · rw [hs] at hk
      cases hk
    · have hxc : arena.Within x c := (h c hc).within hw hx
      obtain ⟨d, ⟨hd, hstates⟩, huniq⟩ := (h c hc).compound x hx hk
      refine ⟨d, ⟨hd, .inr ⟨c, hc, hstates⟩⟩, ?_⟩
      rintro e ⟨he, rfl | ⟨c', hc', he'⟩⟩
      · exact absurd he (hw.not_mem_children_of_within hc hxc)
      · -- the child may not lie in the region of a sibling
        have hec : arena.Within e c :=
          (hw.below_of_below_of_within (hw.below_of_mem_children he) hxc).within
        obtain rfl : c' = c := hw.child_eq_of_within hc' hc ((h c' hc').within hw he') hec
        exact huniq e ⟨he, he'⟩
  parallel x hx hk d hd := by
    rcases hx with rfl | ⟨c, hc, hx⟩
    · exact .inr ⟨d, hd, (h d hd).top_mem⟩
    · exact .inr ⟨c, hc, (h c hc).parallel x hx hk d hd⟩

end Region

/-! ## Exchanging parts of a region -/

/-- Some unrelated compound states of a region, and for each of them one of its
children with a new region. -/
structure Exchange (arena : Arena) (s : Nat) (states : Nat → Prop) {ι : Type}
    (domain child : ι → Nat) (fill : ι → Nat → Prop) : Prop where
  region : Region arena s states
  domain_mem : ∀ t, states (domain t)
  kind : ∀ t, (arena.state (domain t)).kind = .compound
  unrelated : ∀ t u, t ≠ u → arena.Unrelated (domain t) (domain u)
  child_mem : ∀ t, child t ∈ (arena.state (domain t)).children
  fill_region : ∀ t, Region arena (child t) (fill t)

namespace Exchange

variable {arena : Arena} {s : Nat} {states : Nat → Prop} {ι : Type} {domain child : ι → Nat}
  {fill : ι → Nat → Prop} (hw : arena.WellFormed)
  (h : Exchange arena s states domain child fill) {t u : ι} {x : Nat}
include hw h

theorem below_of_fill (hx : fill t x) : arena.Below x (domain t) :=
  hw.below_of_within_of_below ((h.fill_region t).within hw hx)
    (hw.below_of_mem_children (h.child_mem t))

theorem not_domain_below (t u : ι) : ¬ arena.Below (domain t) (domain u) := by
  intro htu
  by_cases heq : t = u
  · subst heq
    exact hw.not_below_self htu
  · exact (h.unrelated t u heq).1 htu.within

/-- No state lies below two of the domains. -/
theorem eq_of_below (hxt : arena.Below x (domain t)) (hxu : arena.Below x (domain u)) :
    t = u := by
  by_contra hne
  rcases hw.within_or_within hxt.within hxu.within with htu | hut
  · exact (h.unrelated t u hne).1 htu
  · exact (h.unrelated t u hne).2 hut

/-- The states after the exchange: first everything below one of the domains
goes, then the new regions come. -/
def After (_ : Exchange arena s states domain child fill) (x : Nat) : Prop :=
  (states x ∧ ∀ t, ¬ arena.Below x (domain t)) ∨ ∃ t, fill t x

theorem existsUnique_child_of_domain (t : ι) :
    ∃! c, c ∈ (arena.state (domain t)).children ∧ h.After c := by
  refine ⟨child t, ⟨h.child_mem t, .inr ⟨t, (h.fill_region t).top_mem⟩⟩, ?_⟩
  rintro d ⟨hd, ⟨-, hdkept⟩ | ⟨u, hdu⟩⟩
  · exact absurd (hw.below_of_mem_children hd) (hdkept t)
  · obtain rfl : t = u := h.eq_of_below hw (hw.below_of_mem_children hd) (h.below_of_fill hw hdu)
    exact hw.child_eq_of_within_child hd (h.child_mem t) ((h.fill_region t).within hw hdu)

/-- The children of a kept state that is no domain are kept. -/
theorem existsUnique_child_of_kept (hx : states x) (hkept : ∀ t, ¬ arena.Below x (domain t))
    (hne : ∀ t, x ≠ domain t) (hk : (arena.state x).kind = .compound) :
    ∃! c, c ∈ (arena.state x).children ∧ h.After c := by
  obtain ⟨d, ⟨hd, hstates⟩, huniq⟩ := h.region.compound x hx hk
  refine ⟨d, ⟨hd, .inl ⟨hstates, fun t => ?_⟩⟩, ?_⟩
  · exact hw.not_below_of_mem_children hd (hne t) (hkept t)
  · rintro e ⟨he, ⟨he', -⟩ | ⟨t, het⟩⟩
    · exact huniq e ⟨he, he'⟩
    · exact absurd (h.below_of_fill hw het) (hw.not_below_of_mem_children he (hne t) (hkept t))

theorem existsUnique_child_of_fill (hx : fill t x) (hk : (arena.state x).kind = .compound) :
    ∃! c, c ∈ (arena.state x).children ∧ h.After c := by
  obtain ⟨d, ⟨hd, hdfill⟩, huniq⟩ := (h.fill_region t).compound x hx hk
  refine ⟨d, ⟨hd, .inr ⟨t, hdfill⟩⟩, ?_⟩
  rintro e ⟨he, he'⟩
  have het : arena.Below e (domain t) :=
    hw.below_of_below_of_within (hw.below_of_mem_children he) (h.below_of_fill hw hx).within
  rcases he' with ⟨-, hekept⟩ | ⟨u, heu⟩
  · exact absurd het (hekept t)
  · obtain rfl : t = u := h.eq_of_below hw het (h.below_of_fill hw heu)
    exact huniq e ⟨he, heu⟩

/-- All exchanges can happen at once. -/
theorem region_after : Region arena s h.After where
  top_mem := by
    refine .inl ⟨h.region.top_mem, fun t ht => ?_⟩
    exact hw.not_within_of_below ht (h.region.within hw (h.domain_mem t))
  parent := by
    rintro x (⟨hx, hkept⟩ | ⟨t, hx⟩) hne
    · obtain ⟨p, hp, hstates⟩ := h.region.parent x hx hne
      refine ⟨p, hp, .inl ⟨hstates, fun t hpt => ?_⟩⟩
      exact hkept t (hw.below_iff.2 ⟨p, hp, hpt.within⟩)
    · by_cases hxc : x = child t
      · subst hxc
        exact ⟨domain t, hw.parent_of_mem_children (h.child_mem t),
          .inl ⟨h.domain_mem t, h.not_domain_below hw t⟩⟩
      · obtain ⟨p, hp, hpfill⟩ := (h.fill_region t).parent x hx hxc
        exact ⟨p, hp, .inr ⟨t, hpfill⟩⟩
  compound := by
    -- A kept state can be a domain itself; then its active child is a new one.
    rintro x (⟨hx, hkept⟩ | ⟨t, hx⟩) hk
    · by_cases hdomain : ∃ t, x = domain t
      · obtain ⟨t, rfl⟩ := hdomain
        exact h.existsUnique_child_of_domain hw t
      · exact h.existsUnique_child_of_kept hw hx hkept (fun t heq => hdomain ⟨t, heq⟩) hk
    · exact h.existsUnique_child_of_fill hw hx hk
  parallel := by
    rintro x (⟨hx, hkept⟩ | ⟨t, hx⟩) hk d hd
    · -- all domains are compound, so the children of a parallel state are kept with it
      refine .inl ⟨h.region.parallel x hx hk d hd, fun t => ?_⟩
      refine hw.not_below_of_mem_children hd ?_ (hkept t)
      rintro rfl
      rw [h.kind t] at hk
      cases hk
    · exact .inr ⟨t, (h.fill_region t).parallel x hx hk d hd⟩

end Exchange

/-! ## Legal configurations as regions of the root -/

/-- A state is active, or it is the root, which is never listed. -/
def StateSet.On (active : StateSet) (x : Nat) : Prop := x = root ∨ x ∈ active

namespace Legal

variable {arena : Arena} {active : StateSet} {s x : Nat} (hw : arena.WellFormed)
include hw

/-- A child is never the root. -/
theorem on_child_iff {c : Nat} (hc : c ∈ (arena.state s).children) :
    active.On c ↔ c ∈ active := by
  refine or_iff_right ?_
  rintro rfl
  exact hw.not_parent_root (hw.parent_of_mem_children hc)

theorem existsUnique_on_child_iff :
    (∃! c, c ∈ (arena.state s).children ∧ active.On c) ↔
      ∃! c, c ∈ (arena.state s).children ∧ c ∈ active :=
  existsUnique_congr fun _ => and_congr_right fun hc => on_child_iff hw hc

theorem iff_region :
    Legal arena active ↔ root ∉ active ∧ Region arena root active.On := by
  constructor
  · intro h
    have hroot : root ∉ active := fun hmem => by
      obtain ⟨p, hp, -⟩ := h.parent root hmem
      exact hw.not_parent_root hp
    refine ⟨hroot, .inl rfl, ?_, ?_, ?_⟩
    · intro x hx hne
      exact h.parent x (hx.resolve_left hne)
    · rintro x (rfl | hx) hk
      · exact (existsUnique_on_child_iff hw).2 h.top
      · exact (existsUnique_on_child_iff hw).2 (h.compound x hx hk)
    · rintro x (rfl | hx) hk c hc
      · cases hw.root_kind.symm.trans hk
      · exact .inr (h.parallel x hx hk c hc)
  · rintro ⟨hroot, h⟩
    have htop := h.compound root h.top_mem hw.root_kind
    refine ⟨(existsUnique_on_child_iff hw).1 htop, ?_, ?_, ?_, ?_⟩
    · intro x hx
      exact h.parent x (.inr hx) fun heq => hroot (heq ▸ hx)
    · intro x hx hk
      exact (existsUnique_on_child_iff hw).1 (h.compound x (.inr hx) hk)
    · intro x hx hk c hc
      exact (on_child_iff hw hc).1 (h.parallel x (.inr hx) hk c hc)
    · intro x _ hleaf c hc
      rw [(hw.isLeaf_iff x).1 hleaf] at hc
      cases hc

variable (h : Legal arena active)
include h

theorem region : Region arena root active.On := ((iff_region hw).1 h).2

theorem root_not_mem : root ∉ active := ((iff_region hw).1 h).1

/-- What lies around an active state is active. -/
theorem on_of_within (hx : active.On x) (hxs : arena.Within x s) : active.On s := by
  induction x using Nat.strongRecOn with
  | ind x ih =>
      rcases hxs with rfl | hxs
      · exact hx
      obtain ⟨p, hp, hps⟩ := hw.below_iff.1 hxs
      have hne : x ≠ root := fun heq => by
        subst heq
        exact hw.not_parent_root hp
      obtain ⟨q, hq, hon⟩ := (h.region hw).parent x hx hne
      obtain rfl : q = p := Option.some.inj (hq.symm.trans hp)
      exact ih q (hw.parent_lt _ _ hp) hon hps

/-- An active state that can have children has an active one. -/
theorem exists_active_child (hs : active.On s) (hleaf : (arena.state s).isLeaf = false) :
    ∃ c ∈ (arena.state s).children, c ∈ active := by
  obtain ⟨c, hc, hon⟩ : ∃ c ∈ (arena.state s).children, active.On c := by
    rcases Arena.kind_of_isLeaf_eq_false hleaf with hk | hk
    · obtain ⟨c, ⟨hc, hon⟩, -⟩ := (h.region hw).compound s hs hk
      exact ⟨c, hc, hon⟩
    · obtain ⟨c, hc⟩ := hw.exists_mem_children hleaf
      exact ⟨c, hc, (h.region hw).parallel s hs hk c hc⟩
  exact ⟨c, hc, (on_child_iff hw hc).1 hon⟩

/-- An active state is a leaf exactly if none of its children is active. -/
theorem isLeaf_iff_no_active_child (hs : s ∈ active) :
    (arena.state s).isLeaf ↔ ∀ c ∈ (arena.state s).children, c ∉ active := by
  refine ⟨h.leaf s hs, fun hnone => ?_⟩
  by_contra hleaf
  obtain ⟨c, hc, hmem⟩ := h.exists_active_child hw (.inr hs) (by simpa using hleaf)
  exact hnone c hc hmem

/-- Within every active state there is an active leaf. -/
theorem exists_active_leaf (hs : active.On s) :
    ∃ l ∈ active, (arena.state l).isLeaf ∧ arena.Within l s := by
  induction s using hw.children_induction with
  | step s ih =>
      cases hleaf : (arena.state s).isLeaf with
      | true =>
          refine ⟨s, hs.resolve_left ?_, hleaf, .refl⟩
          rintro rfl
          simp [StateNode.isLeaf, hw.root_kind] at hleaf
      | false =>
          obtain ⟨c, hc, hmem⟩ := h.exists_active_child hw hs hleaf
          obtain ⟨l, hl, hlleaf, hlc⟩ := ih c hc (.inr hmem)
          exact ⟨l, hl, hlleaf, hw.within_trans hlc (hw.below_of_mem_children hc).within⟩

end Legal
end Statechart
