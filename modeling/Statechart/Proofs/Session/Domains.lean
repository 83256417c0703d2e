import Statechart.Proofs.Session.Coherence

/-!
# The domains of the transitions of active states

What a transition leaves depends on its domain alone, and the domain on where its source and its
target stand.  There are two cases.  A transition that stays inside of its source
(`Arena.StaysInside`) has the source itself as its domain and does not leave it.  Every other one
that has a target, also one from a state to itself, to an ancestor or to a descendant, leaves its
source; its domain is the innermost compound state around both ends, and parallel states are
passed over.

`Confines` says this of one transition in one configuration, and `domains_confine` of all
reachable ones.  There the active states are a legal configuration, so a domain is active or the
root and has active states below it.  Hence two transitions get in each other's way exactly if
one domain lies within the other.
-/

namespace Statechart

open Arena (root)
open Relation (TransGen ReflTransGen)

/-- The transition is internal and leads from a compound state to a descendant of it. -/
structure Arena.StaysInside (arena : Arena) (t : TransitionRef) (g : Nat) : Prop where
  isInternal : (arena.transition t).isInternal = true
  kind : (arena.state t.source).kind = .compound
  target : TransGen arena.Parent g t.source

/-- In the configuration, `d` is the domain of the transition, whose target is `g`. -/
structure Confines (arena : Arena) (active : StateSet) (t : TransitionRef) (g d : Nat) : Prop where
  domain : arena.domain? t = some d
  kind : (arena.state d).kind = .compound
  on : d = root ∨ d ∈ active
  target : TransGen arena.Parent g d
  /-- The active proper descendants of the domain are left. -/
  exits : ∀ i, i ∈ arena.exitSet active t ↔ i ∈ active ∧ TransGen arena.Parent i d
  exits_something : ∃ i, i ∈ arena.exitSet active t
  inner : arena.StaysInside t g → d = t.source ∧ t.source ∉ arena.exitSet active t
  outer : ¬ arena.StaysInside t g →
    TransGen arena.Parent t.source d ∧ t.source ∈ arena.exitSet active t ∧
      arena.LeastAround [t.source, g] d

section Domain

variable {arena : Arena} {active : StateSet} {t : TransitionRef} {d g : Nat}
  (hw : arena.WellFormed)
include hw

theorem Arena.staysInside_iff :
    arena.StaysInside t g ↔ ((arena.transition t).isInternal && (arena.state t.source).isCompound &&
      arena.isDescendant g t.source) = true := by
  simp only [Bool.and_eq_true, StateNode.isCompound, beq_iff_eq, isDescendant_iff,
    hw.below_iff_transGen]
  exact ⟨fun h => ⟨⟨h.isInternal, h.kind⟩, h.target⟩, fun h => ⟨h.1.1, h.1.2, h.2⟩⟩

theorem domain?_of_staysInside (hg : (arena.transition t).target = some g)
    (h : arena.StaysInside t g) : arena.domain? t = some t.source := by
  simp only [Arena.domain?, hg, Option.map_some, if_pos ((Arena.staysInside_iff hw).1 h)]

theorem domain?_of_not_staysInside (hg : (arena.transition t).target = some g)
    (h : ¬ arena.StaysInside t g) :
    arena.domain? t = some (arena.commonAncestor [t.source, g]) := by
  have hcond := (Arena.staysInside_iff hw).not.1 h
  simp only [Arena.domain?, hg, Option.map_some, if_neg hcond]

theorem mem_exitSet_of_domain (hd : arena.domain? t = some d) (i : Nat) :
    i ∈ arena.exitSet active t ↔ i ∈ active ∧ TransGen arena.Parent i d := by
  rw [mem_exitSet_iff, hd]
  simp only [Option.some.injEq, exists_eq_left', hw.below_iff_transGen]

/-- A transition with a target that starts in a legal configuration has a domain. -/
theorem exists_confines (h : Legal arena active) (ht : arena.HasTransition t)
    (hsource : t.source ∈ active) (hg : (arena.transition t).target = some g) :
    ∃ d, Confines arena active t g d := by
  obtain ⟨d, hd⟩ : ∃ d, arena.domain? t = some d :=
    Option.ne_none_iff_exists'.1 fun hnone => by
      rw [domain?_eq_none_iff.1 hnone] at hg
      cases hg
  obtain ⟨hkind, hwithin, g', hg', hbelow⟩ := domain_spec hw ht hd
  obtain rfl := Option.some.inj (hg.symm.trans hg')
  have hexits : ∀ i, i ∈ arena.exitSet active t ↔ i ∈ active ∧ TransGen arena.Parent i d :=
    mem_exitSet_of_domain hw hd
  refine ⟨d, hd, hkind, h.on_of_within hw (.inr hsource) hwithin, hw.below_iff_transGen.1 hbelow,
    hexits, exists_mem_exitSet hw h ht hsource hd, fun hinside => ?_, fun houtside => ?_⟩
  · obtain rfl := Option.some.inj (hd.symm.trans (domain?_of_staysInside hw hg hinside))
    refine ⟨rfl, fun hmem => ?_⟩
    exact hw.not_below_self (hw.below_iff_transGen.2 ((hexits t.source).1 hmem).2)
  · have hleast := leastAround_pair hw (source_below_root hw ht) (target_below_root hw ht hg)
    obtain rfl := Option.some.inj (hd.symm.trans (domain?_of_not_staysInside hw hg houtside))
    have haround := hleast.around.inside t.source List.mem_cons_self
    exact ⟨haround, (hexits t.source).2 ⟨hsource, haround⟩, hleast⟩

end Domain

namespace Session

variable {s : Session}

/-- In a reachable session every transition with a target that starts in an active state has a
domain, and two of them leave a common state exactly if one domain is the other one or an
ancestor of it. -/
theorem domains_confine (h : s.Reachable) :
    (∀ t g, s.arena.HasTransition t → t.source ∈ s.active →
      (s.arena.transition t).target = some g → ∃ d, Confines s.arena s.active t g d) ∧
    ∀ t u d e, s.arena.HasTransition t → s.arena.HasTransition u →
      t.source ∈ s.active → u.source ∈ s.active →
        s.arena.domain? t = some d → s.arena.domain? u = some e →
          (ExitsMeet s.arena s.active t u ↔
            ReflTransGen s.arena.Parent d e ∨ ReflTransGen s.arena.Parent e d) := by
  have hw : s.arena.WellFormed := h.coherent.wellFormed
  have hlegal : ∀ {i}, i ∈ s.active → Legal s.arena s.active := fun hi =>
    h.coherent.legal fun hphase => by
      rw [h.coherent.idle hphase] at hi
      exact List.not_mem_nil hi
  refine ⟨fun t g ht hsource hg => exists_confines hw (hlegal hsource) ht hsource hg, ?_⟩
  intro t u d e ht hu htsource husource hd he
  rw [← hw.within_iff_reflTransGen, ← hw.within_iff_reflTransGen]
  exact exits_meet_iff hw (hlegal htsource) ht hu htsource husource hd he

/-- A compound state with an internal and an external transition to one of its children, and a
transition from the other child to the state around it. -/
def doorway : Document where
  states :=
    [.state { id := "room", transitions :=
        [{ event := some "step", target := some "desk", isInternal := true },
          { event := some "reset", target := some "desk" }] }
      [.state { id := "door", transitions := [{ event := some "back", target := some "room" }] } [],
        .state { id := "desk" } []]]

/-- The model of `doorway`. -/
def doorwayModel : Model := (Model.build doorway .empty).toOption.getD default

theorem build_doorway : Model.build doorway .empty = .ok doorwayModel := rfl

/-- The internal transition keeps the room, which the others leave.  Its domain lies in that of
the transition back, so these two get in each other's way. -/
theorem domains_confine_doorway :
    let s := (ofModel doorwayModel {} .standard).after [.start]
    s.Reachable ∧ s.active = [1, 2] ∧
      s.arena.domain? ⟨1, 0⟩ = some 1 ∧ s.arena.exitSet s.active ⟨1, 0⟩ = [2] ∧
      s.arena.domain? ⟨1, 1⟩ = some root ∧ s.arena.exitSet s.active ⟨1, 1⟩ = [1, 2] ∧
      s.arena.domain? ⟨2, 0⟩ = some root ∧ s.arena.exitSet s.active ⟨2, 0⟩ = [1, 2] ∧
      (∃ d, Confines s.arena s.active ⟨1, 0⟩ 3 d) ∧ (∃ d, Confines s.arena s.active ⟨2, 0⟩ 1 d) ∧
      (ExitsMeet s.arena s.active ⟨1, 0⟩ ⟨2, 0⟩ ↔
        ReflTransGen s.arena.Parent 1 root ∨ ReflTransGen s.arena.Parent root 1) := by
  intro s
  have hreachable : s.Reachable := reachable_after_build build_doorway {} .standard [.start]
  have hstep : s.arena.domain? ⟨1, 0⟩ = some 1 := by decide +kernel
  have hback : s.arena.domain? ⟨2, 0⟩ = some root := by decide +kernel
  have hstepFrom : s.arena.HasTransition ⟨1, 0⟩ ∧ 1 ∈ s.active := by decide +kernel
  have hbackFrom : s.arena.HasTransition ⟨2, 0⟩ ∧ 2 ∈ s.active := by decide +kernel
  obtain ⟨hconfines, hmeet⟩ := domains_confine hreachable
  exact ⟨hreachable, by decide +kernel, hstep, by decide +kernel, by decide +kernel,
    by decide +kernel, hback, by decide +kernel,
    hconfines ⟨1, 0⟩ 3 hstepFrom.1 hstepFrom.2 (by decide +kernel),
    hconfines ⟨2, 0⟩ 1 hbackFrom.1 hbackFrom.2 (by decide +kernel),
    hmeet ⟨1, 0⟩ ⟨2, 0⟩ 1 root hstepFrom.1 hbackFrom.1 hstepFrom.2 hbackFrom.2 hstep hback⟩

end Session
end Statechart
