import Mathlib.Data.Set.Lattice
import Statechart.Proofs.Session.Coherence

/-!
# The states to enter, by recursion over the tree

What entering a state enters can be said by equations between sets, one for each kind of
state (`IsFilling`): for a state alone, and for a state on the way to a goal in its subtree.
The equations have a solution (`isFilling_fill`) and no other one (`IsFilling.eq_fill`).

The engine does not follow these equations.  It adds state after state to a single set, from
the goal outwards, and passes over what the set covers.  In spite of that, `start` enters the
filling of the root without the root itself, and a microstep enters the union of one filling
for each selected transition with a target (`enters_fillings`).
-/

namespace Statechart

open Arena (root)

/-! ## The equations -/

/-- The sets `fill s` and `fillTo s g` are what is entered with `s`, alone and on the way to
a state `g` within `s`. -/
structure IsFilling (arena : Arena) (fill : Nat → Set Nat) (fillTo : Nat → Nat → Set Nat) :
    Prop where
  leaf : ∀ s, (arena.state s).isLeaf = true → fill s = {s}
  /-- A compound state leads to its initial state, which may lie deeper than its children. -/
  compound : ∀ s i, (arena.state s).kind = .compound → (arena.state s).initial = some i →
    ∀ c ∈ (arena.state s).children, arena.Within i c → fill s = {s} ∪ fillTo c i
  parallel : ∀ s, (arena.state s).kind = .parallel →
    fill s = {s} ∪ ⋃ c ∈ (arena.state s).children, fill c
  goal : ∀ s, fillTo s s = fill s
  toward_compound : ∀ s g, (arena.state s).kind = .compound →
    ∀ c ∈ (arena.state s).children, arena.Within g c → fillTo s g = {s} ∪ fillTo c g
  toward_parallel : ∀ s g, (arena.state s).kind = .parallel →
    ∀ c ∈ (arena.state s).children, arena.Within g c →
      fillTo s g = {s} ∪ fillTo c g ∪ ⋃ d ∈ (arena.state s).children, ⋃ _ : d ≠ c, fill d

/-- The child `c` of the domain of a transition lies on the way to its target `g`. -/
def Arena.EntersThrough (arena : Arena) (t : TransitionRef) (c g : Nat) : Prop :=
  (arena.transition t).target = some g ∧
    ∃ d, arena.domain? t = some d ∧ c ∈ (arena.state d).children ∧ arena.Within g c

section Equations

variable {arena : Arena} (hw : arena.WellFormed) {s g c x : Nat} {t : TransitionRef}
  {fill : Nat → Set Nat} {fillTo : Nat → Nat → Set Nat}
include hw

theorem fill_parallel_toward (hs : (arena.state s).kind = .parallel)
    (hc : c ∈ (arena.state s).children) (hg : arena.Within g c) :
    Fill arena s g x ↔ x = s ∨ Fill arena c g x ∨
      ∃ d ∈ (arena.state s).children, d ≠ c ∧ Fill arena d d x := by
  rw [fill_parallel hs]
  refine or_congr_right ⟨?_, ?_⟩
  · rintro ⟨d, hd, hx⟩
    by_cases hdc : d = c
    · subst hdc
      exact .inl (by rwa [goalIn_of_within hg] at hx)
    · exact .inr ⟨d, hd, hdc, by rwa [goalIn_of_ne hw hd hc hg hdc] at hx⟩
  · rintro (hx | ⟨d, hd, hdc, hx⟩)
    · exact ⟨c, hc, by rwa [goalIn_of_within hg]⟩
    · exact ⟨d, hd, by rwa [goalIn_of_ne hw hd hc hg hdc]⟩

theorem isFilling_fill :
    IsFilling arena (fun s => {x | Fill arena s s x}) fun s g => {x | Fill arena s g x} where
  leaf s hs := Set.ext fun x => fill_leaf hw hs
  compound s i hs hi c hc hic := Set.ext fun x =>
    (fill_initial hw hs hi).trans (fill_compound hw hs hc hic)
  parallel s hs := Set.ext fun x => by
    simp only [Set.mem_ofPred_eq, Set.mem_union, Set.mem_singleton_iff, Set.mem_iUnion₂,
      exists_prop, fill_parallel_self hw hs]
  goal s := rfl
  toward_compound s g hs c hc hg := Set.ext fun x => fill_compound hw hs hc hg
  toward_parallel s g hs c hc hg := Set.ext fun x => by
    simp only [Set.mem_ofPred_eq, Set.mem_union, Set.mem_singleton_iff, Set.mem_iUnion,
      exists_prop, fill_parallel_toward hw hs hc hg, or_assoc]

/-- The equations determine the filling of a state, alone and on the way to any goal. -/
theorem IsFilling.eq_fill (h : IsFilling arena fill fillTo) (s : Nat) :
    fill s = {x | Fill arena s s x} ∧
      ∀ g, arena.Within g s → fillTo s g = {x | Fill arena s g x} := by
  have hspec := isFilling_fill hw
  induction s using hw.children_induction with
  | step s ih =>
      -- alone first, since a goal at the state itself comes down to this
      have hself : fill s = {x | Fill arena s s x} := by
        cases hleaf : (arena.state s).isLeaf with
        | true => rw [h.leaf s hleaf, hspec.leaf s hleaf]
        | false =>
            rcases Arena.kind_of_isLeaf_eq_false hleaf with hk | hk
            · obtain ⟨i, hi, his⟩ := hw.initial_below hk
              obtain ⟨c, hc, hic⟩ := hw.exists_child_within his
              rw [h.compound s i hk hi c hc hic, hspec.compound s i hk hi c hc hic,
                (ih c hc).2 i hic]
            · rw [h.parallel s hk, hspec.parallel s hk]
              exact congrArg _ (Set.iUnion₂_congr fun c hc => (ih c hc).1)
      refine ⟨hself, fun g hg => ?_⟩
      rcases hg with rfl | hg
      · rw [h.goal, hself]
      obtain ⟨c, hc, hgc⟩ := hw.exists_child_within hg
      rcases Arena.kind_of_isLeaf_eq_false (hw.isLeaf_of_mem_children hc) with hk | hk
      · rw [h.toward_compound s g hk c hc hgc, hspec.toward_compound s g hk c hc hgc,
          (ih c hc).2 g hgc]
      · rw [h.toward_parallel s g hk c hc hgc, hspec.toward_parallel s g hk c hc hgc,
          (ih c hc).2 g hgc]
        refine congrArg _ (Set.iUnion₂_congr fun d hd => ?_)
        rw [(ih d hd).1]

/-- There is one way to enter towards a target. -/
theorem existsUnique_entersThrough (ht : arena.HasTransition t)
    (hg : (arena.transition t).target = some g) : ∃! c, arena.EntersThrough t c g := by
  obtain ⟨c, hgc, d, hd, hc, hwithin⟩ : ∃ c, arena.EntersThrough t c g := by
    obtain ⟨g', d, c, hg', hd, hc, hwithin, -⟩ := enteredBy_target hw ht hg
    obtain rfl := Option.some.inj (hg.symm.trans hg')
    exact ⟨c, hg, d, hd, hc, hwithin⟩
  refine ⟨c, ⟨hgc, d, hd, hc, hwithin⟩, ?_⟩
  rintro c' ⟨-, d', hd', hc', hwithin'⟩
  obtain rfl := Option.some.inj (hd.symm.trans hd')
  exact hw.child_eq_of_within hc' hc hwithin' hwithin

/-- What one transition enters is a filling on the way to its target. -/
theorem enteredBy_iff (h : IsFilling arena fill fillTo) :
    EnteredBy arena t x ↔ ∃ c g, arena.EntersThrough t c g ∧ x ∈ fillTo c g := by
  constructor
  · rintro ⟨g, d, c, hg, hd, hc, hgc, hx⟩
    refine ⟨c, g, ⟨hg, d, hd, hc, hgc⟩, ?_⟩
    rw [(h.eq_fill hw c).2 g hgc]
    exact hx
  · rintro ⟨c, g, ⟨hg, d, hd, hc, hgc⟩, hx⟩
    rw [(h.eq_fill hw c).2 g hgc] at hx
    exact ⟨g, d, c, hg, hd, hc, hgc, hx⟩

end Equations

/-! ## What the engine enters -/

namespace Session

variable {s : Session}

/-- Whatever sets solve the equations, `start` enters the filling of the root without the
root, and a microstep enters, for each selected transition with a target, the filling of the
child of its domain on the way to the target, and nothing else. -/
theorem enters_fillings (h : s.Reachable) (event : Option Event) :
    let ts := (s.select event).1
    let q := (s.select event).2
    (∃ fill fillTo, IsFilling s.arena fill fillTo) ∧
      (∀ t ∈ ts, ∀ g, (s.arena.transition t).target = some g →
        ∃! c, s.arena.EntersThrough t c g) ∧
      q.microstep ts = (q.leaveAll ts).enterAll (s.arena.entrySet ts) ∧
      ∀ fill fillTo, IsFilling s.arena fill fillTo →
        (s.phase = .uninitialized → s.start = s.begun.macrostep [] ∧
          {x | x ∈ s.arena.initialStates} = fill root \ {root} ∧
          {x | x ∈ s.begun.active} = fill root \ {root}) ∧
        {x | x ∈ s.arena.entrySet ts} =
          ⋃ t ∈ ts, ⋃ c, ⋃ g, ⋃ _ : s.arena.EntersThrough t c g, fillTo c g := by
  intro ts q
  have hcoherent : Coherent s := h.coherent
  have hw : s.arena.WellFormed := hcoherent.wellFormed
  have htakeable : Takeable s.arena s.active ts := hcoherent.takeable_select event
  refine ⟨⟨_, _, isFilling_fill hw⟩, fun t ht g hg => ?_, ?_, fun fill fillTo hfill => ⟨?_, ?_⟩⟩
  · exact existsUnique_entersThrough hw (htakeable.hasTransition t ht) hg
  · rw [microstep_eq, (sameView_select event).toSameRun.arena]
  · intro hphase
    have hinitial : {x | x ∈ s.arena.initialStates} = fill root \ {root} := by
      ext x
      rw [(hfill.eq_fill hw root).1]
      exact (mem_initialStates_iff hw).trans and_comm
    refine ⟨start_of_uninitialized hphase, hinitial, hinitial ▸ Set.ext fun x => ?_⟩
    have hactive : s.begun.active = s.arena.initialStates.foldl StateSet.enter s.active :=
      sameStates_begun.active
    rw [Set.mem_ofPred_eq, Set.mem_ofPred_eq, hactive, StateSet.mem_foldl_enter,
      hcoherent.idle hphase]
    exact or_iff_right List.not_mem_nil
  · ext x
    simp only [Set.mem_ofPred_eq, Set.mem_iUnion, exists_prop,
      mem_entrySet_iff hw htakeable.hasTransition htakeable.apart, enteredBy_iff hw hfill]

/-- The start enters both regions, and so does the selected transition of the first one,
which leads to `up`. -/
theorem enters_fillings_twoRegions :
    let fresh := ofModel twoRegionsModel {} .standard
    let s := fresh.after [.start]
    let ts := (s.select (some (.plain "go"))).1
    fresh.Reachable ∧ s.Reachable ∧ ts = [⟨2, 0⟩] ∧
      ∀ fill fillTo, IsFilling twoRegionsModel.arena fill fillTo →
        {x | x ∈ [1, 2, 3, 5, 6]} = fill root \ {root} ∧
        {x | x ∈ [1, 2, 4, 5, 6]} = ⋃ t ∈ ts, ⋃ c, ⋃ g,
          ⋃ _ : twoRegionsModel.arena.EntersThrough t c g, fillTo c g := by
  intro fresh s ts
  have hfresh : fresh.Reachable := reachable_after_build build_twoRegions {} .standard []
  have hs : s.Reachable := reachable_after_build build_twoRegions {} .standard [.start]
  have hinitial : twoRegionsModel.arena.initialStates = [1, 2, 3, 5, 6] := by decide +kernel
  have hentered : twoRegionsModel.arena.entrySet ts = [1, 2, 4, 5, 6] := by decide +kernel
  have harena : s.arena = twoRegionsModel.arena :=
    (Moves.sameChart (moves_after (s := fresh) [.start])).arena
  obtain ⟨-, -, -, hstart⟩ := enters_fillings hfresh none
  obtain ⟨-, -, -, hstep⟩ := enters_fillings hs (some (.plain "go"))
  rw [harena] at hstep
  refine ⟨hfresh, hs, by decide +kernel, fun fill fillTo hfill => ⟨?_, ?_⟩⟩
  · have hfilling := ((hstart fill fillTo hfill).1 rfl).2.1
    rwa [← hinitial]
  · rw [← hentered]
    exact (hstep fill fillTo hfill).2

end Session
end Statechart
