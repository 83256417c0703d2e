import Mathlib.Data.List.Pairwise
import Mathlib.Tactic.Choose
import Statechart.Engine.Domain
import Statechart.Proofs.Arena.CommonAncestor
import Statechart.Proofs.Configuration.Entry

/-!
# Domains of transitions

The domain of a transition is a compound state around its source and strictly
around its target (`domain_spec`).  In a legal configuration a domain has active
descendants, so two transitions leave a common state exactly if one of their
domains lies within the other (`exits_meet_iff`).

Transitions without conflicts therefore have unrelated domains.  What they enter
is put together from one filling below each domain (`mem_entrySet_iff`), and
taking them leads from one legal configuration to another (`legal_after`).
-/

namespace Statechart

open Arena (root)

/-- The address of a transition that there is. -/
def Arena.HasTransition (arena : Arena) (t : TransitionRef) : Prop :=
  t.position < (arena.state t.source).transitions.length

instance (arena : Arena) (t : TransitionRef) : Decidable (arena.HasTransition t) :=
  inferInstanceAs (Decidable (t.position < (arena.state t.source).transitions.length))

/-- Two transitions leave a common state. -/
def ExitsMeet (arena : Arena) (active : StateSet) (t u : TransitionRef) : Prop :=
  ∃ i, i ∈ arena.exitSet active t ∧ i ∈ arena.exitSet active u

/-- Two transitions have unrelated domains, if they have domains at all. -/
def Apart (arena : Arena) (t u : TransitionRef) : Prop :=
  ∀ d e, arena.domain? t = some d → arena.domain? u = some e → arena.Unrelated d e

instance (arena : Arena) : Std.Symm (Apart arena) where
  symm _ _ h d e hd he := (h e d he hd).symm

/-- Transitions that can be taken at once: they start in active states, and no
domain lies within another one. -/
structure Takeable (arena : Arena) (active : StateSet) (ts : List TransitionRef) : Prop where
  hasTransition : ∀ t ∈ ts, arena.HasTransition t
  source_active : ∀ t ∈ ts, t.source ∈ active
  apart : ts.Pairwise (Apart arena)

/-- The states that one transition enters. -/
def EnteredBy (arena : Arena) (t : TransitionRef) (x : Nat) : Prop :=
  ∃ g d c, (arena.transition t).target = some g ∧ arena.domain? t = some d ∧
    c ∈ (arena.state d).children ∧ arena.Within g c ∧ Fill arena c g x

/-- A set with what one transition enters. -/
def Arena.enterBy (arena : Arena) (set : StateSet) (t : TransitionRef) : StateSet :=
  match (arena.transition t).target, arena.domain? t with
  | some target, some domain => arena.enterTarget target domain set
  | _, _ => set

section Domain

variable {arena : Arena} {t u : TransitionRef} {active : StateSet} {d e g i s : Nat}

theorem mem_exitSet_iff :
    i ∈ arena.exitSet active t ↔
      i ∈ active ∧ ∃ d, arena.domain? t = some d ∧ arena.Below i d := by
  unfold Arena.exitSet
  cases arena.domain? t <;> simp

theorem mem_exitSets_iff {ts : List TransitionRef} :
    i ∈ arena.exitSets active ts ↔
      i ∈ active ∧ ∃ t ∈ ts, ∃ d, arena.domain? t = some d ∧ arena.Below i d := by
  simp only [Arena.exitSets, List.mem_filter, List.any_map, List.any_eq_true,
    Function.comp_apply, List.contains_iff_mem, mem_exitSet_iff]
  constructor
  · rintro ⟨hi, t, ht, -, h⟩
    exact ⟨hi, t, ht, h⟩
  · rintro ⟨hi, t, ht, h⟩
    exact ⟨hi, t, ht, hi, h⟩

theorem ExitsMeet.symm (h : ExitsMeet arena active t u) : ExitsMeet arena active u t := by
  obtain ⟨i, hit, hiu⟩ := h
  exact ⟨i, hiu, hit⟩

theorem domain?_eq_none_iff : arena.domain? t = none ↔ (arena.transition t).target = none := by
  simp [Arena.domain?]

theorem entrySet_eq_foldl (ts : List TransitionRef) :
    arena.entrySet ts = ts.foldl arena.enterBy [] := rfl

theorem transition_mem (ht : arena.HasTransition t) :
    arena.transition t ∈ (arena.state t.source).transitions := by
  have hget : (arena.state t.source).transitions[t.position]? =
      some (arena.state t.source).transitions[t.position] := List.getElem?_eq_getElem ht
  rw [Arena.transition, hget]
  exact List.getElem_mem ht

variable (hw : arena.WellFormed)
include hw

theorem source_below_root (ht : arena.HasTransition t) : arena.Below t.source root := by
  have hne : (arena.state t.source).transitions ≠ [] := fun hnil => by
    simp [Arena.HasTransition, hnil] at ht
  have h0 : root < t.source := by
    refine Nat.pos_of_ne_zero fun h0 => hne ?_
    rw [h0]
    exact hw.root_transitions
  have hsize : t.source < arena.size := by
    by_contra hs
    rw [Arena.state_of_size_le (Nat.le_of_not_lt hs)] at hne
    exact hne rfl
  exact hw.below_root h0 hsize

theorem target_below_root (ht : arena.HasTransition t)
    (hg : (arena.transition t).target = some g) : arena.Below g root := by
  obtain ⟨h0, hsize⟩ := hw.target_inside t.source _ (transition_mem ht) g hg
  exact hw.below_root h0 hsize

/-- The search finds the innermost compound state around two states. -/
theorem leastAround_pair (hs : arena.Below s root) (hg : arena.Below g root) :
    arena.LeastAround [s, g] (arena.commonAncestor [s, g]) := by
  have hbounds : ∀ x, arena.Below x root → root < x ∧ x < arena.size :=
    fun x hx => ⟨hw.lt_of_below hx, hw.lt_size_of_below hx⟩
  have hboth : ∀ x ∈ [s, g], root < x ∧ x < arena.size :=
    List.forall_mem_cons.2 ⟨hbounds s hs, List.forall_mem_singleton.2 (hbounds g hg)⟩
  exact hw.leastAround_commonAncestor (List.cons_ne_nil s [g]) hboth

theorem domain_spec (ht : arena.HasTransition t) (hd : arena.domain? t = some d) :
    (arena.state d).kind = .compound ∧ arena.Within t.source d ∧
      ∃ g, (arena.transition t).target = some g ∧ arena.Below g d := by
  obtain ⟨g, hg, hd⟩ := Option.map_eq_some_iff.1 hd
  split at hd
  · next hinternal =>
      subst hd
      simp only [StateNode.isCompound, Bool.and_eq_true, beq_iff_eq,
        Arena.isDescendant_iff] at hinternal
      exact ⟨hinternal.1.2, .refl, g, hg, hinternal.2⟩
  · subst hd
    have haround :=
      (leastAround_pair hw (source_below_root hw ht) (target_below_root hw ht hg)).around
    have hsource := hw.below_of_transGen (haround.inside t.source (by simp))
    exact ⟨haround.kind, hsource.within, g, hg,
      hw.below_of_transGen (haround.inside g (by simp))⟩

/-! ## What is left -/

section Exits

variable (h : Legal arena active)
include h

/-- Every transition with a domain leaves something. -/
theorem exists_mem_exitSet (ht : arena.HasTransition t) (hsource : t.source ∈ active)
    (hd : arena.domain? t = some d) : ∃ i, i ∈ arena.exitSet active t := by
  obtain ⟨hk, hwithin, -⟩ := domain_spec hw ht hd
  have hon : active.On d := h.on_of_within hw (.inr hsource) hwithin
  have hleaf : (arena.state d).isLeaf = false := by simp [StateNode.isLeaf, hk]
  obtain ⟨c, hc, hmem⟩ := h.exists_active_child hw hon hleaf
  exact ⟨c, mem_exitSet_iff.2 ⟨hmem, d, hd, hw.below_of_mem_children hc⟩⟩

theorem exits_meet_of_within (hu : arena.HasTransition u) (husource : u.source ∈ active)
    (hdt : arena.domain? t = some d) (hdu : arena.domain? u = some e)
    (hed : arena.Within e d) : ExitsMeet arena active t u := by
  obtain ⟨i, hi⟩ := exists_mem_exitSet hw h hu husource hdu
  obtain ⟨hmem, e', he', hbelow⟩ := mem_exitSet_iff.1 hi
  obtain rfl := Option.some.inj (he'.symm.trans hdu)
  exact ⟨i, mem_exitSet_iff.2 ⟨hmem, d, hdt, hw.below_of_below_of_within hbelow hed⟩, hi⟩

theorem exits_meet_iff (ht : arena.HasTransition t) (hu : arena.HasTransition u)
    (htsource : t.source ∈ active) (husource : u.source ∈ active)
    (hdt : arena.domain? t = some d) (hdu : arena.domain? u = some e) :
    ExitsMeet arena active t u ↔ arena.Within d e ∨ arena.Within e d := by
  constructor
  · rintro ⟨i, hit, hiu⟩
    obtain ⟨-, d', hd', hid⟩ := mem_exitSet_iff.1 hit
    obtain ⟨-, e', he', hie⟩ := mem_exitSet_iff.1 hiu
    obtain rfl := Option.some.inj (hd'.symm.trans hdt)
    obtain rfl := Option.some.inj (he'.symm.trans hdu)
    exact hw.within_or_within hid.within hie.within
  · rintro (hde | hed)
    · exact (exits_meet_of_within hw h ht htsource hdu hdt hde).symm
    · exact exits_meet_of_within hw h hu husource hdt hdu hed

theorem apart_of_not_exits_meet (ht : arena.HasTransition t) (hu : arena.HasTransition u)
    (htsource : t.source ∈ active) (husource : u.source ∈ active)
    (hmeet : ¬ ExitsMeet arena active t u) : Apart arena t u := by
  intro d e hd he
  have hiff := exits_meet_iff hw h ht hu htsource husource hd he
  exact ⟨fun hde => hmeet (hiff.2 (.inl hde)), fun hed => hmeet (hiff.2 (.inr hed))⟩

end Exits

/-! ## What is entered -/

/-- A transition with a domain enters a configuration of one child of it. -/
theorem exists_entered_region (ht : arena.HasTransition t) (hd : arena.domain? t = some d) :
    ∃ c ∈ (arena.state d).children, ∃ g, (arena.transition t).target = some g ∧
      arena.Within g c ∧ ∀ x, EnteredBy arena t x ↔ Fill arena c g x := by
  obtain ⟨-, -, g, hg, hgd⟩ := domain_spec hw ht hd
  obtain ⟨c, hc, hgc⟩ := hw.exists_child_within hgd
  refine ⟨c, hc, g, hg, hgc, fun x => ⟨?_, fun hx => ⟨g, d, c, hg, hd, hc, hgc, hx⟩⟩⟩
  rintro ⟨g', d', c', hg', hd', hc', hgc', hx⟩
  obtain rfl := Option.some.inj (hg.symm.trans hg')
  obtain rfl := Option.some.inj (hd.symm.trans hd')
  obtain rfl := hw.child_eq_of_within hc hc' hgc hgc'
  exact hx

/-- A transition enters states below its domain. -/
theorem below_of_enteredBy (hx : EnteredBy arena t i) :
    ∃ d, arena.domain? t = some d ∧ arena.Below i d := by
  obtain ⟨g, d, c, -, hd, hc, hgc, hfill⟩ := hx
  exact ⟨d, hd, hw.below_of_within_of_below (within_of_fill hw hgc hfill)
    (hw.below_of_mem_children hc)⟩

/-- Nothing that a transition enters lies below a domain apart from its own. -/
theorem not_below_of_apart (hapart : Apart arena t u) (hx : EnteredBy arena t i)
    (he : arena.domain? u = some e) : ¬ arena.Below i e := by
  obtain ⟨d, hd, hid⟩ := below_of_enteredBy hw hx
  obtain ⟨hde, hed⟩ := hapart d e hd he
  intro hie
  rcases hw.within_or_within hid.within hie.within with h | h
  · exact hde h
  · exact hed h

/-- The target is entered. -/
theorem enteredBy_target (ht : arena.HasTransition t)
    (hg : (arena.transition t).target = some g) : EnteredBy arena t g := by
  obtain ⟨d, hd⟩ : ∃ d, arena.domain? t = some d := by
    cases hd : arena.domain? t with
    | none => rw [domain?_eq_none_iff.1 hd] at hg; cases hg
    | some d => exact ⟨d, rfl⟩
  obtain ⟨c, hc, g', hg', hgc, hentered⟩ := exists_entered_region hw ht hd
  obtain rfl := Option.some.inj (hg.symm.trans hg')
  exact (hentered g).2 (fill_goal hw hgc)

/-- Transitions whose domains are apart enter what each of them enters. -/
theorem mem_entrySet_iff {ts : List TransitionRef} (hts : ∀ t ∈ ts, arena.HasTransition t)
    (hapart : ts.Pairwise (Apart arena)) :
    i ∈ arena.entrySet ts ↔ ∃ t ∈ ts, EnteredBy arena t i := by
  rw [entrySet_eq_foldl]
  -- What was entered before lies apart from the domains that are still to come.
  suffices hset : ∀ set : StateSet,
      (∀ t ∈ ts, ∀ d, arena.domain? t = some d → ∀ x ∈ set, ¬ arena.Below x d) →
      (i ∈ ts.foldl arena.enterBy set ↔ i ∈ set ∨ ∃ t ∈ ts, EnteredBy arena t i) by
    simpa using hset [] (by simp)
  induction ts with
  | nil => simp
  | cons t ts ih =>
      intro set hbefore
      obtain ⟨hthead, htrest⟩ := List.pairwise_cons.1 hapart
      obtain ⟨ht, hts⟩ := List.forall_mem_cons.1 hts
      obtain ⟨hbefore, hbeforeRest⟩ := List.forall_mem_cons.1 hbefore
      rw [List.foldl_cons]
      cases hd : arena.domain? t with
      | none =>
          have hnone : ∀ x, ¬ EnteredBy arena t x := by
            rintro x ⟨g, d, c, -, hd', -⟩
            cases hd.symm.trans hd'
          have hsame : arena.enterBy set t = set := by
            simp [Arena.enterBy, domain?_eq_none_iff.1 hd]
          rw [hsame, ih hts htrest set hbeforeRest]
          simp [hnone]
      | some d =>
          obtain ⟨c, hc, g, hg, hgc, hentered⟩ := exists_entered_region hw ht hd
          have hcd : arena.Below c d := hw.below_of_mem_children hc
          have hclear : Clear arena set c := fun x hx hxc =>
            hbefore d hd x hx (hw.below_of_within_of_below hxc hcd)
          have hadd : ∀ x, x ∈ arena.enterBy set t ↔ x ∈ set ∨ EnteredBy arena t x := by
            intro x
            rw [hentered, ← mem_enterTarget_iff hw hc hgc hclear]
            simp [Arena.enterBy, hg, hd]
          rw [ih hts htrest (arena.enterBy set t) ?_, hadd i]
          · simp [or_assoc]
          · intro u hu e he x hx hxe
            rcases (hadd x).1 hx with hx | hx
            · exact hbeforeRest u hu e he x hx hxe
            · exact not_below_of_apart hw (hthead u hu) hx he hxe

omit hw in
theorem pairwise_entrySet (ts : List TransitionRef) :
    (arena.entrySet ts).Pairwise (· < ·) := by
  rw [entrySet_eq_foldl]
  suffices hset : ∀ set : StateSet, set.Pairwise (· < ·) →
      (ts.foldl arena.enterBy set).Pairwise (· < ·) from hset [] .nil
  induction ts with
  | nil => exact fun set h => h
  | cons t ts ih =>
      intro set h
      rw [List.foldl_cons]
      apply ih
      unfold Arena.enterBy
      split
      · exact pairwise_enterTarget h
      · exact h

/-! ## One configuration after another -/

/-- Nothing that is entered was active, unless it was left before. -/
theorem mem_exitSets_of_mem_entrySet {ts : List TransitionRef}
    (hts : Takeable arena active ts) (hi : i ∈ arena.entrySet ts) (hactive : i ∈ active) :
    i ∈ arena.exitSets active ts := by
  obtain ⟨t, ht, hentered⟩ := (mem_entrySet_iff hw hts.hasTransition hts.apart).1 hi
  exact mem_exitSets_iff.2 ⟨hactive, t, ht, below_of_enteredBy hw hentered⟩

/-- The target of a transition is among what is entered. -/
theorem target_mem_entrySet {ts : List TransitionRef} (hts : Takeable arena active ts)
    (ht : t ∈ ts) (hg : (arena.transition t).target = some g) : g ∈ arena.entrySet ts :=
  (mem_entrySet_iff hw hts.hasTransition hts.apart).2
    ⟨t, ht, enteredBy_target hw (hts.hasTransition t ht) hg⟩

/-- The root is not below a domain, and it is not entered either. -/
theorem on_after_iff {ts : List TransitionRef} {after : StateSet}
    (hts : Takeable arena active ts) (hafter : ∀ i, i ∈ after ↔
      (i ∈ active ∧ i ∉ arena.exitSets active ts) ∨ i ∈ arena.entrySet ts) (x : Nat) :
    after.On x ↔
      (active.On x ∧ ∀ t ∈ ts, ∀ d, arena.domain? t = some d → ¬ arena.Below x d) ∨
        ∃ t ∈ ts, EnteredBy arena t x := by
  rw [StateSet.On, StateSet.On, hafter, ← mem_entrySet_iff hw hts.hasTransition hts.apart,
    mem_exitSets_iff]
  by_cases hx : x = root
  · subst hx
    exact iff_of_true (.inl rfl) (.inl ⟨.inl rfl, fun t _ d _ => hw.not_root_below d⟩)
  · simp only [hx, false_or, not_and, not_exists]
    refine or_congr_left (and_congr_right fun hmem => ?_)
    exact ⟨fun hkept => hkept hmem, fun hkept _ => hkept⟩

/-- The root is not entered again. -/
theorem root_not_mem_after {ts : List TransitionRef} {after : StateSet}
    (h : Legal arena active) (hts : Takeable arena active ts) (hafter : ∀ i, i ∈ after ↔
      (i ∈ active ∧ i ∉ arena.exitSets active ts) ∨ i ∈ arena.entrySet ts) : root ∉ after := by
  intro hmem
  rcases (hafter root).1 hmem with ⟨hmem, -⟩ | hmem
  · exact h.root_not_mem hw hmem
  · obtain ⟨t, -, hentered⟩ := (mem_entrySet_iff hw hts.hasTransition hts.apart).1 hmem
    obtain ⟨d, -, hbelow⟩ := below_of_enteredBy hw hentered
    exact hw.not_root_below d hbelow

/-- Taking transitions that can be taken at once exchanges a region below each
of their domains. -/
theorem region_after {ts : List TransitionRef} (h : Legal arena active)
    (hts : Takeable arena active ts) :
    Region arena root fun x =>
      (active.On x ∧ ∀ t ∈ ts, ∀ d, arena.domain? t = some d → ¬ arena.Below x d) ∨
        ∃ t ∈ ts, EnteredBy arena t x := by
  -- Transitions without a target exchange nothing, so only the others are indexed.
  let Targeted := { t : TransitionRef // t ∈ ts ∧ (arena.domain? t).isSome }
  have hdata : ∀ t : Targeted, ∃ d c, arena.domain? t.1 = some d ∧
      c ∈ (arena.state d).children ∧ Region arena c (EnteredBy arena t.1) := by
    rintro ⟨t, ht, hd⟩
    obtain ⟨d, hd⟩ := Option.isSome_iff_exists.1 hd
    obtain ⟨c, hc, g, -, hgc, hentered⟩ :=
      exists_entered_region hw (hts.hasTransition t ht) hd
    exact ⟨d, c, hd, hc, (region_fill hw hgc).congr hentered⟩
  choose domain child hdomain hchild hregion using hdata
  have hspec := fun t : Targeted => domain_spec hw (hts.hasTransition t.1 t.2.1) (hdomain t)
  have hexchange : Exchange arena root active.On domain child (fun t => EnteredBy arena t.1) := by
    refine ⟨h.region hw, fun t => ?_, fun t => (hspec t).1, fun t u hne => ?_, hchild, hregion⟩
    · exact h.on_of_within hw (.inr (hts.source_active t.1 t.2.1)) (hspec t).2.1
    · have hapart : Apart arena t.1 u.1 :=
        hts.apart.forall t.2.1 u.2.1 fun heq => hne (Subtype.ext heq)
      exact hapart _ _ (hdomain t) (hdomain u)
  refine (hexchange.region_after hw).congr fun x => or_congr (and_congr_right fun _ => ?_) ?_
  · constructor
    · exact fun hkept t => hkept t.1 t.2.1 _ (hdomain t)
    · intro hkept t ht d hd hxd
      have hd' := hdomain ⟨t, ht, Option.isSome_iff_exists.2 ⟨d, hd⟩⟩
      exact hkept _ (Option.some.inj (hd.symm.trans hd') ▸ hxd)
  · constructor
    · -- a transition without a domain enters nothing
      rintro ⟨t, ht, hentered⟩
      obtain ⟨d, hd, -⟩ := below_of_enteredBy hw hentered
      exact ⟨⟨t, ht, Option.isSome_iff_exists.2 ⟨d, hd⟩⟩, hentered⟩
    · rintro ⟨t, hentered⟩
      exact ⟨t.1, t.2.1, hentered⟩

/-- Leaving and entering what transitions that can be taken at once leave and
enter keeps a configuration legal. -/
theorem legal_after {ts : List TransitionRef} {after : StateSet} (h : Legal arena active)
    (hts : Takeable arena active ts)
    (hafter : ∀ i, i ∈ after ↔
      (i ∈ active ∧ i ∉ arena.exitSets active ts) ∨ i ∈ arena.entrySet ts) :
    Legal arena after :=
  (Legal.iff_region hw).2 ⟨root_not_mem_after hw h hts hafter,
    (region_after hw h hts).congr (on_after_iff hw hts hafter)⟩

end Domain
end Statechart
