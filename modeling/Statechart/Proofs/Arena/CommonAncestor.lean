import Mathlib.Data.List.Pairwise
import Statechart.Proofs.Arena.Depiction

/-!
# The least common compound ancestor

Ancestors are found along parents, so what is said here of ancestors is said of
parents: a state stands around others if parents lead from each of them to it.

The compound states around some states lie around one of these and are therefore
nested in each other, and the ancestors of a state are listed from the innermost
on.  So the search along the ancestors of the first state finds the innermost one
(`WellFormed.leastAround_commonAncestor`).  That state is determined by which
states are given, so neither their order nor their number matters
(`WellFormed.commonAncestor_congr`), although the search treats the first one
differently from the others.
-/

namespace Statechart
namespace Arena

/-- A compound state around some states. -/
structure Around (arena : Arena) (ss : List Nat) (a : Nat) : Prop where
  kind : (arena.state a).kind = .compound
  inside : ∀ s ∈ ss, Relation.TransGen arena.Parent s a

/-- The innermost compound state around some states. -/
structure LeastAround (arena : Arena) (ss : List Nat) (a : Nat) : Prop where
  around : arena.Around ss a
  /-- Every other one is an ancestor of it. -/
  least : ∀ b, arena.Around ss b → Relation.ReflTransGen arena.Parent a b

variable {arena : Arena} {a b s : Nat} {ss ts : List Nat}

theorem around_congr (h : ∀ s, s ∈ ss ↔ s ∈ ts) : arena.Around ss a ↔ arena.Around ts a :=
  ⟨fun ha => ⟨ha.kind, fun s hs => ha.inside s ((h s).2 hs)⟩,
    fun ha => ⟨ha.kind, fun s hs => ha.inside s ((h s).1 hs)⟩⟩

theorem leastAround_congr (h : ∀ s, s ∈ ss ↔ s ∈ ts) :
    arena.LeastAround ss a ↔ arena.LeastAround ts a :=
  ⟨fun ha => ⟨(around_congr h).1 ha.around, fun b hb => ha.least b ((around_congr h).2 hb)⟩,
    fun ha => ⟨(around_congr h).2 ha.around, fun b hb => ha.least b ((around_congr h).1 hb)⟩⟩

namespace WellFormed

variable (hw : arena.WellFormed)
include hw

theorem below_iff_transGen : arena.Below s a ↔ Relation.TransGen arena.Parent s a :=
  ⟨fun h => transGen_of_mem_ancestorsUpTo h, hw.below_of_transGen⟩

theorem within_iff_reflTransGen : arena.Within s a ↔ Relation.ReflTransGen arena.Parent s a := by
  rw [Relation.reflTransGen_iff_eq_or_transGen, ← hw.below_iff_transGen, Within, eq_comm]

theorem within_antisymm (hab : arena.Within a b) (hba : arena.Within b a) : a = b :=
  Nat.le_antisymm (hw.le_of_within hba) (hw.le_of_within hab)

/-- Ancestors are listed from the innermost on. -/
theorem ancestors_sorted (s : Nat) : (arena.ancestors s).Pairwise (· > ·) := by
  induction s using Nat.strongRecOn with
  | ind s ih =>
      cases hp : (arena.state s).parent with
      | none =>
          have hnil : arena.ancestors s = [] :=
            List.eq_nil_iff_forall_not_mem.2 fun a ha => by
              obtain ⟨p, hp', -⟩ := hw.below_iff.1 ha
              exact Option.some_ne_none p (hp'.symm.trans hp)
          rw [hnil]
          exact List.Pairwise.nil
      | some p =>
          rw [hw.ancestors_of_parent hp]
          exact List.Pairwise.cons (fun a ha => hw.lt_of_below ha) (ih p (hw.parent_lt s p hp))

theorem around_iff : arena.Around ss a ↔
    (arena.state a).isCompound = true ∧ ∀ s ∈ ss, arena.isDescendant s a = true := by
  simp only [isDescendant_iff, hw.below_iff_transGen, StateNode.isCompound, beq_iff_eq]
  exact ⟨fun h => ⟨h.kind, h.inside⟩, fun h => ⟨h.1, h.2⟩⟩

theorem around_cons_iff {head : Nat} {tail : List Nat} : arena.Around (head :: tail) a ↔
    a ∈ arena.ancestors head ∧
      ((arena.state a).isCompound && tail.all fun s => arena.isDescendant s a) = true := by
  rw [hw.around_iff, List.forall_mem_cons, isDescendant_iff, Bool.and_eq_true, List.all_eq_true,
    Below]
  exact and_left_comm

theorem leastAround_unique (ha : arena.LeastAround ss a) (hb : arena.LeastAround ss b) : a = b :=
  hw.within_antisymm (hw.within_iff_reflTransGen.2 (ha.least b hb.around))
    (hw.within_iff_reflTransGen.2 (hb.least a ha.around))

/-- The first compound state that the search finds is the innermost one: those that it would
find later stand before it in the arena. -/
theorem leastAround_of_find? {head : Nat} {tail : List Nat}
    (h : (arena.ancestors head).find? (fun a =>
      (arena.state a).isCompound && tail.all fun s => arena.isDescendant s a) = some a) :
    arena.LeastAround (head :: tail) a := by
  obtain ⟨hqualifies, before, behind, hsplit, hnone⟩ := List.find?_eq_some_iff_append.1 h
  have hmem : a ∈ arena.ancestors head := List.mem_of_find?_eq_some h
  refine ⟨hw.around_cons_iff.2 ⟨hmem, hqualifies⟩, fun b hb => ?_⟩
  obtain ⟨hbmem, hbqualifies⟩ := hw.around_cons_iff.1 hb
  refine hw.within_iff_reflTransGen.1 ?_
  have hsorted := hw.ancestors_sorted head
  rw [hsplit] at hbmem hsorted
  rcases List.mem_append.1 hbmem with hbefore | hrest
  · have hno := hnone b hbefore
    rw [hbqualifies] at hno
    cases hno
  rcases List.mem_cons.1 hrest with rfl | hbehind
  · exact .refl
  have hlt : b < a := List.rel_of_pairwise_cons (List.pairwise_append.1 hsorted).2.1 hbehind
  have hnested := hw.within_or_within (Below.within hmem)
    (Below.within (hw.below_iff_transGen.2 (hb.inside head List.mem_cons_self)))
  exact hnested.resolve_right fun hba => Nat.not_lt.2 (hw.le_of_within hba) hlt

/-- The search finds the innermost compound state around some states if there is one, and
answers the root otherwise. -/
theorem commonAncestor_cases (hne : ss ≠ []) :
    arena.LeastAround ss (arena.commonAncestor ss) ∨
      (∀ a, ¬ arena.Around ss a) ∧ arena.commonAncestor ss = root := by
  obtain ⟨head, tail, rfl⟩ := List.exists_cons_of_ne_nil hne
  cases hfind : (arena.ancestors head).find? fun a =>
      (arena.state a).isCompound && tail.all fun s => arena.isDescendant s a with
  | some a =>
      have hcommon : arena.commonAncestor (head :: tail) = a := by
        simp only [commonAncestor, hfind, Option.getD_some]
      exact .inl (hcommon ▸ hw.leastAround_of_find? hfind)
  | none =>
      refine .inr ⟨fun a ha => ?_, by simp only [commonAncestor, hfind, Option.getD_none]⟩
      obtain ⟨hmem, hqualifies⟩ := hw.around_cons_iff.1 ha
      exact List.find?_eq_none.1 hfind a hmem hqualifies

/-- Around states other than the root there is the root at least. -/
theorem leastAround_commonAncestor (hne : ss ≠ [])
    (h : ∀ s ∈ ss, root < s ∧ s < arena.size) :
    arena.LeastAround ss (arena.commonAncestor ss) := by
  refine (hw.commonAncestor_cases hne).resolve_right fun hno => hno.1 root ⟨hw.root_kind, ?_⟩
  intro s hs
  exact hw.below_iff_transGen.1 (hw.below_root (h s hs).1 (h s hs).2)

/-- Only which states are given matters, not their order and not how often. -/
theorem commonAncestor_congr (h : ∀ s, s ∈ ss ↔ s ∈ ts) :
    arena.commonAncestor ss = arena.commonAncestor ts := by
  by_cases hss : ss = []
  · subst hss
    have hts : ts = [] := List.eq_nil_iff_forall_not_mem.2 fun s hs => List.not_mem_nil ((h s).2 hs)
    rw [hts]
  have hts : ts ≠ [] := fun hnil => hss <|
    List.eq_nil_iff_forall_not_mem.2 fun s hs => List.not_mem_nil (hnil ▸ (h s).1 hs)
  rcases hw.commonAncestor_cases hss with hleast | ⟨hnone, hroot⟩
  · rcases hw.commonAncestor_cases hts with hleast' | ⟨hnone', -⟩
    · exact hw.leastAround_unique ((leastAround_congr h).1 hleast) hleast'
    · exact absurd ((around_congr h).1 hleast.around) (hnone' _)
  · rcases hw.commonAncestor_cases hts with hleast' | ⟨-, hroot'⟩
    · exact absurd ((around_congr h).2 hleast'.around) (hnone _)
    · rw [hroot, hroot']

/-- No state stands around the root. -/
theorem commonAncestor_of_root_mem (h : root ∈ ss) : arena.commonAncestor ss = root := by
  rcases hw.commonAncestor_cases (List.ne_nil_of_mem h) with hleast | ⟨-, hroot⟩
  · have hinside := hw.below_iff_transGen.2 (hleast.around.inside root h)
    exact absurd hinside (hw.not_root_below _)
  · exact hroot

end WellFormed

/-- What a model answers for some of its states is the innermost compound state around them, and
the root for no states and for the root. -/
structure FindsCommon (arena : Arena) : Prop where
  least : ∀ ss, ss ≠ [] → (∀ s ∈ ss, root < s ∧ s < arena.size) →
    arena.LeastAround ss (arena.commonAncestor ss)
  congr : ∀ ss ts, (∀ s, s ∈ ss ↔ s ∈ ts) → arena.commonAncestor ss = arena.commonAncestor ts
  root : ∀ ss, ss = [] ∨ root ∈ ss → arena.commonAncestor ss = root

end Arena

namespace Model

/-- The least common compound ancestor in a model that is built. -/
theorem findsCommon_of_build {doc : Document} {registry : Registry} {model : Model}
    (h : build doc registry = .ok model) : model.arena.FindsCommon := by
  have hw := wellFormed_of_build h
  refine ⟨fun ss hne hss => hw.leastAround_commonAncestor hne hss,
    fun ss ts hsame => hw.commonAncestor_congr hsame, ?_⟩
  rintro ss (rfl | hroot)
  · rfl
  · exact hw.commonAncestor_of_root_mem hroot

/-- A parallel state is passed over, and a state is not around itself. -/
theorem findsCommon_errand :
    build errand .empty = .ok errandModel ∧
      errandModel.arena.commonAncestor [2, 3, 2] = 1 ∧
      errandModel.arena.commonAncestor [5, 6] = Arena.root ∧
      errandModel.arena.commonAncestor [1, 2] = Arena.root ∧
      errandModel.arena.FindsCommon :=
  ⟨build_errand, by decide +kernel, by decide +kernel, by decide +kernel,
    findsCommon_of_build build_errand⟩

end Model
end Statechart
