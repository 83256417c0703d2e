import Statechart.Proofs.Session.Completion

/-!
# Entry phases

States are entered at the start and at the end of every microstep.  No state is left
meanwhile, so what has become complete stays so, and it is the entry of a final state
that completes a parallel state.

The engine raises the completion event of a parallel state for final states two levels
below it, and for no others.  So if it is one of these that completes the state, then the
event is raised in this entry phase, and only once; this is the case if all regions are
compound.  If a parallel region is the last to become complete, no event is raised
(`completion_raised_once`).

A region that is a final state itself is excluded here.  The engine never finds it
complete, and the event can be missing altogether (`completion_not_noticed`).
-/

namespace Statechart

namespace Arena

/-- No region of a state is a final state, at any depth. -/
inductive Regular (arena : Arena) : Nat → Prop where
  | intro {i : Nat} : (arena.state i).isFinal = false →
    ((arena.state i).kind = .parallel → ∀ c ∈ (arena.state i).children, Regular arena c) →
      Regular arena i

variable {arena : Arena} {active later : StateSet} {fuel i j p c : Nat}

theorem Regular.isFinal (h : arena.Regular i) : (arena.state i).isFinal = false := by
  cases h with
  | intro hfinal _ => exact hfinal

theorem Regular.child (h : arena.Regular p) (hp : (arena.state p).kind = .parallel)
    (hc : c ∈ (arena.state p).children) : arena.Regular c := by
  cases h with
  | intro _ hchildren => exact hchildren hp c hc

namespace Complete

theorem compound_iff (hp : (arena.state p).kind = .compound) :
    arena.Complete active p ↔
      ∃ f ∈ (arena.state p).children, (arena.state f).isFinal = true ∧ f ∈ active := by
  constructor
  · intro h
    cases h with
    | @compound _ f _ hf hfinal hactive => exact ⟨f, hf, hfinal, hactive⟩
    | parallel hkind _ => cases hkind.symm.trans hp
    | final hfinal _ => cases hp.symm.trans (eq_of_beq hfinal)
  · rintro ⟨f, hf, hfinal, hactive⟩
    exact .compound hp hf hfinal hactive

theorem parallel_iff (hp : (arena.state p).kind = .parallel) :
    arena.Complete active p ↔ ∀ c ∈ (arena.state p).children, arena.Complete active c := by
  constructor
  · intro h
    cases h with
    | compound hkind _ _ _ => cases hkind.symm.trans hp
    | parallel _ hchildren => exact hchildren
    | final hfinal _ => cases hp.symm.trans (eq_of_beq hfinal)
  · exact .parallel hp

theorem final_iff (hi : (arena.state i).isFinal = true) :
    arena.Complete active i ↔ i ∈ active := by
  constructor
  · intro h
    cases h with
    | compound hkind _ _ _ => cases hkind.symm.trans (eq_of_beq hi)
    | parallel hkind _ => cases hkind.symm.trans (eq_of_beq hi)
    | final _ hactive => exact hactive
  · exact .final hi

/-- Only the active final states count. -/
theorem of_final_mem (h : arena.Complete active i)
    (hmem : ∀ f ∈ active, (arena.state f).isFinal = true → f ∈ later) :
    arena.Complete later i := by
  induction h with
  | compound hkind hf hfinal hactive => exact .compound hkind hf hfinal (hmem _ hactive hfinal)
  | parallel hkind _ ih => exact .parallel hkind ih
  | final hfinal hactive => exact .final hfinal (hmem _ hactive hfinal)

/-- What a new state completes, it completes because it is final. -/
theorem isFinal_of_insert (h : arena.Complete (active.insert i) p)
    (hbefore : ¬ arena.Complete active p) : (arena.state i).isFinal = true := by
  by_contra hi
  refine hbefore (h.of_final_mem fun f hf hfinal => ?_)
  rcases StateSet.mem_insert.1 hf with rfl | hf
  · exact absurd hfinal hi
  · exact hf

/-- A new state that completes compound regions belongs to one of them. -/
theorem exists_region_of_insert (h : arena.Complete (active.insert i) p)
    (hbefore : ¬ arena.Complete active p) (hp : (arena.state p).kind = .parallel)
    (hregions : ∀ c ∈ (arena.state p).children, (arena.state c).kind = .compound) :
    ∃ c ∈ (arena.state p).children, i ∈ (arena.state c).children := by
  rw [parallel_iff hp] at h hbefore
  push Not at hbefore
  obtain ⟨c, hc, hopen⟩ := hbefore
  obtain ⟨f, hf, hfinal, hactive⟩ := (compound_iff (hregions c hc)).1 (h c hc)
  rcases StateSet.mem_insert.1 hactive with rfl | hactive
  · exact ⟨c, hc, hf⟩
  · exact absurd (.compound (hregions c hc) hf hfinal hactive) hopen

/-- Something is active within a complete state. -/
theorem exists_active_within (hw : arena.WellFormed) (h : arena.Complete active i) :
    ∃ x ∈ active, arena.Within x i := by
  induction h with
  | @compound i f _ hf _ hactive => exact ⟨f, hactive, (hw.below_of_mem_children hf).within⟩
  | @parallel i hkind _ ih =>
      obtain ⟨c, hc⟩ := hw.exists_mem_children (s := i) (by simp [StateNode.isLeaf, hkind])
      obtain ⟨x, hx, hxc⟩ := ih c hc
      exact ⟨x, hx, hw.within_trans hxc (hw.below_of_mem_children hc).within⟩
  | @final i _ hactive => exact ⟨i, hactive, .refl⟩

end Complete
end Arena

namespace Session

open Arena (root)

variable {s r : Session} {states : StateSet} {i p c : Nat}

/-- The engine finds regular regions complete when they are. -/
theorem isCompleteUpTo_iff {arena : Arena} {active : StateSet} {fuel i : Nat}
    (hw : arena.WellFormed) (h : arena.Regular i) (hfuel : arena.size ≤ fuel + i) :
    isCompleteUpTo arena active fuel i = true ↔ arena.Complete active i := by
  refine ⟨complete_of_isCompleteUpTo, fun hcomplete => ?_⟩
  induction hcomplete generalizing fuel with
  | @compound i f hkind hf hfinal hactive =>
      have hlt : i < arena.size := Arena.lt_size_of_kind (by simp [hkind])
      obtain ⟨fuel, rfl⟩ : ∃ n, fuel = n + 1 := ⟨fuel - 1, by omega⟩
      simp only [isCompleteUpTo, hkind]
      exact List.any_eq_true.2 ⟨f, hf, by simp [hfinal, hactive]⟩
  | @parallel i hkind _ ih =>
      have hlt : i < arena.size := Arena.lt_size_of_kind (by simp [hkind])
      obtain ⟨fuel, rfl⟩ : ∃ n, fuel = n + 1 := ⟨fuel - 1, by omega⟩
      simp only [isCompleteUpTo, hkind]
      refine List.all_eq_true.2 fun c hc => ih c hc (h.child hkind hc) ?_
      have hic : i < c := hw.lt_of_below (hw.below_of_mem_children hc)
      omega
  | final hfinal _ => cases h.isFinal.symm.trans hfinal

/-! ## Completion events while states are entered -/

/-- The states whose completion events are raised by some operations, in order. -/
def completions (ops : List Operation) : List Nat := ops.filterMap Operation.completes?

@[simp] theorem completions_append (ops later : List Operation) :
    completions (ops ++ later) = completions ops ++ completions later :=
  List.filterMap_append

/-- A state that is not active is active from its entry on. -/
theorem active_enter (hi : i ∉ s.active) : (s.enter i).active = s.active.insert i := by
  have hcontains : s.active.contains i = false := by simpa using hi
  rw [(sameStates_enter i).active]
  show s.active.enter i = _
  rw [StateSet.enter, hcontains]
  rfl

theorem entering_of_mem (hi : i ∈ s.active) : s.entering i = [] := by
  rw [entering, if_pos (List.contains_iff_mem.2 hi)]

theorem enter_of_mem (hi : i ∈ s.active) : s.enter i = s := by
  rw [enter, if_pos (List.contains_iff_mem.2 hi)]

/-- Entering a state before anything is concluded. -/
theorem sameStates_arrive (s : Session) (i : Nat) :
    SameStates (s.withActive (s.active.insert i))
      (s.performAll [.arrive i, .run (.onEntry i)]) :=
  have harrive : SameStates (s.withActive (s.active.insert i)) (s.perform (.arrive i)) :=
    ⟨⟨rfl, rfl, rfl, rfl⟩, rfl⟩
  harrive.trans (sameStates_runContent _ _ _)

section Regular

variable (hw : s.arena.WellFormed) (hp : (s.arena.state p).kind = .parallel)
  (hregular : s.arena.Regular p)
include hw hp hregular

/-- The regions of a regular parallel state are found complete when it is complete. -/
theorem all_isComplete_iff :
    (s.arena.state p).children.all s.isComplete = true ↔ s.arena.Complete s.active p := by
  rw [Arena.Complete.parallel_iff hp, List.all_eq_true]
  refine forall₂_congr fun c hc => ?_
  exact isCompleteUpTo_iff hw (hregular.child hp hc) (Nat.le_add_right _ _)

open Classical in
/-- After the entry of a final state in one of its regions, the event of a parallel state is
raised if it is complete then. -/
theorem count_concluding_region (hc : c ∈ (s.arena.state p).children) :
    (completions (s.concluding c)).count p = if s.arena.Complete s.active p then 1 else 0 := by
  have hparent : (s.arena.state c).parent = some p := hw.parent_of_mem_children hc
  have hne : c ≠ p := Nat.ne_of_gt (hw.lt_of_below (hw.below_of_mem_children hc))
  have hroot : c ≠ root := fun heq => hw.not_parent_root (heq ▸ hparent)
  have hkind : (s.arena.state p).isParallel = true := beq_iff_eq.2 hp
  have hall : ((s.arena.state p).children.all (s.complete c).isComplete = true) =
      s.arena.Complete s.active p := propext (all_isComplete_iff (s := s) hw hp hregular)
  simp only [concluding, if_neg hroot, hparent, hkind, Bool.true_and, hall]
  split <;> simp [completions, Operation.completes?, hne]

omit hp hregular in
/-- A final state elsewhere raises no event for it. -/
theorem count_concluding_elsewhere (hc : c ∉ (s.arena.state p).children) (hne : c ≠ p) :
    (completions (s.concluding c)).count p = 0 := by
  have hparent : (s.arena.state c).parent ≠ some p := fun h => hc ((hw.mem_children_iff p c).2 h)
  unfold concluding
  split
  · rfl
  · split
    · simp [completions, Operation.completes?, hne]
    · next around haround =>
      have hapart : around ≠ p := fun heq => hparent (heq ▸ haround)
      dsimp only
      split <;> simp [completions, Operation.completes?, hne, hapart]

open Classical in
/-- The entry of a state raises the event of a regular parallel state exactly if it is a
final state in one of the regions and completes the parallel state. -/
theorem count_entering (hi : i ∉ s.active) :
    (completions (s.entering i)).count p =
      if (∃ c ∈ (s.arena.state p).children, i ∈ (s.arena.state c).children) ∧
          (s.arena.state i).isFinal = true ∧ s.arena.Complete (s.active.insert i) p
      then 1 else 0 := by
  have hsame := sameStates_arrive s i
  have hcontent : completions [.arrive i, .run (.onEntry i)] = [] := rfl
  unfold entering
  rw [if_neg (by simpa using hi)]
  dsimp only
  generalize s.performAll [.arrive i, .run (.onEntry i)] = r at hsame ⊢
  have harena : r.arena = s.arena := hsame.toSameRun.arena
  have hactive : r.active = s.active.insert i := hsame.active
  rw [← harena] at hw hp hregular ⊢
  split
  · next hfinal =>
    cases hparent : (r.arena.state i).parent with
    | none =>
        have hnone : ¬ ∃ c ∈ (r.arena.state p).children, i ∈ (r.arena.state c).children := by
          rintro ⟨c, -, hc⟩
          cases hparent.symm.trans (hw.parent_of_mem_children hc)
        simp [hcontent, hnone]
    | some c =>
        have hchild : i ∈ (r.arena.state c).children := (hw.mem_children_iff c i).2 hparent
        rw [completions_append, hcontent, List.nil_append]
        by_cases hc : c ∈ (r.arena.state p).children
        · have hregion : ∃ c ∈ (r.arena.state p).children, i ∈ (r.arena.state c).children :=
            ⟨c, hc, hchild⟩
          simp [count_concluding_region hw hp hregular hc, hregion, hfinal, hactive]
        · have hne : c ≠ p := by
            -- the regions are not final, but this child is
            rintro rfl
            cases ((hregular.child hp hchild).isFinal).symm.trans hfinal
          have hnone : ¬ ∃ c ∈ (r.arena.state p).children, i ∈ (r.arena.state c).children := by
            rintro ⟨d, hd, hid⟩
            obtain rfl := Arena.parent_unique hparent (hw.parent_of_mem_children hid)
            exact hc hd
          simp [count_concluding_elsewhere hw hc hne, hnone]
  · next hfinal => simp [hcontent, hfinal]

end Regular

/-! ## Entry phases -/

/-- States are about to be entered: the initial ones, or those that the transitions of a
microstep enter after the others are left. -/
inductive EntryPhase : Session → StateSet → Prop where
  | start {s : Session} : s.Reachable → s.phase = .uninitialized →
    EntryPhase (s.perform .begin) s.arena.initialStates
  | step {s : Session} (event : Option Event) : s.Reachable → s.phase = .running →
    EntryPhase ((s.select event).2.leaveAll (s.select event).1)
      (s.arena.entrySet (s.select event).1)

theorem mem_active_enterAll {x : Nat} :
    x ∈ (s.enterAll states).active ↔ x ∈ s.active ∨ x ∈ states := by
  rw [(sameStates_enterAll states).active]
  exact StateSet.mem_foldl_enter

theorem arena_leaveAll_select (event : Option Event) (ts : List TransitionRef) :
    ((s.select event).2.leaveAll ts).arena = s.arena :=
  (sameStates_leaveAll ts).toSameRun.arena.trans (sameView_select event).toSameRun.arena

theorem arena_leaveAll_selectFor (event : Event) (ts : List TransitionRef) :
    ((s.selectFor event).2.leaveAll ts).arena = s.arena :=
  arena_leaveAll_select (s := s.receive event) (some event) ts

theorem mem_active_leaveAll_select {x : Nat} (event : Option Event) (ts : List TransitionRef) :
    x ∈ ((s.select event).2.leaveAll ts).active ↔
      x ∈ s.active ∧ x ∉ s.arena.exitSets s.active ts := by
  have hview := sameView_select (s := s) event
  rw [mem_active_leaveAll, hview.active, hview.toSameRun.arena]

namespace EntryPhase

/-- The entry phase of the transitions that an event from outside enables. -/
theorem submit (h : s.Reachable) (hs : s.phase = .running) (event : Event) :
    EntryPhase ((s.selectFor event).2.leaveAll (s.selectFor event).1)
      (s.arena.entrySet (s.selectFor event).1) :=
  .step (s := s.receive event) (some event) (h.move (.receive event hs)) hs

theorem wellFormed (h : EntryPhase r states) : r.arena.WellFormed := by
  cases h with
  | start hs _ => exact hs.coherent.wellFormed
  | step event hs _ =>
      rw [arena_leaveAll_select]
      exact hs.coherent.wellFormed

/-- An entry phase ends in a legal configuration. -/
theorem legal (h : EntryPhase r states) :
    Legal (r.enterAll states).arena (r.enterAll states).active := by
  cases h with
  | start hs hphase => exact (hs.coherent.begin hphase).legal (Move.begin hphase).started
  | @step s event hs hphase =>
      have hmicrostep : ((s.select event).2.leaveAll (s.select event).1).enterAll
          (s.arena.entrySet (s.select event).1) =
            (s.select event).2.microstep (s.select event).1 := by
        rw [microstep_eq, (sameView_select event).toSameRun.arena]
      rw [hmicrostep]
      exact (hs.coherent.step hphase event).legal (Move.step event hphase).started

/-- What is complete before an entry phase is active then. -/
theorem mem_active (h : EntryPhase r states) (hp : p ≠ root)
    (hcomplete : r.arena.Complete r.active p) : p ∈ r.active := by
  obtain ⟨x, hx, hxp⟩ := hcomplete.exists_active_within h.wellFormed
  cases h with
  | @start s hs hphase =>
      have hidle : s.active = [] := hs.coherent.idle hphase
      have hmem : x ∈ s.active := hx
      rw [hidle] at hmem
      exact absurd hmem List.not_mem_nil
  | @step s event hs hphase =>
      have hw : s.arena.WellFormed := hs.coherent.wellFormed
      rw [arena_leaveAll_select] at hxp
      obtain ⟨hactive, hkept⟩ := (mem_active_leaveAll_select event _).1 hx
      have hlegal : Legal s.arena s.active := hs.coherent.legal (started_of_running hphase)
      have hpactive : p ∈ s.active := (hlegal.on_of_within hw (.inr hactive) hxp).resolve_left hp
      -- had `p` been left, so had everything within it
      refine (mem_active_leaveAll_select event _).2 ⟨hpactive, fun hleft => hkept ?_⟩
      obtain ⟨-, t, ht, d, hd, hpd⟩ := mem_exitSets_iff.1 hleft
      exact mem_exitSets_iff.2 ⟨hactive, t, ht, d, hd, hw.below_of_within_of_below hxp hpd⟩

end EntryPhase

/-! ## How a parallel state becomes complete -/

/-- While some states are entered, a state becomes complete upon the entry of one of
them. -/
structure Turns (s : Session) (states : StateSet) (p : Nat) (first : StateSet) (i : Nat)
    (rest : StateSet) : Prop where
  split : states = first ++ i :: rest
  open_before : ¬ s.arena.Complete (s.enterAll first).active p
  complete_after : s.arena.Complete (s.enterAll (first ++ [i])).active p

theorem arena_enter (i : Nat) : (s.enter i).arena = s.arena :=
  (sameStates_enter i).toSameRun.arena

/-- If the regions are compound, the state that is entered belongs to one of them. -/
theorem Turns.exists_region {first rest : StateSet} (h : s.Turns states p first i rest)
    (hp : (s.arena.state p).kind = .parallel)
    (hregions : ∀ c ∈ (s.arena.state p).children, (s.arena.state c).kind = .compound) :
    ∃ c ∈ (s.arena.state p).children, i ∈ (s.arena.state c).children := by
  have hlast : s.enterAll (first ++ [i]) = (s.enterAll first).enter i := List.foldl_append
  have hafter := h.complete_after
  have hi : i ∉ (s.enterAll first).active := fun hi => h.open_before (by
    rwa [hlast, enter_of_mem hi] at hafter)
  rw [hlast, active_enter hi] at hafter
  exact hafter.exists_region_of_insert h.open_before hp hregions

section Regular

variable (hw : s.arena.WellFormed) (hp : (s.arena.state p).kind = .parallel)
  (hregular : s.arena.Regular p) (hlegal : Legal s.arena (s.enterAll states).active)
include hw hp hregular hlegal

/-- In a region that is complete no other final state is entered. -/
theorem mem_active_of_complete (hcomplete : s.arena.Complete s.active p)
    (hc : c ∈ (s.arena.state p).children) (hi : i ∈ (s.arena.state c).children)
    (hfinal : (s.arena.state i).isFinal = true) (hentered : i ∈ (s.enterAll states).active) :
    i ∈ s.active := by
  have hregion : s.arena.Complete s.active c := (Arena.Complete.parallel_iff hp).1 hcomplete c hc
  cases hregion with
  | @compound _ f hkind hf _ hactive =>
      obtain ⟨q, hq, hqactive⟩ := hlegal.parent i hentered
      obtain rfl := Arena.parent_unique hq (hw.parent_of_mem_children hi)
      have hcroot : q ≠ root := by
        rintro rfl
        exact hw.not_parent_root (hw.parent_of_mem_children hc)
      have hunique := hlegal.compound q (hqactive.resolve_left hcroot) hkind
      have heq : i = f := hunique.unique ⟨hi, hentered⟩ ⟨hf, mem_active_enterAll.2 (.inl hactive)⟩
      exact heq ▸ hactive
  | parallel _ hchildren => exact (Arena.Complete.final_iff hfinal).1 (hchildren i hi)
  | final hcfinal _ => cases ((hregular.child hp hc).isFinal).symm.trans hcfinal

/-- Once a parallel state is complete, its event is not raised any more. -/
theorem count_completions_of_complete (hcomplete : s.arena.Complete s.active p) :
    (completions (s.enteringAll states)).count p = 0 := by
  induction states generalizing s with
  | nil => rfl
  | cons i rest ih =>
      rw [enteringAll, completions_append, List.count_append]
      by_cases hi : i ∈ s.active
      · rw [entering_of_mem hi, enter_of_mem hi]
        have hrest : s.enterAll (i :: rest) = s.enterAll rest := by
          rw [enterAll, List.foldl_cons, enter_of_mem hi]
          rfl
        rw [hrest] at hlegal
        rw [ih hw hp hregular hlegal hcomplete]
        rfl
      · have hmem : i ∈ (s.enterAll (i :: rest)).active :=
          mem_active_enterAll.2 (.inr List.mem_cons_self)
        rw [count_entering hw hp hregular hi, if_neg, Nat.zero_add]
        · have harena := arena_enter (s := s) i
          have hlater : s.arena.Complete (s.enter i).active p := by
            rw [active_enter hi]
            exact hcomplete.of_final_mem fun f hf _ => StateSet.mem_insert.2 (.inr hf)
          rw [← harena] at hw hp hregular hlegal hlater
          exact ih hw hp hregular hlegal hlater
        · rintro ⟨⟨c, hc, hic⟩, hfinal, -⟩
          exact hi (mem_active_of_complete hw hp hregular hlegal hcomplete hc hic hfinal hmem)

/-- A parallel state becomes complete upon one entry, and its event is raised then, if the
state that is entered belongs to one of its regions. -/
theorem exists_turns (hbefore : ¬ s.arena.Complete s.active p)
    (hafter : s.arena.Complete (s.enterAll states).active p) :
    ∃ first i rest, s.Turns states p first i rest ∧ (s.arena.state i).isFinal = true ∧
      ((∃ c ∈ (s.arena.state p).children, i ∈ (s.arena.state c).children) →
        (completions (s.enteringAll states)).count p = 1) ∧
      ((¬ ∃ c ∈ (s.arena.state p).children, i ∈ (s.arena.state c).children) →
        (completions (s.enteringAll states)).count p = 0) := by
  induction states generalizing s with
  | nil => exact absurd hafter hbefore
  | cons i rest ih =>
      have harena := arena_enter (s := s) i
      rw [enteringAll, completions_append, List.count_append]
      by_cases hturn : s.arena.Complete (s.enter i).active p
      · have hi : i ∉ s.active := fun hi => hbefore (by rwa [enter_of_mem hi] at hturn)
        have hinsert : s.arena.Complete (s.active.insert i) p := by rwa [active_enter hi] at hturn
        have hfinal := hinsert.isFinal_of_insert hbefore
        have hrest : (completions ((s.enter i).enteringAll rest)).count p = 0 := by
          rw [← harena] at hw hp hregular hlegal hturn
          exact count_completions_of_complete hw hp hregular hlegal hturn
        refine ⟨[], i, rest, ⟨rfl, hbefore, hturn⟩, hfinal, fun hregion => ?_, fun hregion => ?_⟩
        · rw [count_entering hw hp hregular hi, if_pos ⟨hregion, hfinal, hinsert⟩, hrest]
        · rw [count_entering hw hp hregular hi, if_neg (fun h => hregion h.1), hrest]
      · have hfirst : (completions (s.entering i)).count p = 0 := by
          by_cases hi : i ∈ s.active
          · rw [entering_of_mem hi]
            rfl
          · rw [active_enter hi] at hturn
            rw [count_entering hw hp hregular hi, if_neg (fun h => hturn h.2.2)]
        rw [hfirst, Nat.zero_add, ← harena]
        rw [← harena] at hw hp hregular hlegal hafter hturn
        obtain ⟨first, j, later, hturns, hrest⟩ := ih hw hp hregular hlegal hturn hafter
        refine ⟨i :: first, j, later, ⟨?_, ?_, ?_⟩, hrest⟩
        · rw [hturns.split]
          rfl
        · exact harena ▸ hturns.open_before
        · exact harena ▸ hturns.complete_after

end Regular

/-- In an entry phase that makes a parallel state complete, it is one entry that does so, of
a final state.  If this is a state in one of the regions, the completion event is raised
in the phase, and only once, and otherwise it is not.  Where the regions are compound,
it is always raised. -/
theorem completion_raised_once (h : EntryPhase r states)
    (hp : (r.arena.state p).kind = .parallel) (hregular : r.arena.Regular p)
    (hbefore : p ∉ r.active ∨ ¬ r.arena.Complete r.active p)
    (hafter : r.arena.Complete (r.enterAll states).active p) :
    r.performAll (r.enteringAll states) = r.enterAll states ∧
      (∀ q : Session, (q.perform (.complete p)).internal =
        q.internal ++ [.completion (q.arena.state p).id]) ∧
      ∃ first i rest, r.Turns states p first i rest ∧ (r.arena.state i).isFinal = true ∧
        ((∃ c ∈ (r.arena.state p).children, i ∈ (r.arena.state c).children) →
          (completions (r.enteringAll states)).count p = 1) ∧
        ((¬ ∃ c ∈ (r.arena.state p).children, i ∈ (r.arena.state c).children) →
          (completions (r.enteringAll states)).count p = 0) ∧
        ((∀ c ∈ (r.arena.state p).children, (r.arena.state c).kind = .compound) →
          (completions (r.enteringAll states)).count p = 1) := by
  have hroot : p ≠ root := by
    rintro rfl
    cases h.wellFormed.root_kind.symm.trans hp
  have hopen : ¬ r.arena.Complete r.active p := fun hcomplete =>
    hbefore.elim (fun hidle => hidle (h.mem_active hroot hcomplete)) fun hopen => hopen hcomplete
  have harena : (r.enterAll states).arena = r.arena :=
    (sameStates_enterAll states).toSameRun.arena
  obtain ⟨first, i, rest, hturns, hfinal, hregion, helsewhere⟩ :=
    exists_turns h.wellFormed hp hregular (harena ▸ h.legal) hopen hafter
  refine ⟨performAll_enteringAll states, fun _ => rfl, first, i, rest, hturns, hfinal, hregion,
    helsewhere, fun hcompound => hregion ?_⟩
  exact hturns.exists_region hp hcompound

/-- Both regions of `joined` are complete after the start, and the event is raised once. -/
theorem completion_raised_once_joined :
    let s := ofModel joinedModel {} .standard
    let r := s.perform .begin
    let states := joinedModel.arena.initialStates
    EntryPhase r states ∧ (r.arena.state 1).kind = .parallel ∧ r.arena.Regular 1 ∧
      1 ∉ r.active ∧ r.arena.Complete (r.enterAll states).active 1 ∧
      (completions (r.enteringAll states)).count 1 = 1 := by
  intro s r states
  have hphase : EntryPhase r states :=
    .start (reachable_after_build build_joined {} .standard []) rfl
  have hcompound : ∀ c ∈ [2, 4], (joinedModel.arena.state c).kind = .compound := by decide +kernel
  have hregular : joinedModel.arena.Regular 1 := by
    refine .intro rfl fun _ c hc => ?_
    have hkind : (joinedModel.arena.state c).kind = .compound := hcompound c hc
    refine .intro ?_ fun hparallel => ?_
    · rw [StateNode.isFinal, hkind]
      rfl
    · cases hkind.symm.trans hparallel
  have hidle : 1 ∉ r.active := List.not_mem_nil
  have hfound : isCompleteUpTo joinedModel.arena (r.enterAll states).active 2 1 = true := by
    decide +kernel
  have hafter : joinedModel.arena.Complete (r.enterAll states).active 1 :=
    complete_of_isCompleteUpTo hfound
  obtain ⟨-, -, _, _, _, -, -, -, -, hall⟩ :=
    completion_raised_once hphase rfl hregular (.inl hidle) hafter
  exact ⟨hphase, rfl, hregular, hidle, hafter, hall hcompound⟩

/-- A parallel state with two regions: one is a final state, the other one has to be
completed first. -/
def overdue : Document where
  datamodel := [("armed", .bool false)]
  states :=
    [.state
      { id := "p"
        isParallel := true
        transitions :=
          [{ event := some "done.state.p", cond := some "armed", target := some "q" }] }
      [.state { id := "f", isFinal := true } [],
       .state { id := "r" }
        [.state
          { id := "r1"
            transitions :=
              [{ event := some "go"
                 target := some "r2"
                 actions := [.assign "armed" "true"] }] } [],
         .state { id := "r2", isFinal := true } []]],
     .state { id := "q" } []]

/-- The model of `overdue`. -/
def overdueModel : Model := (Model.build overdue .empty).toOption.getD default

theorem build_overdue : Model.build overdue .empty = .ok overdueModel := rfl

/-- The entry of `r2` makes `p` complete, as its other region is an active final state.  But
only the event for `r` is raised then, and the transition of `p` that waits for the other
event is never taken. -/
theorem completion_not_noticed :
    let s := (ofModel overdueModel {} .standard).after [.start]
    let found := s.selectFor (.plain "go")
    let r := found.2.leaveAll found.1
    EntryPhase r [5] ∧ (r.arena.state 1).kind = .parallel ∧
      ¬ r.arena.Complete r.active 1 ∧ r.arena.Complete (r.enterAll [5]).active 1 ∧
      completions (r.enteringAll [5]) = [3] ∧
      (s.call (.submit (.plain "go"))).2.active = [1, 2, 3, 5] := by
  intro s found r
  have hreachable : s.Reachable := reachable_after_build build_overdue {} .standard [.start]
  have hphase : EntryPhase r (s.arena.entrySet found.1) :=
    .submit hreachable (by decide +kernel) (.plain "go")
  have hstates : s.arena.entrySet found.1 = [5] := by decide +kernel
  have hchart : s.arena = overdueModel.arena :=
    (Moves.sameChart (moves_after (s := ofModel overdueModel {} .standard) [.start])).arena
  have harena : r.arena = overdueModel.arena := (arena_leaveAll_selectFor _ _).trans hchart
  have hactive : r.active = [1, 2, 3] := by decide +kernel
  have hentered : (r.enterAll [5]).active = [1, 2, 3, 5] := by decide +kernel
  have hparallel : (overdueModel.arena.state 1).kind = .parallel := rfl
  have hcompound : (overdueModel.arena.state 3).kind = .compound := rfl
  have hregions : (overdueModel.arena.state 1).children = [2, 3] := rfl
  have hopen : ¬ overdueModel.arena.Complete [1, 2, 3] 1 := by
    rw [Arena.Complete.parallel_iff hparallel, hregions]
    intro hall
    obtain ⟨f, hf, -, hfactive⟩ :=
      (Arena.Complete.compound_iff hcompound).1 (hall 3 (by decide))
    have hapart : ∀ f ∈ (overdueModel.arena.state 3).children, f ∉ [1, 2, 3] := by decide +kernel
    exact hapart f hf hfactive
  have hcomplete : overdueModel.arena.Complete [1, 2, 3, 5] 1 := by
    rw [Arena.Complete.parallel_iff hparallel, hregions]
    refine List.forall_mem_cons.2 ⟨?_, List.forall_mem_singleton.2 ?_⟩
    · exact (Arena.Complete.final_iff (by decide +kernel)).2 (by decide)
    · exact (Arena.Complete.compound_iff hcompound).2 ⟨5, by decide +kernel⟩
  rw [hstates] at hphase
  rw [harena, hactive, hentered]
  exact ⟨hphase, rfl, hopen, hcomplete, by decide +kernel, by decide +kernel⟩

end Session
end Statechart
