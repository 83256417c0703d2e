import Statechart.Proofs.Session.Failure

/-!
# Completion events

The engine raises a completion event in two places, both of them when a final state is
entered: for its parent, and for the parallel state around that if all regions there
are found to be complete.  So a completion event is always `Due`, as a final child of
the state was just entered, or the regions of a parallel state are complete
(`completion_is_due`).

For a compound state a final child is enough.  For a parallel state it is not: its
children are its regions, and a final state may be one of them.  The engine does not
look at the others then, and the event can come before they are complete
(`completion_before_regions`).
-/

namespace Statechart

/-- A region is complete while some states are active. -/
inductive Arena.Complete (arena : Arena) (active : StateSet) : Nat → Prop where
  | compound {i f : Nat} : (arena.state i).kind = .compound → f ∈ (arena.state i).children →
    (arena.state f).isFinal = true → f ∈ active → Complete arena active i
  | parallel {i : Nat} : (arena.state i).kind = .parallel →
    (∀ c ∈ (arena.state i).children, Complete arena active c) → Complete arena active i
  | final {i : Nat} : (arena.state i).isFinal = true → i ∈ active → Complete arena active i

/-- The state whose completion event is raised, if that is the operation. -/
def Operation.completes? : Operation → Option Nat
  | complete i => some i
  | _ => none

namespace Session

/-- Why the completion event of a state is raised after some operations. -/
inductive Due (s : Session) (past : List Operation) (p : Nat) : Prop where
  /-- A final child was entered just before. -/
  | child {earlier : List Operation} {f : Nat} :
    past = earlier ++ [.arrive f, .run (.onEntry f)] → f ∈ (s.arena.state p).children →
      (s.arena.state f).isFinal = true → f ∈ s.active → Due s past p
  /-- It is a parallel state, and all its regions are complete. -/
  | regions : (s.arena.state p).kind = .parallel →
    (∀ i ∈ (s.arena.state p).children, s.arena.Complete s.active i) → Due s past p

/-- After some operations have been performed, no completion event is raised that is
not due. -/
def Vouched (s : Session) (past : List Operation) : List Operation → Prop
  | [] => True
  | op :: rest => (∀ p, op.completes? = some p → s.Due past p) ∧
    (s.perform op).Vouched (past ++ [op]) rest

variable {s r : Session} {c : Call} {result : Result} {op : Operation}
  {past ops later : List Operation} {parent p : Nat}

/-! ## Complete regions -/

theorem complete_of_isCompleteUpTo {arena : Arena} {active : StateSet} {fuel i : Nat}
    (h : isCompleteUpTo arena active fuel i = true) : arena.Complete active i := by
  induction fuel generalizing i with
  | zero => cases h
  | succ fuel ih =>
      unfold isCompleteUpTo at h
      dsimp only at h
      split at h
      · next hkind =>
        obtain ⟨f, hf, hboth⟩ := List.any_eq_true.1 h
        obtain ⟨hfinal, hactive⟩ := Bool.and_eq_true_iff.1 hboth
        exact .compound hkind hf hfinal (List.contains_iff_mem.1 hactive)
      · next hkind => exact .parallel hkind fun c hc => ih (List.all_eq_true.1 h c hc)
      · cases h
      · cases h

theorem Due.compound (h : s.Due past p) (hkind : (s.arena.state p).kind = .compound) :
    s.arena.Complete s.active p := by
  cases h with
  | child _ hchild hfinal hactive => exact .compound hkind hchild hfinal hactive
  | regions hparallel _ => cases hkind.symm.trans hparallel

theorem Due.parallel (h : s.Due past p)
    (hchildren : ∀ i ∈ (s.arena.state p).children, (s.arena.state i).isFinal = false) :
    ∀ i ∈ (s.arena.state p).children, s.arena.Complete s.active i := by
  cases h with
  | child _ hchild hfinal _ => cases (hchildren _ hchild).symm.trans hfinal
  | regions _ hregions => exact hregions

/-! ## Every event is due -/

theorem vouched_append :
    s.Vouched past (ops ++ later) ↔
      s.Vouched past ops ∧ (s.performAll ops).Vouched (past ++ ops) later := by
  induction ops generalizing s past with
  | nil =>
      rw [List.append_nil]
      exact (and_iff_right trivial).symm
  | cons op rest ih =>
      rw [List.cons_append, Vouched, Vouched, ih, and_assoc, List.append_assoc]
      rfl

theorem vouched_cons (hop : op.completes? = none)
    (h : (s.perform op).Vouched (past ++ [op]) later) : s.Vouched past (op :: later) := by
  refine ⟨fun p hp => ?_, h⟩
  cases hop.symm.trans hp

theorem vouched_of_forall (h : ∀ op ∈ ops, op.completes? = none) : s.Vouched past ops := by
  induction ops generalizing s past with
  | nil => trivial
  | cons op rest ih =>
      obtain ⟨hop, hrest⟩ := List.forall_mem_cons.1 h
      exact vouched_cons hop (ih hrest)

theorem Vouched.due {before after : List Operation}
    (h : s.Vouched past (before ++ .complete p :: after)) :
    (s.performAll before).Due (past ++ before) p :=
  (vouched_append.1 h).2.1 p rfl

theorem vouched_concluding {f : Nat} (hparent : f ∈ (s.arena.state parent).children)
    (hfinal : (s.arena.state f).isFinal = true) (hactive : f ∈ s.active) :
    s.Vouched (past ++ [.arrive f, .run (.onEntry f)]) (s.concluding parent) := by
  have hdue : s.Due (past ++ [.arrive f, .run (.onEntry f)]) parent :=
    .child rfl hparent hfinal hactive
  have hfirst : ∀ q, (Operation.complete parent).completes? = some q →
      s.Due (past ++ [.arrive f, .run (.onEntry f)]) q := by
    rintro q ⟨⟩
    exact hdue
  unfold concluding
  split
  · exact vouched_cons rfl trivial
  split
  · exact ⟨hfirst, trivial⟩
  · next around _ =>
    dsimp only
    split
    · next hregions =>
      obtain ⟨hparallel, hall⟩ := Bool.and_eq_true_iff.1 hregions
      refine ⟨hfirst, ?_, trivial⟩
      -- completing the parent has changed neither the arena nor the active states
      rintro q ⟨⟩
      exact .regions (eq_of_beq hparallel) fun i hi =>
        complete_of_isCompleteUpTo (List.all_eq_true.1 hall i hi)
    · exact ⟨hfirst, trivial⟩

theorem vouched_entering (h : s.arena.WellFormed) (i : Nat) : s.Vouched past (s.entering i) := by
  have hcontent : s.Vouched past [.arrive i, .run (.onEntry i)] :=
    vouched_cons rfl (vouched_cons rfl trivial)
  have hsame : SameStates (s.perform (.arrive i)) (s.performAll [.arrive i, .run (.onEntry i)]) :=
    sameStates_runContent _ _ _
  have harena : (s.performAll [.arrive i, .run (.onEntry i)]).arena = s.arena :=
    hsame.toSameRun.arena
  have hactive : i ∈ (s.performAll [.arrive i, .run (.onEntry i)]).active := by
    rw [hsame.active]
    exact StateSet.mem_insert.2 (.inl rfl)
  unfold entering
  split
  · trivial
  dsimp only
  split
  · next hfinal =>
    split
    · exact hcontent
    · next parent hparent =>
      refine vouched_append.2 ⟨hcontent, vouched_concluding ?_ (harena ▸ hfinal) hactive⟩
      rw [harena]
      exact (h.mem_children_iff parent i).2 hparent
  · exact hcontent

theorem vouched_enteringAll (h : s.arena.WellFormed) (states : StateSet) :
    s.Vouched past (s.enteringAll states) := by
  induction states generalizing s past with
  | nil => trivial
  | cons i rest ih =>
      have harena : (s.enter i).arena = s.arena := (sameStates_enter i).toSameRun.arena
      rw [enteringAll, vouched_append, performAll_entering]
      exact ⟨vouched_entering h i, ih (harena ▸ h)⟩

theorem vouched_stepping (h : s.arena.WellFormed) (ts : List TransitionRef) :
    s.Vouched past (s.stepping ts) := by
  have harena : (s.leaveAll ts).arena = s.arena := (sameStates_leaveAll ts).toSameRun.arena
  rw [stepping, ← List.cons_append, vouched_append, performAll_leaving]
  refine ⟨vouched_cons rfl (vouched_of_forall ?_), vouched_enteringAll (harena ▸ h) _⟩
  refine List.forall_mem_append.2 ⟨?_, ?_⟩
  · refine List.forall_mem_flatMap.2 fun i _ => ?_
    exact List.forall_mem_cons.2 ⟨rfl, List.forall_mem_singleton.2 rfl⟩
  · exact List.forall_mem_flatMap.2 fun t _ => List.forall_mem_singleton.2 rfl

theorem vouched_looking (event : Option Event) : s.Vouched past (s.looking event) := by
  refine vouched_of_forall fun op hop => ?_
  have hlooking := isLooking_looking event op hop
  cases op with
  | complete i => exact hlooking.elim
  | _ => rfl

theorem Advance.vouched (h : Advance s ops r) (hwf : s.arena.WellFormed) :
    s.Vouched past ops := by
  cases h with
  | dequeue _ _ _ => exact vouched_cons rfl trivial
  | select event _ _ => exact vouched_looking event
  | step event _ _ _ =>
      have harena : (s.select event).2.arena = s.arena :=
        (sameView_select event).toSameRun.arena
      rw [vouched_append, performAll_looking]
      exact ⟨vouched_looking event, vouched_stepping (harena ▸ hwf) _⟩
  | restore v _ _ => exact vouched_cons rfl trivial

theorem Advances.vouched (h : Advances s ops r) (hwf : s.arena.WellFormed) :
    s.Vouched past ops := by
  induction h with
  | refl => trivial
  | tail hbefore hmove ih =>
      have harena := (Moves.sameChart hbefore.moves).arena
      rw [vouched_append, hbefore.performAll]
      exact ⟨ih, hmove.vouched (harena ▸ hwf)⟩

theorem Opening.vouched {q : Session} (h : Opening s c ops q) (hwf : s.arena.WellFormed) :
    s.Vouched past ops := by
  cases h with
  | start _ => exact vouched_cons rfl (vouched_enteringAll (s := s.perform .begin) hwf _)
  | submit event _ => exact vouched_cons rfl trivial

theorem Course.vouched (h : Course s c ops result) (hwf : s.arena.WellFormed) :
    s.Vouched past ops := by
  cases h with
  | refused _ => trivial
  | ignored event _ => exact vouched_cons rfl trivial
  | worked hopening hadvances _ =>
      have harena := hopening.move.sameChart.arena
      rw [vouched_append, hopening.performAll]
      exact ⟨hopening.vouched hwf, hadvances.vouched (harena ▸ hwf)⟩

/-- Whenever a completion event is raised, it is due.  So a compound state is complete
then, and so is a parallel state, unless it has a final child. -/
theorem completion_is_due (h : s.Held) (c : Call) :
    ∃ ops, Course s c ops (s.call c) ∧
      ∀ before p after, ops = before ++ .complete p :: after →
        let r := s.performAll before
        (r.perform (.complete p)).internal =
            r.internal ++ [.completion (r.arena.state p).id] ∧
          r.Due before p ∧
          ((r.arena.state p).kind = .compound → r.arena.Complete r.active p) ∧
          ((∀ i ∈ (r.arena.state p).children, (r.arena.state i).isFinal = false) →
            ∀ i ∈ (r.arena.state p).children, r.arena.Complete r.active i) := by
  obtain ⟨ops, hcourse⟩ := exists_course h.atRest c
  refine ⟨ops, hcourse, fun before p after hops => ?_⟩
  have hvouched : s.Vouched [] ops := hcourse.vouched h.atRest.coherent.wellFormed
  rw [hops] at hvouched
  have hdue : (s.performAll before).Due before p := hvouched.due
  exact ⟨rfl, hdue, hdue.compound, hdue.parallel⟩

/-- What stands at some place of a start that is not refused. -/
theorem Course.exists_split (h : Course s .start ops (s.call .start))
    (hs : s.phase = .uninitialized) {k : Nat}
    (hk : s.beginning[k]?.bind Operation.completes? = some p) :
    ∃ after, ops = s.beginning.take k ++ .complete p :: after := by
  have hbeginning : ∃ later, ops = s.beginning ++ later := by
    have hstarted : (s.call .start).2.phase ≠ .uninitialized := started_start
    generalize s.call .start = result at h hstarted
    cases h with
    | refused _ => exact absurd hs hstarted
    | worked hopening _ _ =>
        cases hopening with
        | start _ => exact ⟨_, rfl⟩
  obtain ⟨later, rfl⟩ := hbeginning
  obtain ⟨op, hop, hp⟩ := Option.bind_eq_some_iff.1 hk
  obtain ⟨hlt, hget⟩ := List.getElem?_eq_some_iff.1 hop
  obtain rfl : op = .complete p := by
    cases op <;> first | exact congrArg _ (Option.some.inj hp) | cases hp
  refine ⟨s.beginning.drop (k + 1) ++ later, ?_⟩
  rw [← hget, ← List.cons_append, List.getElem_cons_drop, ← List.append_assoc,
    List.take_append_drop]

/-- Two regions whose initial states are final. -/
def joined : Document where
  states :=
    [.state { id := "both", isParallel := true }
      [.state { id := "left" } [.state { id := "l", isFinal := true } []],
       .state { id := "right" } [.state { id := "r", isFinal := true } []]]]

/-- The model of `joined`. -/
def joinedModel : Model := (Model.build joined .empty).toOption.getD default

theorem build_joined : Model.build joined .empty = .ok joinedModel := rfl

/-- The event for the parallel state comes last, and both regions are complete then. -/
theorem completion_is_due_joined :
    let s := ofModel joinedModel {} .standard
    s.Held ∧ ∃ before after, Course s .start (before ++ .complete 1 :: after) (s.call .start) ∧
      joinedModel.arena.Complete (s.performAll before).active 2 ∧
      joinedModel.arena.Complete (s.performAll before).active 4 := by
  intro s
  have hheld : s.Held := .fresh build_joined _ _
  have hlast : s.beginning[13]?.bind Operation.completes? = some 1 := by decide +kernel
  have hchildren : (joinedModel.arena.state 1).children = [2, 4] := rfl
  have hinner : ∀ i ∈ [2, 4], (joinedModel.arena.state i).isFinal = false := by decide +kernel
  obtain ⟨ops, hcourse, hdue⟩ := completion_is_due hheld .start
  obtain ⟨after, rfl⟩ := hcourse.exists_split rfl hlast
  have hregions := (hdue _ 1 after rfl).2.2.2
  have harena : (s.performAll (s.beginning.take 13)).arena = joinedModel.arena :=
    sameChart_performAll.arena
  rw [harena, hchildren] at hregions
  have hcomplete := hregions hinner
  exact ⟨hheld, _, _, hcourse, hcomplete 2 (by decide), hcomplete 4 (by decide)⟩

/-- A parallel state with a final state as one of its two regions. -/
def hasty : Document where
  states :=
    [.state
      { id := "p"
        isParallel := true
        transitions := [{ event := some "done.state.p", target := some "q" }] }
      [.state { id := "f", isFinal := true } [],
       .state { id := "r" } [.state { id := "r1" } [], .state { id := "r2", isFinal := true } []]],
     .state { id := "q" } []]

/-- The model of `hasty`. -/
def hastyModel : Model := (Model.build hasty .empty).toOption.getD default

theorem build_hasty : Model.build hasty .empty = .ok hastyModel := rfl

/-- The completion event of `p` is raised before its region `r` is even entered, and `p`
is left for it, though `r` never was complete. -/
theorem completion_before_regions :
    let s := ofModel hastyModel {} .standard
    s.Held ∧ (hastyModel.arena.state 1).kind = .parallel ∧
      3 ∈ (hastyModel.arena.state 1).children ∧
      (∃ before after, Course s .start (before ++ .complete 1 :: after) (s.call .start) ∧
        ¬ hastyModel.arena.Complete (s.performAll before).active 3) ∧
      (s.call .start).2.active = [6] := by
  intro s
  have hheld : s.Held := .fresh build_hasty _ _
  have hfirst : s.beginning[5]?.bind Operation.completes? = some 1 := by decide +kernel
  have hactive : (s.performAll (s.beginning.take 5)).active = [1, 2] := by decide +kernel
  have hchildren : (hastyModel.arena.state 3).children = [4, 5] := rfl
  have hkind : (hastyModel.arena.state 3).kind = .compound := rfl
  have hopen : ¬ hastyModel.arena.Complete [1, 2] 3 := by
    intro hcomplete
    cases hcomplete with
    | @compound _ f _ hchild _ hf =>
        rw [hchildren] at hchild
        have hapart : ∀ f ∈ [4, 5], f ∉ [1, 2] := by decide
        exact hapart f hchild hf
    | parallel hparallel _ => cases hkind.symm.trans hparallel
    | final hfinal _ =>
        rw [StateNode.isFinal, hkind] at hfinal
        cases hfinal
  obtain ⟨ops, hcourse⟩ := exists_course hheld.atRest .start
  obtain ⟨after, rfl⟩ := hcourse.exists_split rfl hfirst
  exact ⟨hheld, rfl, by decide +kernel, ⟨_, after, hcourse, hactive ▸ hopen⟩, by decide +kernel⟩

end Session
end Statechart
