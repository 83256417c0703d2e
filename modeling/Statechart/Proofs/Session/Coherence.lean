import Statechart.Proofs.Selection.Conflict
import Statechart.Proofs.Session.Run

/-!
# Coherent sessions

The invariant of runs: the active states stand in document order, there are none
before the start, and after it they are a legal configuration.  Every move keeps
it (`Move.coherent`), so all reachable sessions have it.

Three consequences are drawn.

* After every sequence of calls in which `start` occurs the configuration is
  legal (`legal_after_calls`).
* What is selected in a reachable session is the only resolution of the
  conflicts among the chosen transitions (`select_unique_kernel`).
* Taking it has the structural effect that the transitions describe, whatever
  content does (`microstep_effect`).

Whether a macrostep ends well plays no part here.
-/

namespace Statechart
namespace Session

open Arena (root)

/-- The active states fit the phase. -/
structure Coherent (s : Session) : Prop where
  wellFormed : s.arena.WellFormed
  sorted : s.active.Pairwise (· < ·)
  idle : s.phase = .uninitialized → s.active = []
  legal : s.phase ≠ .uninitialized → Legal s.arena s.active

variable {s r : Session}

theorem SameChart.arena (h : SameChart s r) : r.arena = s.arena := congrArg Model.arena h.model

/-- What does not touch the active states of a started session is harmless. -/
theorem Coherent.of_active_eq (h : Coherent s) (hmove : Move s r)
    (hs : s.phase ≠ .uninitialized) (hactive : r.active = s.active) : Coherent r := by
  have harena := hmove.sameChart.arena
  refine ⟨harena ▸ h.wellFormed, hactive ▸ h.sorted, fun hr => absurd hr hmove.started, ?_⟩
  intro _
  rw [harena, hactive]
  exact h.legal hs

/-- A session is coherent once the initial states are entered. -/
theorem Coherent.begin (h : Coherent s) (hs : s.phase = .uninitialized) : Coherent s.begun := by
  have hmove := Move.begin hs
  have harena : s.begun.arena = s.arena := hmove.sameChart.arena
  have hactive : s.begun.active = s.arena.initialStates.foldl StateSet.enter s.active :=
    sameStates_begun.active
  have hidle : s.active = [] := h.idle hs
  refine ⟨harena ▸ h.wellFormed, ?_, fun hr => absurd hr hmove.started, fun _ => ?_⟩
  · rw [hactive]
    exact StateSet.pairwise_foldl_enter h.sorted
  · rw [harena]
    refine legal_of_fill_root h.wellFormed fun x => ?_
    rw [hactive, StateSet.mem_foldl_enter, hidle, mem_initialStates_iff h.wellFormed]
    exact or_iff_right List.not_mem_nil

/-- A microstep with selected transitions leads to a legal configuration. -/
theorem Coherent.step (h : Coherent s) (hs : s.phase = .running) (event : Option Event) :
    Coherent ((s.select event).2.microstep (s.select event).1) := by
  have hmove := Move.step event hs
  have harena := hmove.sameChart.arena
  have hview := sameView_select (s := s) event
  have hlegal : Legal s.arena s.active := h.legal (started_of_running hs)
  have hactive : ((s.select event).2.microstep (s.select event).1).active =
      s.arena.nextActive s.active (s.select event).1 := by
    rw [active_microstep, hview.toSameRun.arena, hview.active]
  refine ⟨harena ▸ h.wellFormed, ?_, fun hr => absurd hr hmove.started, fun _ => ?_⟩
  · rw [hactive]
    exact Arena.pairwise_nextActive h.sorted
  · rw [harena, hactive]
    exact legal_after h.wellFormed hlegal (takeable_select h.wellFormed hlegal h.sorted event)
      fun i => Arena.mem_nextActive_iff

theorem Move.coherent (hmove : Move s r) (h : Coherent s) : Coherent r := by
  -- only beginning and taking transitions touch the active states
  cases hmove with
  | begin hs => exact h.begin hs
  | receive event hs => exact h.of_active_eq (.receive event hs) (started_of_running hs) rfl
  | dequeue hs hdequeue =>
      exact h.of_active_eq (.dequeue hs hdequeue) (started_of_running hs)
        ((sameStates_dequeue hdequeue).trans (sameStates_setEvent _)).active
  | select event hs =>
      exact h.of_active_eq (.select event hs) (started_of_running hs) (sameView_select event).active
  | step event hs => exact h.step hs event
  | restore v hs => exact h.of_active_eq (.restore v hs) (started_of_running hs) rfl
  | abort hs => exact h.of_active_eq (.abort hs) (started_of_running hs) rfl
  | halt hs => exact h.of_active_eq (.halt hs) (started_of_running hs) rfl
  | finish hs hfinal => exact h.of_active_eq (.finish hs hfinal) (started_of_running hs) rfl
  | ignore event hs =>
      have hstarted : s.phase ≠ .uninitialized := by
        rw [hs]
        exact Phase.noConfusion
      exact h.of_active_eq (.ignore event hs) hstarted rfl

theorem Moves.coherent (hmoves : Moves s r) (h : Coherent s) : Coherent r := by
  induction hmoves with
  | refl => exact h
  | tail _ hmove ih => exact hmove.coherent ih

theorem coherent_ofModel {doc : Document} {registry : Registry} {model : Model}
    (hbuild : Model.build doc registry = .ok model) (config : Config) (evaluate : Evaluator) :
    Coherent (ofModel model config evaluate) where
  wellFormed := Model.wellFormed_of_build hbuild
  sorted := List.Pairwise.nil
  idle _ := rfl
  legal h := absurd rfl h

theorem Coherent.withHost (h : Coherent s) (config : Config) (evaluate : Evaluator)
    (reports : ReportLog) (output : List Output) :
    Coherent (s.withHost config evaluate reports output) :=
  ⟨h.wellFormed, h.sorted, h.idle, h.legal⟩

theorem Reachable.coherent (h : s.Reachable) : Coherent s := by
  induction h with
  | fresh hbuild config evaluate => exact coherent_ofModel hbuild config evaluate
  | move _ hmove ih => exact hmove.coherent ih
  | withHost config evaluate reports output _ ih => exact ih.withHost config evaluate reports output

/-- The model of a reachable session was built. -/
theorem Reachable.exists_build (h : s.Reachable) :
    ∃ doc registry, Model.build doc registry = .ok s.model := by
  induction h with
  | fresh hbuild _ _ => exact ⟨_, _, hbuild⟩
  | move _ hmove ih =>
      rw [(Moves.sameChart (.single hmove)).model]
      exact ih
  | withHost _ _ _ _ _ ih => exact ih

theorem Reachable.moves (h : s.Reachable) (hmoves : Moves s r) : r.Reachable := by
  induction hmoves with
  | refl => exact h
  | tail _ hmove ih => exact .move ih hmove

/-- Calls lead from reachable sessions to reachable sessions. -/
theorem Reachable.after (h : s.Reachable) (calls : List Call) : (s.after calls).Reachable :=
  h.moves (moves_after calls)

/-! ## Configurations after calls -/

theorem started_after {calls : List Call} (h : .start ∈ calls) :
    (s.after calls).phase ≠ .uninitialized := by
  obtain ⟨before, rest, rfl⟩ := List.append_of_mem h
  have hsplit : s.after (before ++ .start :: rest) = ((s.after before).start.2).after rest := by
    rw [after, List.foldl_append]
    rfl
  rw [hsplit]
  exact Moves.started (moves_after rest) started_start

/-- What the status of a started session shows as its leaves. -/
theorem leaves_status (hs : s.phase ≠ .uninitialized) (h : Coherent s) :
    s.status.leaves = (s.active.filter fun i =>
      (s.arena.state i).children.all fun c => !s.active.contains c).map
        fun i => (s.arena.state i).id := by
  unfold status
  rw [if_neg hs]
  show (s.active.filter fun i => (s.arena.state i).isLeaf).map _ = _
  congr 1
  refine List.filter_congr fun i hi => ?_
  have hleaf := (h.legal hs).isLeaf_iff_no_active_child h.wellFormed hi
  rw [Bool.eq_iff_iff, hleaf]
  simp

/-- After every sequence of calls in which `start` occurs the configuration is
legal, and the status shows the states without active children in document
order.  Calls that fail count as well. -/
theorem legal_after_calls {doc : Document} {registry : Registry} {model : Model}
    (hbuild : Model.build doc registry = .ok model) (config : Config) (evaluate : Evaluator)
    {calls : List Call} (hstart : .start ∈ calls) :
    let s := (ofModel model config evaluate).after calls
    Legal model.arena s.active ∧
      s.active.Pairwise (· < ·) ∧
      s.status.leaves ≠ [] ∧
      s.status.leaves = (s.active.filter fun i =>
        (model.arena.state i).children.all fun c => !s.active.contains c).map
          fun i => (model.arena.state i).id := by
  intro s
  have hmoves : Moves (ofModel model config evaluate) s := moves_after calls
  have harena : s.arena = model.arena := (Moves.sameChart hmoves).arena
  have hcoherent : Coherent s := Moves.coherent hmoves (coherent_ofModel hbuild config evaluate)
  have hphase : s.phase ≠ .uninitialized := started_after hstart
  have hlegal : Legal s.arena s.active := hcoherent.legal hphase
  have hleaves := leaves_status hphase hcoherent
  rw [← harena]
  refine ⟨hlegal, hcoherent.sorted, ?_, hleaves⟩
  obtain ⟨l, hl, hleaf, -⟩ := hlegal.exists_active_leaf hcoherent.wellFormed (.inl rfl)
  have hnone := (hlegal.isLeaf_iff_no_active_child hcoherent.wellFormed hl).1 hleaf
  rw [hleaves]
  refine List.ne_nil_of_mem (List.mem_map_of_mem (List.mem_filter.2 ⟨hl, ?_⟩))
  simpa using hnone

/-- Two regions side by side, whose transitions for `go` get in each other's way. -/
def twoRegions : Document where
  states := [.state { id := "both", isParallel := true }
    [.state { id := "left", transitions := [{ event := some "go", target := some "up" }] }
      [.state { id := "down" } [], .state { id := "up" } []],
     .state { id := "right", transitions := [{ event := some "go", target := some "down" }] }
      [.state { id := "off" } [], .state { id := "on" } []]]]

/-- The model of `twoRegions`. -/
def twoRegionsModel : Model := (Model.build twoRegions .empty).toOption.getD default

theorem build_twoRegions : Model.build twoRegions .empty = .ok twoRegionsModel := rfl

theorem legal_after_calls_twoRegions :
    Model.build twoRegions .empty = .ok twoRegionsModel ∧
      Call.start ∈ [.submit (.plain "early"), .start, .submit (.plain "go")] ∧
      Legal twoRegionsModel.arena ((ofModel twoRegionsModel {} .standard).after
        [.submit (.plain "early"), .start, .submit (.plain "go")]).active := by
  have hstart : Call.start ∈ [.submit (.plain "early"), .start, .submit (.plain "go")] :=
    List.mem_cons_of_mem _ List.mem_cons_self
  exact ⟨build_twoRegions, hstart,
    (legal_after_calls build_twoRegions {} .standard hstart).1⟩

/-- Calls on a fresh session of a built model lead to a reachable one. -/
theorem reachable_after_build {doc : Document} {registry : Registry} {model : Model}
    (hbuild : Model.build doc registry = .ok model) (config : Config) (evaluate : Evaluator)
    (calls : List Call) : ((ofModel model config evaluate).after calls).Reachable :=
  Reachable.after (.fresh hbuild config evaluate) calls

/-! ## Selection -/

/-- Without active states nothing is chosen and nothing is selected. -/
theorem select_of_active_eq_nil (h : s.active = []) (event : Option Event) :
    (s.select event).1 = [] ∧ ∀ t, ¬ s.Chosen event t := by
  have hleaves : s.leaves = [] := by simp [leaves, h]
  constructor
  · simp [select, hleaves, chooseAll, Arena.withoutConflicts, Arena.keep, Arena.inOrder]
  · rintro t ⟨leaf, hleaf, -⟩
    rw [h] at hleaf
    exact List.not_mem_nil hleaf

theorem Coherent.select_spec (h : Coherent s) (event : Option Event) :
    (s.select event).1.Pairwise InDocumentOrder ∧
      IsKernel s.arena s.active (s.Chosen event) (· ∈ (s.select event).1) := by
  by_cases hs : s.phase = .uninitialized
  · obtain ⟨hnil, hnone⟩ := select_of_active_eq_nil (h.idle hs) event
    rw [hnil]
    exact ⟨.nil, fun t ht => absurd ht List.not_mem_nil,
      fun t _ ht => absurd ht List.not_mem_nil, fun t ht => absurd ht (hnone t)⟩
  · exact Session.select_spec h.wellFormed (h.legal hs) h.sorted event

theorem Coherent.takeable_select (h : Coherent s) (event : Option Event) :
    Takeable s.arena s.active (s.select event).1 := by
  by_cases hs : s.phase = .uninitialized
  · -- before the start there is no configuration yet, and nothing to take
    rw [(select_of_active_eq_nil (h.idle hs) event).1]
    exact ⟨fun t ht => absurd ht List.not_mem_nil, fun t ht => absurd ht List.not_mem_nil, .nil⟩
  · exact Session.takeable_select h.wellFormed (h.legal hs) h.sorted event

/-- In a reachable session the one and only resolution of the conflicts among
the chosen transitions is selected, in document order. -/
theorem select_unique_kernel (h : s.Reachable) (event : Option Event) :
    (s.select event).1.Pairwise InDocumentOrder ∧
      IsKernel s.arena s.active (s.Chosen event) (· ∈ (s.select event).1) ∧
      ∀ kept, IsKernel s.arena s.active (s.Chosen event) kept →
        ∀ t, kept t ↔ t ∈ (s.select event).1 := by
  obtain ⟨horder, hkernel⟩ := h.coherent.select_spec event
  refine ⟨horder, hkernel, fun kept hkept t => ?_⟩
  exact hkept.unique h.coherent.wellFormed hkernel t

/-- Both regions choose a transition, and the first one is selected. -/
theorem select_unique_kernel_twoRegions :
    let s := (ofModel twoRegionsModel {} .standard).after [.start]
    s.Reachable ∧
      (s.chooseAll (some (.plain "go")) [] s.leaves).1 = [⟨2, 0⟩, ⟨5, 0⟩] ∧
      (s.select (some (.plain "go"))).1 = [⟨2, 0⟩] ∧
      IsKernel s.arena s.active (s.Chosen (some (.plain "go")))
        (· ∈ (s.select (some (.plain "go"))).1) := by
  intro s
  have hreachable : s.Reachable := reachable_after_build build_twoRegions _ _ _
  exact ⟨hreachable, by decide +kernel, by decide +kernel,
    (select_unique_kernel hreachable _).2.1⟩

/-! ## Microsteps -/

/-- The structural effect of taking transitions in a session. -/
structure Effect (s : Session) (ts : List TransitionRef) : Prop where
  /-- What is left are the active proper descendants of the domains. -/
  exits : ∀ x, x ∈ s.arena.exitSets s.active ts ↔
    x ∈ s.active ∧ ∃ t ∈ ts, ∃ d, s.arena.domain? t = some d ∧ s.arena.Below x d
  active : ∀ x, x ∈ (s.microstep ts).active ↔
    (x ∈ s.active ∧ x ∉ s.arena.exitSets s.active ts) ∨ x ∈ s.arena.entrySet ts
  fresh : ∀ x ∈ s.arena.entrySet ts, ¬ (x ∈ s.active ∧ x ∉ s.arena.exitSets s.active ts)
  /-- When the turn of a state comes to be entered, it is not active. -/
  entered : ∀ before i rest, s.arena.entrySet ts = before ++ i :: rest →
    i ∉ ((s.leaveAll ts).enterAll before).active ∧
      s.microstep ts = (((s.leaveAll ts).enterAll before).enter i).enterAll rest
  target : ∀ t ∈ ts, ∀ g, (s.arena.transition t).target = some g →
    g ∈ (s.microstep ts).active
  /-- Data, failures, the policy and content have no influence. -/
  independent : ∀ r : Session, r.arena.skeleton = s.arena.skeleton → r.active = s.active →
    (r.microstep ts).active = (s.microstep ts).active

theorem effect_of_takeable {ts : List TransitionRef} (hw : s.arena.WellFormed)
    (hts : Takeable s.arena s.active ts) : Effect s ts where
  exits _ := mem_exitSets_iff
  active x := by
    rw [active_microstep]
    exact Arena.mem_nextActive_iff
  fresh x hx h := h.2 (mem_exitSets_of_mem_entrySet hw hts hx h.1)
  entered before i rest hsplit := by
    have hsorted : (before ++ i :: rest).Pairwise (· < ·) := hsplit ▸ pairwise_entrySet ts
    have hmem : i ∈ s.arena.entrySet ts := hsplit ▸ List.mem_append_right _ List.mem_cons_self
    constructor
    · -- `i` was left before, and the states in front of it are smaller
      rw [(sameStates_enterAll before).active]
      show ¬ i ∈ before.foldl StateSet.enter (s.leaveAll ts).active
      rw [StateSet.mem_foldl_enter, mem_active_leaveAll]
      rintro (⟨hactive, hkept⟩ | hbefore)
      · exact hkept (mem_exitSets_of_mem_entrySet hw hts hmem hactive)
      · have hlt := (List.pairwise_append.1 hsorted).2.2 i hbefore i List.mem_cons_self
        exact Nat.lt_irrefl i hlt
    · rw [microstep_eq, hsplit, enterAll, List.foldl_append, List.foldl_cons]
      rfl
  target t ht g hg := by
    rw [active_microstep, Arena.mem_nextActive_iff]
    exact .inr (target_mem_entrySet hw hts ht hg)
  independent r hskeleton hactive := active_microstep_congr ts hskeleton hactive

/-- Selecting leaves the configuration of a reachable session alone, and taking
what was selected has its structural effect on it. -/
theorem microstep_effect (h : s.Reachable) (event : Option Event) :
    (s.select event).2.active = s.active ∧
      Effect (s.select event).2 (s.select event).1 := by
  have hview := sameView_select (s := s) event
  refine ⟨hview.active, effect_of_takeable ?_ ?_⟩
  · rw [hview.toSameRun.arena]
    exact h.coherent.wellFormed
  · rw [hview.toSameRun.arena, hview.active]
    exact h.coherent.takeable_select event

/-- The transition that is selected leaves both regions and enters them again. -/
theorem microstep_effect_twoRegions :
    let s := (ofModel twoRegionsModel {} .standard).after [.start]
    let ts := (s.select (some (.plain "go"))).1
    s.Reachable ∧ s.arena.exitSets s.active ts = [1, 2, 3, 5, 6] ∧
      s.arena.entrySet ts = [1, 2, 4, 5, 6] ∧ Effect (s.select (some (.plain "go"))).2 ts := by
  intro s ts
  have hreachable : s.Reachable := reachable_after_build build_twoRegions _ _ _
  exact ⟨hreachable, by decide +kernel, by decide +kernel,
    (microstep_effect hreachable _).2⟩

end Session
end Statechart
