import Statechart.Proofs.Arena.Depiction
import Statechart.Proofs.Session.Course

/-!
# When a session is final

The engine decides by one flag and by the active states whether a chart is
complete.  The flag is set when a top-level final state is entered, and it is
never taken back.  That does no harm: such a state is active alone
(`Legal.eq_singleton`), and it has no transitions, so it is never left
(`Moves.crowned`).

So between calls the phase tells exactly whether the configuration is final, also
after a macrostep was aborted or the session was halted (`final_iff_after`).
-/

namespace Statechart

open Arena (root)

/-- A final state that stands in no other state. -/
structure Arena.IsTopFinal (arena : Arena) (f : Nat) : Prop where
  isFinal : (arena.state f).isFinal = true
  parent : arena.Parent f root

theorem StateNode.isLeaf_of_isFinal {node : StateNode} (h : node.isFinal = true) :
    node.isLeaf = true := by
  rw [isFinal] at h
  rw [isLeaf, h, Bool.or_true]

/-- A leaf at the top is active alone. -/
theorem Legal.eq_singleton {arena : Arena} {active : StateSet} {f : Nat} (hw : arena.WellFormed)
    (h : Legal arena active) (hsorted : active.Pairwise (· < ·)) (hf : f ∈ active)
    (hleaf : (arena.state f).isLeaf) (hparent : arena.Parent f root) : active = [f] := by
  have hfroot : f ∈ (arena.state root).children := (hw.mem_children_iff root f).2 hparent
  have hall : ∀ x ∈ active, x = f := by
    intro x hx
    obtain ⟨p, hp, -⟩ := h.parent x hx
    have h0 : root < x := Nat.lt_of_le_of_lt (Nat.zero_le p) (hw.parent_lt x p hp)
    obtain ⟨c, hc, hxc⟩ := hw.exists_child_within (hw.below_root h0 (Arena.lt_size_of_parent hp))
    have hcactive : c ∈ active := (on_child_iff hw hc).1 (h.on_of_within hw (.inr hx) hxc)
    obtain rfl : c = f := h.top.unique ⟨hc, hcactive⟩ ⟨hfroot, hf⟩
    rcases hxc with rfl | hbelow
    · rfl
    · obtain ⟨d, hd, -⟩ := hw.exists_child_within hbelow
      rw [(hw.isLeaf_iff c).1 hleaf] at hd
      exact absurd hd List.not_mem_nil
  match active, hsorted, hf, hall with
  | [x], _, _, hall => rw [hall x (List.mem_singleton_self x)]
  | x :: y :: rest, hsorted, _, hall =>
      have hlt : x < y := (List.pairwise_cons.1 hsorted).1 y List.mem_cons_self
      rw [hall x List.mem_cons_self, hall y (List.mem_cons_of_mem x List.mem_cons_self)] at hlt
      exact absurd hlt (Nat.lt_irrefl f)

namespace Session

/-- Final states have no transitions. -/
def FinalsEnd (arena : Arena) : Prop :=
  ∀ i, (arena.state i).isFinal = true → (arena.state i).transitions = []

/-- While the flag is set, a top-level final state is active, and nothing else. -/
def Crowned (s : Session) : Prop :=
  s.isTopFinal = true → ∃ f, s.active = [f] ∧ s.arena.IsTopFinal f

variable {s r : Session}

/-! ## The flag -/

@[simp] theorem isTopFinal_absorb (outcome : Outcome) :
    (s.absorb outcome).isTopFinal = s.isTopFinal := by
  rw [absorb_eq]

theorem isTopFinal_fail (message : String) (error : ExecutionError) :
    (s.fail message error).isTopFinal = s.isTopFinal := by
  unfold fail
  split <;> rfl

theorem isTopFinal_runContent (block : Block) (state : Nat) (actions : List Action) :
    (s.runContent block state actions).isTopFinal = s.isTopFinal := by
  unfold runContent
  split
  · rfl
  dsimp only
  split
  · rfl
  split
  · rw [isTopFinal_absorb]
    rfl
  · rw [isTopFinal_fail]
    exact isTopFinal_absorb (s := s.note (.ran block s.active)) _

theorem isTopFinal_enteredFinal {parent : Nat} (hparent : parent ≠ root) :
    (s.enteredFinal parent).isTopFinal = s.isTopFinal := by
  unfold enteredFinal
  rw [if_neg hparent]
  dsimp only
  split
  · rfl
  · split <;> rfl

/-- The flag is set by entering a top-level final state only. -/
theorem isTopFinal_enter {i : Nat} (h : (s.enter i).isTopFinal = true) :
    s.isTopFinal = true ∨ s.arena.IsTopFinal i := by
  unfold enter at h
  split at h
  · exact .inl h
  dsimp only at h
  have hcontent : (({ s with active := s.active.insert i }.note (.entered i)).runContent
      (.onEntry i) i (s.arena.state i).onEntry).isTopFinal = s.isTopFinal :=
    isTopFinal_runContent _ _ _
  split at h
  · next hfinal =>
    split at h
    · exact .inl (hcontent.symm.trans h)
    · next parent hparent =>
      by_cases hroot : parent = root
      · exact .inr ⟨hfinal, hroot ▸ hparent⟩
      · rw [isTopFinal_enteredFinal hroot] at h
        exact .inl (hcontent.symm.trans h)
  · exact .inl (hcontent.symm.trans h)

theorem isTopFinal_enterAll {states : StateSet} (h : (s.enterAll states).isTopFinal = true) :
    s.isTopFinal = true ∨ ∃ f ∈ states, s.arena.IsTopFinal f := by
  induction states generalizing s with
  | nil => exact .inl h
  | cons i rest ih =>
      have harena : (s.enter i).arena = s.arena := (sameStates_enter i).toSameRun.arena
      rcases ih h with hflag | ⟨f, hf, htop⟩
      · exact (isTopFinal_enter hflag).imp_right fun htop => ⟨i, List.mem_cons_self, htop⟩
      · exact .inr ⟨f, List.mem_cons_of_mem i hf, harena ▸ htop⟩

theorem isTopFinal_leaveAll (ts : List TransitionRef) :
    (s.leaveAll ts).isTopFinal = s.isTopFinal := by
  have hfold : ∀ {α : Type} (step : Session → α → Session) (items : List α) (s : Session),
      (∀ s item, (step s item).isTopFinal = s.isTopFinal) →
        (items.foldl step s).isTopFinal = s.isTopFinal := by
    intro α step items
    induction items with
    | nil => exact fun _ _ => rfl
    | cons item rest ih => exact fun s hstep => (ih (step s item) hstep).trans (hstep s item)
  rw [leaveAll, hfold act ts _ fun s t => isTopFinal_runContent _ _ _]
  exact hfold exit _ _ fun s i => isTopFinal_runContent _ _ _

theorem isTopFinal_microstep {ts : List TransitionRef}
    (h : (s.microstep ts).isTopFinal = true) :
    s.isTopFinal = true ∨ ∃ f ∈ (s.microstep ts).active, s.arena.IsTopFinal f := by
  have harena : (s.leaveAll ts).arena = s.arena := (sameStates_leaveAll ts).toSameRun.arena
  rw [microstep_eq] at h
  rcases isTopFinal_enterAll h with hflag | ⟨f, hf, htop⟩
  · exact .inl (isTopFinal_leaveAll ts ▸ hflag)
  · refine .inr ⟨f, ?_, harena ▸ htop⟩
    rw [active_microstep]
    exact Arena.mem_nextActive_iff.2 (.inr hf)

/-! ## A top-level final state is never left -/

/-- Where a top-level final state is active, nothing is selected. -/
theorem select_of_crowned (h : Coherent s) (hends : FinalsEnd s.arena) {f : Nat}
    (hactive : s.active = [f]) (hfinal : (s.arena.state f).isFinal = true)
    (event : Option Event) : (s.select event).1 = [] := by
  have hts := h.takeable_select event
  refine List.eq_nil_iff_forall_not_mem.2 fun t ht => ?_
  have hsource : t.source = f := by
    have hmem := hts.source_active t ht
    rwa [hactive, List.mem_singleton] at hmem
  have hposition := hts.hasTransition t ht
  rw [Arena.HasTransition, hsource, hends f hfinal] at hposition
  exact absurd hposition (Nat.not_lt_zero t.position)

theorem active_microstep_nil : (s.microstep []).active = s.active := by
  rw [active_microstep]
  simp [Arena.nextActive, Arena.entrySet, Arena.exitSets]

/-- In a started session a top-level final state is active alone. -/
theorem Coherent.active_eq_of_isTopFinal (h : Coherent s) (hs : s.phase ≠ .uninitialized) {f : Nat}
    (hf : f ∈ s.active) (htop : s.arena.IsTopFinal f) : s.active = [f] :=
  (h.legal hs).eq_singleton h.wellFormed h.sorted hf (StateNode.isLeaf_of_isFinal htop.isFinal)
    htop.parent

theorem Crowned.begin (h : Coherent s) (hs : s.phase = .uninitialized) (hcrowned : Crowned s) :
    Crowned s.begun := by
  intro hflag
  have hmove := Move.begin hs
  have harena : s.begun.arena = s.arena := hmove.sameChart.arena
  rcases isTopFinal_enterAll hflag with hflag | ⟨f, hf, htop⟩
  · -- before the start nothing is active
    obtain ⟨f, hactive, -⟩ := hcrowned hflag
    rw [h.idle hs] at hactive
    cases hactive
  · have htop : s.begun.arena.IsTopFinal f := harena ▸ htop
    have hactive : s.begun.active = s.arena.initialStates.foldl StateSet.enter s.active :=
      sameStates_begun.active
    have hmem : f ∈ s.begun.active := hactive ▸ StateSet.mem_foldl_enter.2 (.inr hf)
    exact ⟨f, (h.begin hs).active_eq_of_isTopFinal hmove.started hmem htop, htop⟩

theorem Crowned.step (h : Coherent s) (hs : s.phase = .running) (hends : FinalsEnd s.arena)
    (hcrowned : Crowned s) (event : Option Event) :
    Crowned ((s.select event).2.microstep (s.select event).1) := by
  intro hflag
  have hmove := Move.step event hs
  have hview := sameView_select (s := s) event
  have harena := hmove.sameChart.arena
  rcases isTopFinal_microstep hflag with hflag | ⟨f, hf, htop⟩
  · rw [isTopFinal_select] at hflag
    obtain ⟨f, hactive, htop⟩ := hcrowned hflag
    refine ⟨f, ?_, harena ▸ htop⟩
    rw [select_of_crowned h hends hactive htop.isFinal event, active_microstep_nil, hview.active,
      hactive]
  · rw [hview.toSameRun.arena, ← harena] at htop
    exact ⟨f, (h.step hs event).active_eq_of_isTopFinal hmove.started hf htop, htop⟩

theorem Crowned.of_eq (hcrowned : Crowned s) (harena : r.arena = s.arena)
    (hactive : r.active = s.active) (hflag : r.isTopFinal = s.isTopFinal) : Crowned r := by
  unfold Crowned
  rw [harena, hactive, hflag]
  exact hcrowned

theorem Move.crowned (hmove : Move s r) (h : Coherent s) (hends : FinalsEnd s.arena)
    (hcrowned : Crowned s) : Crowned r := by
  cases hmove with
  | begin hs => exact hcrowned.begin h hs
  | receive event hs => exact hcrowned.of_eq rfl rfl rfl
  | @dequeue r event hs hdequeue =>
      have hsame := (sameStates_dequeue hdequeue).trans (sameStates_setEvent event)
      have hflag : r.isTopFinal = s.isTopFinal := isTopFinal_dequeue hdequeue
      exact hcrowned.of_eq hsame.toSameRun.arena hsame.active hflag
  | select event hs =>
      have hview := sameView_select (s := s) event
      exact hcrowned.of_eq hview.toSameRun.arena hview.active (isTopFinal_select event)
  | step event hs => exact hcrowned.step h hs hends event
  | restore v hs => exact hcrowned.of_eq rfl rfl rfl
  | abort hs => exact hcrowned.of_eq rfl rfl rfl
  | halt hs => exact hcrowned.of_eq rfl rfl rfl
  | finish hs hfinal => exact hcrowned.of_eq rfl rfl rfl
  | ignore event hs => exact hcrowned.of_eq rfl rfl rfl

theorem Moves.crowned (hmoves : Moves s r) (h : Coherent s) (hends : FinalsEnd s.arena)
    (hcrowned : Crowned s) : Crowned r := by
  induction hmoves with
  | refl => exact hcrowned
  | tail hmoves hmove ih =>
      have harena := (Moves.sameChart hmoves).arena
      exact hmove.crowned (Moves.coherent hmoves h) (harena ▸ hends) ih

/-! ## Between calls -/

/-- A top-level final state is active, or all active leaves are final and no active
state has a transition. -/
def IsFinished (s : Session) : Prop :=
  (∃ f ∈ s.active, s.arena.IsTopFinal f) ∨
    ∀ i ∈ s.active, ((s.arena.state i).isLeaf → (s.arena.state i).isFinal) ∧
      (s.arena.state i).transitions = []

theorem Held.finalsEnd (h : Held s) : FinalsEnd s.arena := by
  induction h with
  | fresh hbuild _ _ => exact fun i => Model.transitions_of_isFinal hbuild
  | @call s c _ ih =>
      have harena : (s.call c).2.arena = s.arena := (Moves.sameChart (moves_call c)).arena
      exact harena ▸ ih
  | withConfig _ _ ih => exact ih
  | withEvaluator _ _ ih => exact ih
  | withHook _ ih => exact ih
  | takeReports _ ih => exact ih
  | takeOutput _ ih => exact ih

theorem Held.crowned (h : Held s) : Crowned s := by
  induction h with
  | fresh _ _ _ => exact fun hflag => Bool.noConfusion hflag
  | call c h ih => exact Moves.crowned (moves_call c) h.atRest.coherent h.finalsEnd ih
  | withConfig _ _ ih => exact ih
  | withEvaluator _ _ ih => exact ih
  | withHook _ ih => exact ih
  | takeReports _ ih => exact ih
  | takeOutput _ ih => exact ih

/-- What the engine tests is that the configuration is final. -/
theorem isFinalConfiguration_iff (h : Coherent s) (hs : s.phase ≠ .uninitialized)
    (hends : FinalsEnd s.arena) (hcrowned : Crowned s) :
    s.isFinalConfiguration = true ↔ s.IsFinished := by
  have hall : (s.active.all fun i =>
      (!(s.arena.state i).isLeaf || (s.arena.state i).isFinal) &&
        (s.arena.state i).transitions.isEmpty) = true ↔
      ∀ i ∈ s.active, ((s.arena.state i).isLeaf → (s.arena.state i).isFinal) ∧
        (s.arena.state i).transitions = [] := by
    simp [List.all_eq_true, Bool.or_eq_true, Bool.and_eq_true, imp_iff_not_or]
  unfold isFinalConfiguration IsFinished
  rw [Bool.or_eq_true, Bool.and_eq_true, hall]
  constructor
  · rintro (hflag | ⟨-, hfinal⟩)
    · obtain ⟨f, hactive, htop⟩ := hcrowned hflag
      exact .inl ⟨f, hactive ▸ List.mem_singleton_self f, htop⟩
    · exact .inr hfinal
  · -- a configuration is never empty, so the test for that can be left out
    obtain ⟨l, hl, -⟩ := (h.legal hs).exists_active_leaf h.wellFormed (.inl rfl)
    have hne : (!s.active.isEmpty) = true := by
      cases hactive : s.active with
      | nil => rw [hactive] at hl; cases hl
      | cons _ _ => rfl
    rintro (⟨f, hf, htop⟩ | hfinal)
    · refine .inr ⟨hne, fun i hi => ?_⟩
      rw [h.active_eq_of_isTopFinal hs hf htop, List.mem_singleton] at hi
      subst hi
      exact ⟨fun _ => htop.isFinal, hends i htop.isFinal⟩
    · exact .inr ⟨hne, hfinal⟩

/-- After any calls among which the chart was started, however they ended, the
session is final exactly if its configuration is finished.  If the flag is set,
the only active state is a top-level final one. -/
theorem final_iff_after (h : s.Held) {calls : List Call} (hstart : .start ∈ calls) :
    let r := s.after calls
    (r.phase = .final ↔ r.IsFinished) ∧
      (r.isTopFinal = true → ∃ f, r.active = [f] ∧ r.arena.IsTopFinal f) := by
  intro r
  have hr : r.Held := h.after calls
  have hstarted : r.phase ≠ .uninitialized := started_after hstart
  refine ⟨?_, hr.crowned⟩
  rw [hr.atRest.final_iff hstarted]
  exact isFinalConfiguration_iff hr.atRest.coherent hstarted hr.finalsEnd hr.crowned

/-- A chart that ends in a state whose entry fails. -/
def mishap : Document where
  states :=
    [.state { id := "work", transitions := [{ event := some "go", target := some "done" }] } [],
     .state { id := "done", isFinal := true, onEntry := [.log none (some "missing")] } []]

/-- The model of `mishap`. -/
def mishapModel : Model := (Model.build mishap .empty).toOption.getD default

theorem build_mishap : Model.build mishap .empty = .ok mishapModel := rfl

/-- The macrostep is aborted, and the session is final nevertheless. -/
theorem final_iff_after_mishap :
    let s := ofModel mishapModel { policy := .abort } .standard
    let go := Call.submit (.plain "go")
    s.Held ∧ Call.start ∈ [.start, go] ∧
      ((s.after [.start]).call go).1 = some (.expression (.undefined "missing")) ∧
      (s.after [.start]).phase = .running ∧ (s.after [.start, go]).phase = .final := by
  intro s go
  have hheld : s.Held := .fresh build_mishap _ _
  have hstart : Call.start ∈ [.start, go] := List.mem_cons_self
  have harena : (s.after [.start, go]).arena = mishapModel.arena :=
    (Moves.sameChart (moves_after [.start, go])).arena
  have htop : mishapModel.arena.IsTopFinal 2 := ⟨rfl, rfl⟩
  have hfinal : (s.after [.start, go]).phase = .final :=
    (final_iff_after hheld hstart).1.2 (.inl ⟨2, by decide +kernel, harena ▸ htop⟩)
  exact ⟨hheld, hstart, by decide +kernel, by decide +kernel, hfinal⟩

end Session
end Statechart
