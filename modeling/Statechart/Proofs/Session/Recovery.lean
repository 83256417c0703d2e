import Statechart.Proofs.Session.Course

/-!
# After an aborted macrostep

An aborted macrostep ends after the microstep in which the failure happened.  It
leaves a session that goes on running, with empty queues, and possibly with
transitions enabled that need no event.

The next event settles such a session if anything comes of it.  If nothing comes
of it the loop is not entered, and what was enabled before is still enabled
(`quiet_submit_iff`).  So a call that succeeds need not settle a session after
one that failed (`not_quiet_after_abort`).
-/

namespace Statechart
namespace Session

variable {s : Session}

theorem quiet_process_iff (event : Event) (h : Coherent s)
    (hevent : s.data.isDeclared DataModel.eventVariable) (hs : s.phase = .running)
    (hok : (s.process event).1 = none) (hrunning : (s.process event).2.phase = .running) :
    (s.process event).2.Quiet ↔ s.Quiet ∨ s.isIdle event = false := by
  cases hidle : s.isIdle event with
  | false =>
      have hsettled := settled_process_of_not_idle event h hs hidle hok hrunning
      exact ⟨fun _ => .inr rfl, fun _ => hsettled.quiet⟩
  | true =>
      have hview := sameView_forget event hevent
      rw [process_of_idle event hidle hrunning]
      constructor
      · exact fun hquiet => .inl (hview.symm.quiet hquiet)
      · rintro (hquiet | hbusy)
        · exact hview.quiet hquiet
        · cases hbusy

/-- In whatever session a host holds, also after an aborted call, the next event that succeeds
leaves no transition without an event enabled exactly if none was enabled before or something
comes of the event.  The variable of the event has to be declared. -/
theorem quiet_submit_iff (h : s.Held) (hevent : s.data.isDeclared DataModel.eventVariable)
    (event : Event) (hs : s.phase = .running) (hok : (s.submit event).1 = none)
    (hrunning : (s.submit event).2.phase = .running) :
    (s.submit event).2.Quiet ↔ s.Quiet ∨ s.isIdle event = false := by
  have hsubmit : s.submit event = s.process event := by
    unfold submit
    rw [hs]
  rw [hsubmit] at hok hrunning ⊢
  exact quiet_process_iff event h.atRest.coherent hevent hs hok hrunning

/-- A state whose entry fails, and which would be left at once. -/
def stalled : Document where
  states :=
    [.state
      { id := "a"
        onEntry := [.log none (some "missing")]
        transitions := [{ target := some "b" }, { event := some "go" }] } [],
     .state { id := "b" } []]

/-- The model of `stalled`. -/
def stalledModel : Model := (Model.build stalled .empty).toOption.getD default

theorem build_stalled : Model.build stalled .empty = .ok stalledModel := rfl

/-- Something comes of `go`, and the session recovers. -/
theorem quiet_submit_iff_stalled :
    let s := (ofModel stalledModel { policy := .abort } .standard).after [.start]
    s.Held ∧ s.data.isDeclared DataModel.eventVariable ∧ s.phase = .running ∧
      (s.submit (.plain "go")).1 = none ∧
      (s.submit (.plain "go")).2.phase = .running ∧ s.isIdle (.plain "go") = false ∧
      (s.submit (.plain "go")).2.Quiet := by
  intro s
  have hheld : s.Held := (Held.fresh build_stalled _ _).after [.start]
  have hevent : s.data.isDeclared DataModel.eventVariable := by decide +kernel
  have hs : s.phase = .running := by decide +kernel
  have hok : (s.submit (.plain "go")).1 = none := by decide +kernel
  have hrunning : (s.submit (.plain "go")).2.phase = .running := by decide +kernel
  have hbusy : s.isIdle (.plain "go") = false := by decide +kernel
  exact ⟨hheld, hevent, hs, hok, hrunning, hbusy,
    (quiet_submit_iff hheld hevent (.plain "go") hs hok hrunning).2 (.inr hbusy)⟩

/-- Nothing comes of `poke`.  It succeeds after the aborted start, and a
transition that needs no event stays enabled. -/
theorem not_quiet_after_abort :
    let s := ofModel stalledModel { policy := .abort } .standard
    let r := (s.call .start).2
    r.Held ∧ r.data.isDeclared DataModel.eventVariable ∧
      (s.call .start).1 = some (.expression (.undefined "missing")) ∧
      r.phase = .running ∧ (r.submit (.plain "poke")).1 = none ∧
      (r.submit (.plain "poke")).2.phase = .running ∧ ¬ (r.submit (.plain "poke")).2.Quiet := by
  intro s r
  have hheld : r.Held := .call .start (.fresh build_stalled _ _)
  refine ⟨hheld, by decide +kernel, by decide +kernel, by decide +kernel, by decide +kernel,
    by decide +kernel, fun hquiet => ?_⟩
  have hmoves : Moves s (r.submit (.plain "poke")).2 :=
    (moves_call .start).trans (moves_submit (.plain "poke"))
  have harena : (r.submit (.plain "poke")).2.arena = stalledModel.arena :=
    (Moves.sameChart hmoves).arena
  have hactive : (r.submit (.plain "poke")).2.active = [1] := by decide +kernel
  have htransition : (stalledModel.arena.state 1).transitions[0]? =
      some (stalledModel.arena.transition ⟨1, 0⟩) := rfl
  -- the first transition of `a` has neither an event nor a guard
  refine hquiet 1 ?_ (stalledModel.arena.transition ⟨1, 0⟩) ?_ rfl trivial
  · rw [hactive]
    exact List.mem_singleton_self 1
  · rw [harena]
    exact List.mem_of_getElem? htransition

end Session
end Statechart
