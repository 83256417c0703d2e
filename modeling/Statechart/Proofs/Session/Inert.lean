import Statechart.Proofs.Session.Stability
import Statechart.Proofs.Session.Unread

/-!
# Events that enable nothing

An event is inert in a running session if no transition of an active leaf or of a
state around it reacts to it: either its pattern does not cover the event, or its
guard answers no.  A guard that fails does not count as an answer.

Such an event is evaluated and forgotten again (`submit_of_inert`).  What it leaves
behind is an entry in the journal, and an empty list of guards that failed, which
the next call would forget anyway.  So inert events can be put in between the
calls of a host, or left out, and no other call is answered in another way
(`inert_events`).
-/

namespace Statechart
namespace Session

/-- No transition reacts to an event. -/
structure Inert (s : Session) (event : Event) : Prop where
  running : s.phase = .running
  declared : s.data.isDeclared DataModel.eventVariable = true
  /-- The guards are evaluated while the event is bound. -/
  guards : ∀ leaf ∈ s.leaves, ∀ i, s.arena.Within leaf i →
    ∀ t ∈ (s.arena.state i).transitions, ∀ pattern, t.event = some pattern →
      pattern.covers event.name = true → ∃ cond, t.cond = some cond ∧
        s.evaluate.holds cond (s.data.declare DataModel.eventVariable event.toValue) = .ok false

/-- What a host gets to see of a call. -/
structure Answer where
  error : Option ExecutionError
  status : Status
  data : DataModel
  reports : ReportLog
  output : List Output

/-- What a host gets to see of a result. -/
def Result.answer (result : Result) : Answer where
  error := result.1
  status := result.2.status
  data := result.2.data
  reports := result.2.reports
  output := result.2.output

/-- A call of a host, or an event that is put in between. -/
inductive Entry where
  | proper (c : Call)
  | extra (event : Event)

/-- Holds of the calls proper. -/
def Entry.isProper : Entry → Bool
  | proper _ => true
  | extra _ => false

/-- The answers to the calls proper, in a run with all entries. -/
def answers (s : Session) : List Entry → List Answer
  | [] => []
  | .proper c :: rest => Result.answer (s.call c) :: (s.call c).2.answers rest
  | .extra event :: rest => (s.submit event).2.answers rest

/-- All events that are put in between are inert when their turn comes. -/
def ExtrasAreInert (s : Session) : List Entry → Prop
  | [] => True
  | .proper c :: rest => (s.call c).2.ExtrasAreInert rest
  | .extra event :: rest => s.Inert event ∧ (s.submit event).2.ExtrasAreInert rest

variable {s r : Session} {event : Event}

/-! ## One inert event -/

/-- A transition that fits but has a guard that answers no. -/
def Declines (s : Session) (event : Option Event) (t : Transition) : Prop :=
  t.fits event = true → ∃ cond, t.cond = some cond ∧ s.evaluate.holds cond s.data = .ok false

theorem chooseAt_of_declines {event : Option Event} {ts : List Transition}
    (h : ∀ t ∈ ts, s.Declines event t) (source position : Nat) :
    s.chooseAt event source position ts = (none, s) := by
  induction ts generalizing position with
  | nil => rfl
  | cons t rest ih =>
      obtain ⟨ht, hrest⟩ := List.forall_mem_cons.1 h
      rw [chooseAt]
      split
      · next hfits =>
        obtain ⟨cond, hcond, hholds⟩ := ht hfits
        have hguard : s.guardHolds ⟨source, position⟩ t.cond = (false, s) := by
          rw [hcond, guardHolds, hholds]
        rw [hguard]
        exact ih hrest (position + 1)
      · exact ih hrest (position + 1)

theorem chooseAlong_of_declines {event : Option Event} {path : List Nat}
    (h : ∀ i ∈ path, ∀ t ∈ (s.arena.state i).transitions, s.Declines event t) :
    s.chooseAlong event path = (none, s) := by
  induction path with
  | nil => rfl
  | cons i rest ih =>
      obtain ⟨hi, hrest⟩ := List.forall_mem_cons.1 h
      rw [chooseAlong, chooseAt_of_declines hi]
      exact ih hrest

theorem chooseAll_of_declines {event : Option Event} {leaves : List Nat}
    (h : ∀ leaf ∈ leaves, ∀ i, s.arena.Within leaf i →
      ∀ t ∈ (s.arena.state i).transitions, s.Declines event t) (chosen : List TransitionRef) :
    s.chooseAll event chosen leaves = (chosen, s) := by
  induction leaves with
  | nil => rfl
  | cons leaf rest ih =>
      obtain ⟨hleaf, hrest⟩ := List.forall_mem_cons.1 h
      have halong : s.chooseAlong event (leaf :: s.arena.ancestors leaf) = (none, s) := by
        refine chooseAlong_of_declines fun i hi => hleaf i ?_
        exact (List.mem_cons.1 hi).imp Eq.symm id
      rw [chooseAll, halong]
      exact ih hrest

theorem selectFor_of_inert (h : s.Inert event) :
    s.selectFor event = ([], (s.receive event).note (.selected (some event) [])) := by
  have hall : (s.receive event).chooseAll (some event) [] (s.receive event).leaves =
      ([], s.receive event) := by
    refine chooseAll_of_declines (fun leaf hleaf i hi t ht hfits => ?_) []
    have hcovers : ∃ pattern, t.event = some pattern ∧ pattern.covers event.name = true := by
      unfold Transition.fits at hfits
      cases hpattern : t.event with
      | none =>
          rw [hpattern] at hfits
          cases hfits
      | some pattern =>
          rw [hpattern] at hfits
          exact ⟨pattern, rfl, hfits⟩
    obtain ⟨pattern, hpattern, hcovers⟩ := hcovers
    exact h.guards leaf hleaf i hi t ht pattern hpattern hcovers
  rw [selectFor, select, hall]
  rfl

theorem isIdle_of_inert (hrest : AtRest s) (h : s.Inert event) : s.isIdle event = true := by
  have hpending : s.pending = none := hrest.pending
  have hinternal : s.internal = [] := hrest.waiting .internal
  rw [isIdle, selectFor_of_inert h]
  show (([] : List TransitionRef).isEmpty && s.pending.isNone && s.internal.isEmpty) = true
  rw [hpending, hinternal]
  rfl

/-- The binding of the event is taken back again. -/
theorem forget_of_inert (h : s.Inert event) :
    s.forget event =
      { s with
        failedGuards := []
        journal := .selected (some event) [] :: s.journal } := by
  have hdata := DataModel.declare_restore h.declared event.toValue
  rw [forget, selectFor_of_inert h]
  exact congrArg (fun data : DataModel => ({ s with
    data := data
    failedGuards := []
    journal := .selected (some event) [] :: s.journal } : Session)) hdata

/-- A session after an inert event: only the engine's own notes differ. -/
theorem submit_of_inert (hrest : AtRest s) (h : s.Inert event) :
    s.submit event =
      (none, { s with
        failedGuards := []
        journal := .selected (some event) [] :: s.journal }) := by
  have hopen : ¬ (s.forget event).isFinalConfiguration = true := by
    have hfinal : (s.forget event).isFinalConfiguration = s.isFinalConfiguration := by
      rw [forget_of_inert h]
      rfl
    rw [hfinal, hrest.not_complete h.running]
    exact Bool.false_ne_true
  rw [submit_of_running h.running, process_eq, if_pos (isIdle_of_inert hrest h), checkFinal,
    if_neg hopen, forget_of_inert h]

/-! ## Inert events in a run -/

theorem answer_congr {a b : Result} (herror : a.1 = b.1) (hhide : a.2.hide = b.2.hide) :
    Result.answer a = Result.answer b := by
  have hhidden (result : Result) :
      Result.answer result = Result.answer (result.1, result.2.hide) := rfl
  rw [hhidden a, hhidden b, herror, hhide]

theorem answers_filter {script : List Entry} (hs : s.Held) (hlike : s.hide = r.hide)
    (h : s.ExtrasAreInert script) :
    s.answers script = r.answers (script.filter Entry.isProper) := by
  induction script generalizing s r with
  | nil => rfl
  | cons entry rest ih =>
      cases entry with
      | proper c =>
          obtain ⟨herror, hhide⟩ := call_congr hlike c
          show Result.answer (s.call c) :: (s.call c).2.answers rest =
            Result.answer (r.call c) :: (r.call c).2.answers (rest.filter Entry.isProper)
          rw [answer_congr herror hhide, ih (hs.call c) hhide h]
      | extra event =>
          have hsubmit := submit_of_inert hs.atRest h.1
          have hhide : (s.submit event).2.hide = r.hide := by
            rw [hsubmit]
            exact hlike
          exact ih (hs.call (.submit event)) hhide h.2

/-- An inert event changes nothing that a host can see, and with inert events in
between all other calls are answered as they are without them. -/
theorem inert_events (hs : s.Held) :
    (∀ event, s.Inert event →
      (s.submit event).1 = none ∧
        (s.submit event).2.status = s.status ∧
        (s.submit event).2.data = s.data ∧
        (∀ queue, (s.submit event).2.waiting queue = s.waiting queue) ∧
        (s.submit event).2.reports = s.reports ∧
        (s.submit event).2.completion = s.completion) ∧
      ∀ script, s.ExtrasAreInert script →
        s.answers script = s.answers (script.filter Entry.isProper) := by
  refine ⟨fun event h => ?_, fun script h => answers_filter hs rfl h⟩
  rw [submit_of_inert hs.atRest h]
  refine ⟨rfl, rfl, rfl, fun queue => ?_, rfl, rfl⟩
  cases queue <;> rfl

/-- The transition for `go` fits `go.later` as well, but its guard answers no. -/
theorem inert_greeter : ((ofModel greeterModel {} .standard).after [.start]).Inert
    (.plain "go.later") where
  running := by decide +kernel
  declared := by decide +kernel
  guards := by
    have harena : ((ofModel greeterModel {} .standard).after [.start]).arena =
        greeterModel.arena := (Moves.sameChart (moves_after [.start])).arena
    have hleaves : ((ofModel greeterModel {} .standard).after [.start]).leaves = [1] := by
      decide +kernel
    intro leaf hleaf i hi t ht pattern hpattern hcovers
    rw [hleaves, List.mem_singleton] at hleaf
    subst hleaf
    rw [harena] at hi ht
    have hpath : i = 1 ∨ i = 0 := by
      have hancestors : greeterModel.arena.ancestors 1 = [0] := by decide +kernel
      have hi : 1 = i ∨ i ∈ greeterModel.arena.ancestors 1 := hi
      rw [hancestors, List.mem_singleton] at hi
      exact hi.imp Eq.symm id
    rcases hpath with rfl | rfl
    · have htransitions : (greeterModel.arena.state 1).transitions =
          [greeterModel.arena.transition ⟨1, 0⟩, greeterModel.arena.transition ⟨1, 1⟩] := rfl
      rw [htransitions, List.mem_cons, List.mem_singleton] at ht
      rcases ht with rfl | rfl
      · cases hpattern
      · exact ⟨"_event.name == 'go'", rfl, by decide +kernel⟩
    · cases ht

theorem inert_events_greeter :
    let s := (ofModel greeterModel {} .standard).after [.start]
    let script := [Entry.extra (.plain "go.later"), .proper (.submit (.plain "go"))]
    s.Held ∧ s.Inert (.plain "go.later") ∧ s.ExtrasAreInert script ∧
      (s.submit (.plain "go.later")).2.data = s.data ∧
      s.answers script = s.answers [.proper (.submit (.plain "go"))] := by
  intro s script
  have hheld : s.Held := (Held.fresh build_greeter {} .standard).after [.start]
  have hextras : s.ExtrasAreInert script := ⟨inert_greeter, trivial⟩
  obtain ⟨hsubmit, hanswers⟩ := inert_events hheld
  exact ⟨hheld, inert_greeter, hextras, (hsubmit _ inert_greeter).2.2.1, hanswers script hextras⟩

end Session
end Statechart
