import Statechart.Proofs.Session.Abort
import Statechart.Proofs.Session.Rounds

/-!
# The life of a session

A session is started once.  It runs until its chart is complete or until it is
halted, and from then on no call moves it (`still_after`).

Two things have to be kept apart at the end of a call: a failure ends the macrostep
but leaves the session running, and exceeding the bound halts it.  What is pending
is always a failure (`FailsOnly`), so the rounds of a call never halt the session
themselves (`live_iterate_next`).  A call exceeds the bound exactly if its rounds
outnumber it (`exceeds_iff`), and then the session is halted (`halts_iff`).
-/

namespace Statechart

/-- The phases that a call can lead to. -/
inductive Phase.Leads : Phase → Phase → Prop where
  | stay (p : Phase) : Leads p p
  | begin {p : Phase} : p ≠ .uninitialized → Leads .uninitialized p
  | work {p : Phase} : p ≠ .uninitialized → Leads .running p

namespace Session

/-- Nothing but a failure is pending. -/
def FailsOnly (s : Session) : Prop := ∀ error, s.pending = some error → error.IsFailure

/-- The macrostep is under way, or it is over without having been halted. -/
def Round.Live : Round → Prop
  | .over result => result.2.phase ≠ .halted ∧ ∀ limit, result.1 ≠ some (.microstepLimit limit)
  | .take _ s => s.phase = .running ∧ FailsOnly s

/-- Nothing that a later call could build on has changed. -/
structure Still (s r : Session) : Prop where
  phase : r.phase = s.phase
  active : r.active = s.active
  data : r.data = s.data
  completion : r.completion = s.completion
  waiting : ∀ queue, r.waiting queue = s.waiting queue

variable {s r q : Session} {c : Call} {op : Operation} {ops : List Operation} {round : Round}
  {error : ExecutionError}

/-! ## What can be pending -/

theorem FailsOnly.of_none (h : s.pending = none) : FailsOnly s := by
  intro error herror
  cases h.symm.trans herror

theorem FailsOnly.of_eq (h : FailsOnly s) (heq : r.pending = s.pending) : FailsOnly r :=
  fun error herror => h error (heq.symm.trans herror)

theorem FailsOnly.perform (h : FailsOnly s) : FailsOnly (s.perform op) := by
  rcases s.pending_perform_or op with hsame | ⟨fault, hfault, hpending⟩
  · exact h.of_eq hsame
  · intro error herror
    obtain rfl := Option.some.inj (hpending.symm.trans herror)
    exact isFailure_of_fault? hfault

theorem FailsOnly.performAll (h : FailsOnly s) : FailsOnly (s.performAll ops) := by
  induction ops generalizing s with
  | nil => exact h
  | cons op rest ih => exact ih h.perform

theorem FailsOnly.select (h : FailsOnly s) (event : Option Event) :
    FailsOnly (s.select event).2 := by
  rw [← performAll_looking]
  exact h.performAll

theorem FailsOnly.takeAll (h : FailsOnly s) (ts : List TransitionRef) :
    FailsOnly (s.takeAll ts) := by
  unfold Session.takeAll
  split
  · exact h
  · rw [← performAll_stepping]
    exact h.performAll

theorem FailsOnly.begun (h : FailsOnly s) : FailsOnly s.begun := by
  rw [← performAll_beginning]
  exact h.performAll

/-! ## Rounds do not halt a session -/

theorem live_checkFinal (hs : s.phase ≠ .halted) : Round.Live (.over (none, s.checkFinal)) := by
  refine ⟨?_, fun limit hlimit => by cases hlimit⟩
  show s.checkFinal.phase ≠ .halted
  unfold checkFinal
  split
  · exact Phase.noConfusion
  · exact hs

theorem live_abort (hs : s.phase = .running) (hfails : FailsOnly s)
    (hpending : s.pending = some error) : Round.Live (.over (s.abort error)) := by
  have hcleared : { s with pending := none }.clearQueues.phase ≠ .halted := by
    show s.phase ≠ .halted
    rw [hs]
    exact Phase.noConfusion
  refine ⟨(live_checkFinal hcleared).1, fun limit hlimit => ?_⟩
  obtain rfl := Option.some.inj hlimit
  exact hfails _ hpending

theorem live_round (hs : s.phase = .running) (hfails : FailsOnly s) : s.round.Live := by
  have hrunning : s.phase ≠ .halted := hs ▸ Phase.noConfusion
  have hphase : (s.select none).2.phase = .running := (sameView_select none).running hs
  have hnext {event : Event} {q : Session}
      (hdequeue : (s.select none).2.dequeue = some (event, q)) :
      ((q.setEvent event).select (some event)).2.phase = .running ∧
        FailsOnly ((q.setEvent event).select (some event)).2 := by
    refine ⟨(sameView_select (some event)).running ((sameStates_dequeue hdequeue).running hphase),
      FailsOnly.select ?_ (some event)⟩
    exact (hfails.select none).of_eq (pending_setEvent_dequeue hdequeue)
  have hfound := s.found_round
  generalize s.round = round at hfound ⊢
  cases hfound with
  | complete _ => exact live_checkFinal hrunning
  | failed _ herror => exact live_abort hphase (hfails.select none) herror
  | enabled _ _ _ => exact ⟨hphase, hfails.select none⟩
  | settled _ _ _ _ => exact ⟨hphase ▸ Phase.noConfusion, fun limit hlimit => by cases hlimit⟩
  | failedFor _ _ _ hdequeue herror =>
      exact live_abort (hnext hdequeue).1 (hnext hdequeue).2 herror
  | enabledFor _ _ _ hdequeue _ => exact hnext hdequeue

theorem Round.Live.next (h : round.Live) : round.next.Live := by
  rcases round with result | ⟨ts, s⟩
  · exact h
  · have hphase : (s.takeAll ts).phase = .running := (sameRun_takeAll ts).running h.1
    unfold Round.next
    dsimp only
    split
    · next error herror => exact live_abort hphase (h.2.takeAll ts) herror
    · exact live_round hphase (h.2.takeAll ts)

theorem live_leading (hs : s.phase = .running) (hfails : FailsOnly s)
    (first : List TransitionRef) : (s.leading first).Live := by
  unfold leading
  split
  · next error herror => exact live_abort hs hfails herror
  · split
    · exact live_round hs hfails
    · exact ⟨hs, hfails⟩

theorem live_firstRound (hs : s.phase ≠ .halted) (hfails : FailsOnly s) (c : Call) :
    (s.firstRound c).Live := by
  have hselected (event : Event) (hrunning : s.phase = .running) :
      (s.selectFor event).2.phase = .running :=
    (sameView_select (s := s.receive event) (some event)).running hrunning
  have hbegins := s.begins_firstRound c
  generalize s.firstRound c = round at hbegins ⊢
  cases hbegins with
  | start _ => exact live_leading sameStates_begun.phase hfails.begun []
  | started _ => exact ⟨hs, fun limit hlimit => by cases hlimit⟩
  | unstarted _ _ => exact ⟨hs, fun limit hlimit => by cases hlimit⟩
  | halted _ hhalted => exact absurd hhalted hs
  | ignored _ _ => exact ⟨hs, fun limit hlimit => by cases hlimit⟩
  | idle event hrunning _ =>
      refine live_checkFinal ?_
      show (s.selectFor event).2.phase ≠ .halted
      rw [hselected event hrunning]
      exact Phase.noConfusion
  | process event hrunning _ =>
      have hreceived : FailsOnly (s.receive event) := hfails.of_eq rfl
      exact live_leading (hselected event hrunning) (hreceived.select (some event)) _

theorem live_iterate_next (h : round.Live) (n : Nat) : (Round.next^[n] round).Live := by
  induction n with
  | zero => exact h
  | succ n ih =>
      rw [Function.iterate_succ_apply']
      exact ih.next

theorem firstRound_of_halted (hs : s.phase = .halted) (c : Call) :
    ∃ error, s.firstRound c = .over (some error, s) ∧ ∀ limit, error ≠ .microstepLimit limit := by
  have hbegins := s.begins_firstRound c
  generalize s.firstRound c = round at hbegins ⊢
  cases hbegins with
  | started _ => exact ⟨.alreadyStarted, rfl, fun limit hlimit => by cases hlimit⟩
  | halted _ _ => exact ⟨.halted, rfl, fun limit hlimit => by cases hlimit⟩
  | start hphase => cases hs.symm.trans hphase
  | unstarted _ hphase => cases hs.symm.trans hphase
  | ignored _ hphase => cases hs.symm.trans hphase
  | idle _ hphase _ => cases hs.symm.trans hphase
  | process _ hphase _ => cases hs.symm.trans hphase

/-- A call exceeds the bound exactly if its rounds outnumber it. -/
theorem exceeds_iff (hfails : FailsOnly s) (c : Call) (limit : Nat) :
    (s.call c).1 = some (.microstepLimit limit) ↔
      limit = s.config.maxMicrosteps ∧
        ∃ ts r, Round.next^[s.config.maxMicrosteps] (s.firstRound c) = .take ts r := by
  have hover : ∀ result, Round.next^[s.config.maxMicrosteps] (s.firstRound c) = .over result →
      result.1 ≠ some (.microstepLimit limit) := by
    intro result hresult
    by_cases hs : s.phase = .halted
    · obtain ⟨error, hround, hnot⟩ := firstRound_of_halted hs c
      rw [hround, Round.iterate_next_over] at hresult
      cases hresult
      exact fun hlimit => hnot limit (Option.some.inj hlimit)
    · have hlive := live_iterate_next (live_firstRound hs hfails c) s.config.maxMicrosteps
      rw [hresult] at hlive
      exact hlive.2 limit
  rw [call_eq_cut]
  rcases (s.firstRound c).cut_cases s.config.maxMicrosteps with hround | ⟨ts, r, hround, hhalt⟩
  · refine ⟨fun hlimit => absurd hlimit (hover _ hround), ?_⟩
    rintro ⟨-, ts, r, htake⟩
    cases hround.symm.trans htake
  · have hconfig := s.config_iterate_next c s.config.maxMicrosteps
    rw [hround] at hconfig
    have hbound : r.config.maxMicrosteps = s.config.maxMicrosteps :=
      congrArg Config.maxMicrosteps hconfig
    rw [hhalt, ← hbound]
    constructor
    · intro hlimit
      refine ⟨(ExecutionError.microstepLimit.inj (Option.some.inj hlimit)).symm, ts, r, ?_⟩
      rw [hbound, hround]
    · rintro ⟨rfl, -⟩
      rfl

/-- Exceeding the bound is the only way to be halted. -/
theorem halts_iff (hfails : FailsOnly s) (c : Call) :
    (s.phase ≠ .halted ∧ (s.call c).2.phase = .halted) ↔
      ∃ limit, (s.call c).1 = some (.microstepLimit limit) := by
  constructor
  · rintro ⟨hs, hhalted⟩
    have hlive := live_iterate_next (live_firstRound hs hfails c) s.config.maxMicrosteps
    rw [call_eq_cut] at hhalted ⊢
    rcases (s.firstRound c).cut_cases s.config.maxMicrosteps with hround | ⟨ts, r, -, hhalt⟩
    · rw [hround] at hlive
      exact absurd hhalted hlive.1
    · rw [hhalt]
      exact ⟨_, rfl⟩
  · rintro ⟨limit, hlimit⟩
    obtain ⟨-, ts, r, hround⟩ := (exceeds_iff hfails c limit).1 hlimit
    refine ⟨fun hs => ?_, ?_⟩
    · obtain ⟨error, hover, -⟩ := firstRound_of_halted hs c
      rw [hover, Round.iterate_next_over] at hround
      cases hround
    · rw [call_eq_cut, Round.cut_of_take hround]
      rfl

/-! ## Sessions that have ended -/

theorem Still.refl : Still s s := ⟨rfl, rfl, rfl, rfl, fun _ => rfl⟩

theorem Still.trans (h : Still s r) (h' : Still r q) : Still s q :=
  ⟨h'.phase.trans h.phase, h'.active.trans h.active, h'.data.trans h.data,
    h'.completion.trans h.completion, fun queue => (h'.waiting queue).trans (h.waiting queue)⟩

theorem still_report (report : Report) : Still s (s.report report) :=
  ⟨rfl, rfl, rfl, rfl, fun queue => by cases queue <;> rfl⟩

theorem still_call (h : s.phase = .final ∨ s.phase = .halted) (c : Call) :
    Still s (s.call c).2 := by
  cases c with
  | start =>
      have hstarted : s.phase ≠ .uninitialized := by
        rcases h with hs | hs <;> rw [hs] <;> exact Phase.noConfusion
      show Still s s.start.2
      rw [start_of_started hstarted]
      exact .refl
  | submit event =>
      show Still s (s.submit event).2
      rcases h with hs | hs
      · rw [submit_of_final hs]
        exact still_report _
      · rw [submit_of_halted hs]
        exact .refl

/-- Once a session has ended, nothing happens to it any more. -/
theorem still_after (h : s.phase = .final ∨ s.phase = .halted) (calls : List Call) :
    Still s (s.after calls) := by
  induction calls generalizing s with
  | nil => exact .refl
  | cons c rest ih =>
      have hcall := still_call h c
      exact hcall.trans (ih (hcall.phase.symm ▸ h))

/-! ## From call to call -/

theorem leads_call (c : Call) : s.phase.Leads (s.call c).2.phase := by
  have hended (h : s.phase = .final ∨ s.phase = .halted) : s.phase.Leads (s.call c).2.phase := by
    rw [(still_call h c).phase]
    exact .stay _
  cases hs : s.phase with
  | uninitialized =>
      cases c with
      | start => exact .begin started_start
      | submit event =>
          have hrefused : s.call (.submit event) = (some .notStarted, s) :=
            submit_of_uninitialized hs event
          rw [hrefused, hs]
          exact .stay _
  | running => exact .work (Moves.started (moves_call c) (started_of_running hs))
  | final => exact hs ▸ hended (.inl hs)
  | halted => exact hs ▸ hended (.inr hs)

theorem Held.failsOnly (h : Held s) : FailsOnly s := .of_none h.atRest.pending

/-- What holds of a session between two calls, and what the next calls can do. -/
structure Lifecycle (s : Session) : Prop where
  pending : s.pending = none
  waiting : ∀ queue, s.waiting queue = []
  leads : ∀ c, s.phase.Leads (s.call c).2.phase
  halts : ∀ c, (s.phase ≠ .halted ∧ (s.call c).2.phase = .halted) ↔
    ∃ limit, (s.call c).1 = some (.microstepLimit limit)
  ended : s.phase = .final ∨ s.phase = .halted → ∀ calls, Still s (s.after calls)
  ignores : s.phase = .final → ∀ event,
    s.call (.submit event) = (none, s.report (ignoredReport event)) ∧
      (s.call (.submit event)).2.status = s.status ∧ (ignoredReport event).kind = .warning
  halted : s.phase = .halted → ∀ event, s.call (.submit event) = (some .halted, s)
  started : s.phase ≠ .uninitialized → s.call .start = (some .alreadyStarted, s)
  unstarted : s.phase = .uninitialized → ∀ event,
    s.call (.submit event) = (some .notStarted, s)

/-- However a session came about, it is at rest between calls, and goes through
its phases in order. -/
theorem lifecycle (h : s.Held) : Lifecycle s where
  pending := h.atRest.pending
  waiting := h.atRest.waiting
  leads := leads_call
  halts := halts_iff h.failsOnly
  ended := still_after
  ignores hs event := by
    have hcall : s.call (.submit event) = (none, s.report (ignoredReport event)) :=
      submit_of_final hs event
    rw [hcall]
    exact ⟨rfl, rfl, rfl⟩
  halted := submit_of_halted
  started := start_of_started
  unstarted := submit_of_uninitialized

/-- Two states, each of which is left for the other at once. -/
def restless : Document where
  states :=
    [.state { id := "a", transitions := [{ target := some "b" }] } [],
     .state { id := "b", transitions := [{ target := some "a" }] } []]

/-- The model of `restless`. -/
def restlessModel : Model := (Model.build restless .empty).toOption.getD default

theorem build_restless : Model.build restless .empty = .ok restlessModel := rfl

/-- Its start is stopped, and nothing can be done with it any more. -/
theorem lifecycle_restless :
    let s := ofModel restlessModel { maxMicrosteps := 2 } .standard
    let r := (s.call .start).2
    s.Held ∧ (s.call .start).1 = some (.microstepLimit 2) ∧ r.phase = .halted ∧
      (∀ calls, Still r (r.after calls)) ∧
      ∀ event, r.call (.submit event) = (some .halted, r) := by
  intro s r
  have hheld : s.Held := .fresh build_restless _ _
  have hlimit : (s.call .start).1 = some (.microstepLimit 2) := by decide +kernel
  have hhalted : r.phase = .halted := ((lifecycle hheld).halts .start).2 ⟨2, hlimit⟩ |>.2
  have hlife := lifecycle (hheld.call .start)
  exact ⟨hheld, hlimit, hhalted, hlife.ended (.inr hhalted), hlife.halted hhalted⟩

end Session
end Statechart
