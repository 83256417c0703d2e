import Statechart.Proofs.Session.Failure
import Statechart.Proofs.Session.Rounds

/-!
# What the engine does not read

The engine never reads the journal, and the bound on microsteps only to see whether
a macrostep may go on.  So a session with another bound and with a longer journal
(`recast`) goes through the same rounds, and what becomes of it is recast in the
same way (`recast_firstRound`, `recast_iterate_next`).

If the bound stays as it is, whole calls do the same (`recast_call`).  At the
beginning of a call the engine also forgets the guards that failed in earlier
ones, so these are unread as well, and sessions that differ in nothing else answer
every call alike (`call_congr`).
-/

namespace Statechart
namespace Session

/-- The session with another bound on microsteps and with earlier entries in its
journal. -/
def recast (s : Session) (limit : Nat) (past : List Note) : Session :=
  { s with
    config := { s.config with maxMicrosteps := limit }
    journal := s.journal ++ past }

variable {s r : Session} {limit : Nat} {past : List Note}

/-! ## Content -/

theorem recast_fail (message : String) (error : ExecutionError) :
    (s.recast limit past).fail message error = (s.fail message error).recast limit past := by
  have hpolicy : (s.recast limit past).config.policy = s.config.policy := rfl
  rw [fail, fail, hpolicy]
  cases hskip : s.config.policy <;> rfl

theorem recast_absorb (outcome : Outcome) :
    (s.recast limit past).absorb outcome = (s.absorb outcome).recast limit past := by
  rw [absorb_eq, absorb_eq]
  simp [recast]

theorem recast_suffer (op : Operation) (note : Note) (fault : Fault) :
    (s.recast limit past).suffer op note fault =
      (s.suffer op note fault).recast limit past := by
  have hreported : ({ s.recast limit past with
        failedGuards := op.guard?.toList ++ (s.recast limit past).failedGuards }.note note).report
          fault.report =
      (({ s with failedGuards := op.guard?.toList ++ s.failedGuards }.note note).report
        fault.report).recast limit past := rfl
  rw [suffer, hreported, recast_fail]
  rfl

theorem recast_run (block : Block) :
    (s.recast limit past).perform (.run block) = (s.perform (.run block)).recast limit past := by
  cases hpending : s.pending with
  | some error =>
      have hsome : s.pending.isSome = true := by rw [hpending]; rfl
      have hrun : s.perform (.run block) = s := if_pos hsome
      rw [hrun]
      exact if_pos hsome
  | none =>
      have hactions : (s.recast limit past).afterActions block =
          (s.afterActions block).recast limit past := by
        have hnote : (s.recast limit past).note (.ran block (s.recast limit past).active) =
            (s.note (.ran block s.active)).recast limit past := rfl
        rw [afterActions, hnote, recast_absorb]
        rfl
      have houtcome : (s.recast limit past).outcome block = s.outcome block := rfl
      rw [perform_run hpending, perform_run (s := s.recast limit past) hpending, houtcome,
        hactions]
      cases (s.outcome block).failure with
      | none => rfl
      | some error => exact recast_suffer _ _ _

/-! ## Selections -/

theorem recast_guardHolds (t : TransitionRef) (cond : Option String) :
    (s.recast limit past).guardHolds t cond =
      ((s.guardHolds t cond).1, (s.guardHolds t cond).2.recast limit past) := by
  cases cond with
  | none => rfl
  | some cond =>
      have hholds : (s.recast limit past).evaluate.holds cond (s.recast limit past).data =
          s.evaluate.holds cond s.data := rfl
      have hguards : (s.recast limit past).failedGuards = s.failedGuards := rfl
      have hfailed (error : ExpressionError) : (s.recast limit past).guardFailed t cond error =
          (s.guardFailed t cond error).recast limit past := by
        have hreported (r : Report) : ({ s.recast limit past with
              failedGuards := t :: s.failedGuards }.note (.guardFailed t error)).report r =
            (({ s with failedGuards := t :: s.failedGuards }.note
              (.guardFailed t error)).report r).recast limit past := rfl
        exact (congrArg (fail · _ _) (hreported _)).trans (recast_fail _ _)
      rw [guardHolds, guardHolds, hholds, hguards]
      cases s.evaluate.holds cond s.data with
      | ok answer => rfl
      | error error =>
          dsimp only
          rw [hfailed]
          split <;> rfl

theorem recast_chooseAt (event : Option Event) (source position : Nat) (ts : List Transition) :
    (s.recast limit past).chooseAt event source position ts =
      ((s.chooseAt event source position ts).1,
        (s.chooseAt event source position ts).2.recast limit past) := by
  induction ts generalizing s position with
  | nil => rfl
  | cons t rest ih =>
      rw [chooseAt, chooseAt]
      split
      · rw [recast_guardHolds]
        rcases s.guardHolds ⟨source, position⟩ t.cond with ⟨_ | _, r⟩
        · exact ih (position + 1)
        · rfl
      · exact ih (position + 1)

theorem recast_chooseAlong (event : Option Event) (path : List Nat) :
    (s.recast limit past).chooseAlong event path =
      ((s.chooseAlong event path).1, (s.chooseAlong event path).2.recast limit past) := by
  induction path generalizing s with
  | nil => rfl
  | cons source rest ih =>
      have harena : (s.recast limit past).arena = s.arena := rfl
      rw [chooseAlong, chooseAlong, harena, recast_chooseAt]
      rcases s.chooseAt event source 0 (s.arena.state source).transitions with ⟨_ | t, r⟩
      · exact ih
      · rfl

theorem recast_chooseAll (event : Option Event) (chosen : List TransitionRef)
    (leaves : List Nat) :
    (s.recast limit past).chooseAll event chosen leaves =
      ((s.chooseAll event chosen leaves).1,
        (s.chooseAll event chosen leaves).2.recast limit past) := by
  induction leaves generalizing s chosen with
  | nil => rfl
  | cons leaf rest ih =>
      have harena : (s.recast limit past).arena = s.arena := rfl
      rw [chooseAll, chooseAll, harena, recast_chooseAlong]
      rcases s.chooseAlong event (leaf :: s.arena.ancestors leaf) with ⟨_ | t, r⟩
      · exact ih chosen
      · exact ih _

theorem recast_select (event : Option Event) :
    (s.recast limit past).select event =
      ((s.select event).1, (s.select event).2.recast limit past) := by
  have hleaves : (s.recast limit past).leaves = s.leaves := rfl
  rw [select, select, hleaves, recast_chooseAll]
  rfl

/-! ## Microsteps -/

theorem recast_enteredFinal (parent : Nat) :
    (s.recast limit past).enteredFinal parent = (s.enteredFinal parent).recast limit past := by
  unfold enteredFinal
  split
  · rfl
  have hcomplete : (s.recast limit past).complete parent =
      (s.complete parent).recast limit past := rfl
  have harena : ((s.complete parent).recast limit past).arena = (s.complete parent).arena := rfl
  dsimp only
  rw [hcomplete, harena]
  cases ((s.complete parent).arena.state parent).parent with
  | none => rfl
  | some around =>
      have hisComplete : ((s.complete parent).recast limit past).isComplete =
          (s.complete parent).isComplete := rfl
      dsimp only
      rw [hisComplete]
      split <;> rfl

theorem recast_enter (i : Nat) :
    (s.recast limit past).enter i = (s.enter i).recast limit past := by
  by_cases hmem : List.contains s.active i = true
  · rw [enter, enter, if_pos hmem]
    exact if_pos hmem
  have hrecast : ¬ List.contains (s.recast limit past).active i = true := hmem
  rw [enter, enter, if_neg hmem, if_neg hrecast]
  have harena : (s.recast limit past).arena = s.arena := rfl
  have hcontent : (({ s.recast limit past with
        active := (s.recast limit past).active.insert i }.note (.entered i)).runContent
          (.onEntry i) i (s.arena.state i).onEntry) =
      (({ s with active := s.active.insert i }.note (.entered i)).runContent
        (.onEntry i) i (s.arena.state i).onEntry).recast limit past :=
    recast_run (s := s.perform (.arrive i)) (.onEntry i)
  dsimp only
  rw [harena, hcontent]
  cases (s.arena.state i).isFinal with
  | false => rfl
  | true =>
      cases (s.arena.state i).parent with
      | none => rfl
      | some parent => exact recast_enteredFinal parent

theorem recast_exit (i : Nat) :
    (s.recast limit past).exit i = (s.exit i).recast limit past := by
  have hcontent : (s.recast limit past).runContent (.onExit i) i (s.arena.state i).onExit =
      (s.runContent (.onExit i) i (s.arena.state i).onExit).recast limit past :=
    recast_run (.onExit i)
  have harena : (s.recast limit past).arena = s.arena := rfl
  rw [exit, harena, hcontent]
  rfl

theorem recast_act (t : TransitionRef) :
    (s.recast limit past).act t = (s.act t).recast limit past := recast_run (.onTransition t)

theorem recast_foldl {α : Type} {step : Session → α → Session} (items : List α)
    (h : ∀ s item, step (recast s limit past) item = (step s item).recast limit past) :
    items.foldl step (s.recast limit past) = (items.foldl step s).recast limit past := by
  induction items generalizing s with
  | nil => rfl
  | cons item rest ih => rw [List.foldl_cons, List.foldl_cons, h, ih]

theorem recast_enterAll (states : StateSet) :
    (s.recast limit past).enterAll states = (s.enterAll states).recast limit past :=
  recast_foldl states fun _ => recast_enter

theorem recast_microstep (ts : List TransitionRef) :
    (s.recast limit past).microstep ts = (s.microstep ts).recast limit past := by
  have hnote : (s.recast limit past).note (.stepped ts) =
      (s.note (.stepped ts)).recast limit past := rfl
  have hexits : (s.recast limit past).arena.exitSets (s.recast limit past).active ts =
      s.arena.exitSets s.active ts := rfl
  have harena : (s.recast limit past).arena = s.arena := rfl
  rw [microstep_eq, microstep_eq, leaveAll, leaveAll, hnote, hexits, harena,
    recast_foldl _ fun _ => recast_exit, recast_foldl _ fun _ => recast_act, recast_enterAll]

/-! ## Rounds -/

theorem recast_checkFinal :
    (s.recast limit past).checkFinal = s.checkFinal.recast limit past := by
  have hfinal : (s.recast limit past).isFinalConfiguration = s.isFinalConfiguration := rfl
  rw [checkFinal, checkFinal, hfinal]
  split <;> rfl

/-- What becomes of a result. -/
def Result.recast (result : Result) (limit : Nat) (past : List Note) : Result :=
  (result.1, result.2.recast limit past)

theorem recast_abort (error : ExecutionError) :
    (s.recast limit past).abort error = Result.recast (s.abort error) limit past := by
  have hcleared : { s.recast limit past with pending := none }.clearQueues =
      { s with pending := none }.clearQueues.recast limit past := rfl
  rw [abort, hcleared, recast_checkFinal]
  rfl

theorem recast_dequeue :
    (s.recast limit past).dequeue =
      s.dequeue.map fun next => (next.1, next.2.recast limit past) := by
  cases s with
  | mk _ _ _ _ _ _ internal derived _ _ _ _ _ _ _ =>
      cases internal with
      | cons _ _ => rfl
      | nil => cases derived <;> rfl

/-- What becomes of a round. -/
def Round.recast (limit : Nat) (past : List Note) : Round → Round
  | .over result => .over (Result.recast result limit past)
  | .take ts s => .take ts (s.recast limit past)

theorem recast_nextEvent :
    (s.recast limit past).nextEvent = s.nextEvent.recast limit past := by
  rw [nextEvent, nextEvent, recast_dequeue]
  cases s.dequeue with
  | none => rfl
  | some next =>
      obtain ⟨event, r⟩ := next
      have hevent : (r.recast limit past).setEvent event =
          (r.setEvent event).recast limit past := rfl
      dsimp only [Option.map]
      rw [hevent, recast_select]
      generalize (r.setEvent event).select (some event) = selected
      obtain ⟨ts, q⟩ := selected
      have hpending : (q.recast limit past).pending = q.pending := rfl
      dsimp only
      rw [hpending]
      cases q.pending with
      | none => rfl
      | some error => exact congrArg Round.over (recast_abort error)

theorem recast_round : (s.recast limit past).round = s.round.recast limit past := by
  have hfinal : (s.recast limit past).isFinalConfiguration = s.isFinalConfiguration := rfl
  rw [round, round, hfinal, recast_select, recast_checkFinal]
  split
  · rfl
  generalize s.select none = selected
  obtain ⟨ts, q⟩ := selected
  have hpending : (q.recast limit past).pending = q.pending := rfl
  dsimp only
  rw [hpending]
  cases q.pending with
  | some error => exact congrArg Round.over (recast_abort error)
  | none =>
      dsimp only
      rw [recast_nextEvent]
      split <;> rfl

theorem recast_takeAll (ts : List TransitionRef) :
    (s.recast limit past).takeAll ts = (s.takeAll ts).recast limit past := by
  rw [takeAll, takeAll, recast_microstep]
  split <;> rfl

theorem recast_next (round : Round) :
    (round.recast limit past).next = round.next.recast limit past := by
  rcases round with result | ⟨ts, s⟩
  · rfl
  · have hpending : ((s.takeAll ts).recast limit past).pending = (s.takeAll ts).pending := rfl
    dsimp only [Round.recast, Round.next]
    rw [recast_takeAll, hpending]
    cases (s.takeAll ts).pending with
    | some error => exact congrArg Round.over (recast_abort error)
    | none => exact recast_round

theorem recast_iterate_next (n : Nat) (round : Round) :
    Round.next^[n] (round.recast limit past) = (Round.next^[n] round).recast limit past := by
  have hnext : Function.Semiconj (Round.recast limit past) Round.next Round.next :=
    fun round => (recast_next round).symm
  exact (hnext.iterate_right n round).symm

/-! ## Calls -/

theorem recast_leading (first : List TransitionRef) :
    (s.recast limit past).leading first = (s.leading first).recast limit past := by
  have hpending : (s.recast limit past).pending = s.pending := rfl
  rw [leading, leading, hpending]
  cases s.pending with
  | some error => exact congrArg Round.over (recast_abort error)
  | none =>
      dsimp only
      rw [recast_round]
      split <;> rfl

theorem recast_begun : (s.recast limit past).begun = s.begun.recast limit past :=
  recast_enterAll (s := { s with phase := .running, failedGuards := [] }) _

theorem recast_firstRound (c : Call) :
    (s.recast limit past).firstRound c = (s.firstRound c).recast limit past := by
  have hphase : (s.recast limit past).phase = s.phase := rfl
  cases c with
  | start =>
      rw [firstRound, firstRound, hphase, recast_begun, recast_leading]
      split <;> rfl
  | submit event =>
      have hselect : (s.recast limit past).selectFor event =
          ((s.selectFor event).1, (s.selectFor event).2.recast limit past) :=
        recast_select (s := s.receive event) (some event)
      have hidle : (s.recast limit past).isIdle event = s.isIdle event := by
        rw [isIdle, isIdle, hselect]
        rfl
      have hforget : (s.recast limit past).forget event = (s.forget event).recast limit past := by
        rw [forget, forget, hselect]
        rfl
      rw [firstRound, firstRound, hphase]
      cases hs : s.phase with
      | running =>
          dsimp only
          rw [hidle, hforget, hselect, recast_checkFinal, recast_leading]
          split <;> rfl
      | _ =>
          show Round.over ((s.recast limit past).submit event) = .over _
          rw [submit, submit, hphase, hs]
          rfl

/-- With the same bound a call that goes on is halted at the same point. -/
theorem recast_call (c : Call) (h : s.config.maxMicrosteps = limit) :
    (s.recast limit past).call c = Result.recast (s.call c) limit past := by
  have hlimit : (s.recast limit past).config.maxMicrosteps = s.config.maxMicrosteps := h.symm
  have hrounds :
      Round.next^[s.config.maxMicrosteps] ((s.firstRound c).recast limit past) =
        (Round.next^[s.config.maxMicrosteps] (s.firstRound c)).recast limit past :=
    recast_iterate_next _ _
  rw [call_eq_cut, call_eq_cut, recast_firstRound, hlimit]
  rcases (s.firstRound c).cut_cases s.config.maxMicrosteps with hround | ⟨ts, r, hround, hhalt⟩
  · rw [hround] at hrounds
    exact Round.cut_of_over hrounds (Nat.le_refl _)
  · have hconfig : r.config = s.config := by
      have hconfig := s.config_iterate_next c s.config.maxMicrosteps
      rwa [hround] at hconfig
    rw [hround] at hrounds
    rw [Round.cut_of_take hrounds, hhalt, ← h, ← hconfig]
    rfl

/-! ## Sessions that answer alike -/

/-- The session without its journal and without what is known of guards that
failed. -/
def hide (s : Session) : Session := { s with failedGuards := [], journal := [] }

theorem hide_recast (h : s.config.maxMicrosteps = limit) : (s.recast limit past).hide = s.hide := by
  subst h
  rfl

theorem call_hide_of_eq {c : Call}
    (heq : s.call c = (s.hide.recast s.config.maxMicrosteps s.journal).call c) :
    (s.call c).1 = (s.hide.call c).1 ∧ (s.call c).2.hide = (s.hide.call c).2.hide := by
  have hconfig : (s.hide.call c).2.config.maxMicrosteps = s.config.maxMicrosteps :=
    congrArg Config.maxMicrosteps (Moves.sameChart (moves_call c)).config
  have hrecast : (s.hide.recast s.config.maxMicrosteps s.journal).call c =
      Result.recast (s.hide.call c) s.config.maxMicrosteps s.journal := recast_call c rfl
  rw [heq, hrecast]
  exact ⟨rfl, hide_recast hconfig⟩

/-- What is hidden has no influence on a call: if the engine works, it forgets at
first which guards failed, and otherwise it reads neither of the two. -/
theorem call_hide (c : Call) :
    (s.call c).1 = (s.hide.call c).1 ∧ (s.call c).2.hide = (s.hide.call c).2.hide := by
  cases c with
  | start =>
      by_cases hs : s.phase = .uninitialized
      · refine call_hide_of_eq ?_
        show s.start = (s.hide.recast s.config.maxMicrosteps s.journal).start
        have hs' : (s.hide.recast s.config.maxMicrosteps s.journal).phase = .uninitialized := hs
        rw [start, start, if_pos hs, if_pos hs']
        rfl
      · have hs' : ¬ s.hide.phase = .uninitialized := hs
        show s.start.1 = s.hide.start.1 ∧ s.start.2.hide = s.hide.start.2.hide
        rw [start, start, if_neg hs, if_neg hs']
        exact ⟨rfl, rfl⟩
  | submit event =>
      have hphase : s.hide.phase = s.phase := rfl
      cases hs : s.phase with
      | running =>
          refine call_hide_of_eq ?_
          show s.submit event = (s.hide.recast s.config.maxMicrosteps s.journal).submit event
          have hs' : (s.hide.recast s.config.maxMicrosteps s.journal).phase = .running := hs
          rw [submit, submit, hs, hs']
          rfl
      | _ =>
          show (s.submit event).1 = (s.hide.submit event).1 ∧
            (s.submit event).2.hide = (s.hide.submit event).2.hide
          rw [submit, submit, hphase, hs]
          exact ⟨rfl, rfl⟩

theorem call_congr (h : s.hide = r.hide) (c : Call) :
    (s.call c).1 = (r.call c).1 ∧ (s.call c).2.hide = (r.call c).2.hide := by
  obtain ⟨herror, hhide⟩ := s.call_hide c
  obtain ⟨herror', hhide'⟩ := r.call_hide c
  rw [herror, herror', hhide, hhide', h]
  exact ⟨rfl, rfl⟩

end Session
end Statechart
