import Statechart.Proofs.Action.Asking
import Statechart.Proofs.Session.Rounds

/-!
# Sessions ask the evaluator

All that a session does with its evaluator is to ask it whether guards hold and for the values and
conditions in content.  So what comes of a run is found out by a program of questions, one for all
evaluators (`asks_results`), and whether their answers come from reading every text anew or out of
a cache that was used before makes no difference (`cache_unnoticed`).

There is one lemma for each function of the engine, in the order in which they call each other.
What stands between two questions does not see the evaluator at all; there the session with
another evaluator does the same (`consulting_fail` and its like).
-/

namespace Statechart

open Statechart.Expr (Inquiry Cache Question)

namespace Session

/-- The session with another evaluator. -/
def consulting (evaluate : Evaluator) (s : Session) : Session := s.withEvaluator evaluate

/-- The same for an answer that comes with a session. -/
def consultingBehind {α : Type} (evaluate : Evaluator) (r : α × Session) : α × Session :=
  (r.1, r.2.consulting evaluate)

/-- The same for a round. -/
def Round.consulting (evaluate : Evaluator) : Round → Round
  | .over result => .over (consultingBehind evaluate result)
  | .take ts s => .take ts (s.consulting evaluate)

variable {α : Type} {s r : Session} {registry : Registry} {evaluate : Evaluator}

/-! ## What does not see the evaluator -/

theorem consulting_fail (message : String) (error : ExecutionError) :
    (s.consulting evaluate).fail message error = (s.fail message error).consulting evaluate := by
  have hpolicy : (s.consulting evaluate).config.policy = s.config.policy := rfl
  rw [fail, fail, hpolicy]
  cases s.config.policy <;> rfl

theorem consulting_guardFailed (t : TransitionRef) (cond : String) (error : ExpressionError) :
    (s.consulting evaluate).guardFailed t cond error =
      (s.guardFailed t cond error).consulting evaluate := by
  let message := "guard '" ++ cond ++ "' failed: " ++ error.message
  let reported := ({ s with failedGuards := t :: s.failedGuards }.note
    (.guardFailed t error)).report ⟨.expression, some (s.arena.state t.source).id, message⟩
  exact consulting_fail (s := reported) message (.expression error)

theorem consulting_absorb (outcome : Outcome) :
    (s.consulting evaluate).absorb outcome = (s.absorb outcome).consulting evaluate := by
  rw [absorb_eq, absorb_eq]
  rfl

theorem consulting_enteredFinal (parent : Nat) :
    (s.consulting evaluate).enteredFinal parent =
      (s.enteredFinal parent).consulting evaluate := by
  unfold enteredFinal
  split
  · rfl
  have harena : ((s.consulting evaluate).complete parent).arena = (s.complete parent).arena := rfl
  have hcomplete : ((s.consulting evaluate).complete parent).isComplete =
      (s.complete parent).isComplete := rfl
  dsimp only
  rw [harena, hcomplete]
  cases ((s.complete parent).arena.state parent).parent with
  | none => rfl
  | some around =>
      dsimp only
      split <;> rfl

theorem consulting_checkFinal :
    (s.consulting evaluate).checkFinal = s.checkFinal.consulting evaluate := by
  have hfinal : (s.consulting evaluate).isFinalConfiguration = s.isFinalConfiguration := rfl
  rw [checkFinal, checkFinal, hfinal]
  split <;> rfl

theorem consulting_abort (error : ExecutionError) :
    (s.consulting evaluate).abort error = consultingBehind evaluate (s.abort error) :=
  congrArg (Prod.mk (some error))
    (consulting_checkFinal (s := { s with pending := none, internal := [], derived := [] }))

/-! ## Content -/

/-- What is left of running content once its outcome is known. -/
def withOutcome (s : Session) (block : Block) (state : Nat) (outcome : Outcome) : Session :=
  let id := (s.arena.state state).id
  let r := s.absorb outcome
  match outcome.failure with
  | none => r
  | some error =>
    ((r.note (.blockFailed block error)).report ⟨failureKind error, some id, error.message⟩).fail
      error.message (.ofAction error)

theorem consulting_withOutcome (block : Block) (state : Nat) (outcome : Outcome) :
    (s.consulting evaluate).withOutcome block state outcome =
      (s.withOutcome block state outcome).consulting evaluate := by
  unfold withOutcome
  rw [consulting_absorb]
  cases outcome.failure with
  | none => rfl
  | some error =>
      let reported := ((s.absorb outcome).note (.blockFailed block error)).report
        ⟨failureKind error, some (s.arena.state state).id, error.message⟩
      exact consulting_fail (s := reported) error.message (.ofAction error)

theorem asks_runContent (hregistry : registry.Asks) (block : Block) (state : Nat)
    {actions : List Action} (h : ∀ action ∈ actions, action.BuiltWith registry) :
    Consults consulting fun evaluate => (s.consulting evaluate).runContent block state actions := by
  by_cases hpending : s.pending.isSome = true
  · exact .pure s fun evaluate => if_pos hpending
  by_cases hempty : actions.isEmpty = true
  · refine .pure (s.note (.ran block s.active)) fun evaluate => ?_
    exact (if_neg hpending).trans (if_pos hempty)
  · have hasks := Action.asks_runBlock (fun action hmem => (h action hmem).asks hregistry) s.data
      (s.arena.state state).id
    let noted := s.note (.ran block s.active)
    have hcontent := hasks.bind
      (fun evaluate outcome => (noted.consulting evaluate).withOutcome block state outcome)
      fun outcome _ => .pure _ fun evaluate => consulting_withOutcome block state outcome
    exact hcontent.congr fun evaluate => (if_neg hpending).trans (if_neg hempty)

/-! ## Selections -/

/-- What a guard comes to once its condition has an answer. -/
def guardAnswered (s : Session) (t : TransitionRef) (cond : String) :
    Except ExpressionError Bool → Bool × Session
  | .ok answer => (answer, s)
  | .error error =>
    if s.failedGuards.contains t then (false, s) else (false, s.guardFailed t cond error)

theorem asks_guardHolds (t : TransitionRef) (cond : Option String) :
    Consults consultingBehind fun evaluate => (s.consulting evaluate).guardHolds t cond := by
  cases cond with
  | none => exact .pure (true, s) fun _ => rfl
  | some cond =>
      refine (asks_holds cond s.data).bind
        (fun evaluate => (s.consulting evaluate).guardAnswered t cond) fun result _ => ?_
      cases result with
      | ok answer => exact .pure (answer, s) fun _ => rfl
      | error error =>
          by_cases hknown : s.failedGuards.contains t = true
          · exact .pure (false, s) fun _ => if_pos hknown
          · refine .pure (false, s.guardFailed t cond error) fun evaluate => ?_
            exact (if_neg hknown).trans (congrArg (Prod.mk false) (consulting_guardFailed t cond _))

theorem asks_chooseAt (event : Option Event) (source position : Nat) (ts : List Transition) :
    Consults consultingBehind fun evaluate =>
      (s.consulting evaluate).chooseAt event source position ts := by
  induction ts generalizing s position with
  | nil => exact .pure (none, s) fun _ => rfl
  | cons t rest ih =>
      by_cases hfits : t.fits event = true
      · have hguard := (asks_guardHolds (s := s) ⟨source, position⟩ t.cond).bind
          (fun _ guard => if guard.1 then (some (⟨source, position⟩ : TransitionRef), guard.2)
            else guard.2.chooseAt event source (position + 1) rest) fun guard _ => by
              obtain ⟨_ | _, r⟩ := guard
              · exact ih (position + 1)
              · exact .pure (some ⟨source, position⟩, r) fun _ => rfl
        refine hguard.congr fun evaluate => ?_
        rw [chooseAt, if_pos hfits]
        rcases (s.consulting evaluate).guardHolds ⟨source, position⟩ t.cond with ⟨_ | _, r⟩ <;> rfl
      · simp only [chooseAt, if_neg hfits]
        exact ih (position + 1)

theorem asks_chooseAlong (event : Option Event) (path : List Nat) :
    Consults consultingBehind fun evaluate => (s.consulting evaluate).chooseAlong event path := by
  induction path generalizing s with
  | nil => exact .pure (none, s) fun _ => rfl
  | cons source rest ih =>
      have hfound := (asks_chooseAt (s := s) event source 0 (s.arena.state source).transitions).bind
        (fun _ found => found.1.elim (found.2.chooseAlong event rest) fun t => (some t, found.2))
        fun found _ => by
          obtain ⟨_ | t, r⟩ := found
          · exact ih
          · exact .pure (some t, r) fun _ => rfl
      refine hfound.congr fun evaluate => ?_
      have harena : (s.consulting evaluate).arena = s.arena := rfl
      rw [chooseAlong, harena]
      rcases (s.consulting evaluate).chooseAt event source 0 (s.arena.state source).transitions
        with ⟨_ | t, r⟩ <;> rfl

theorem asks_chooseAll (event : Option Event) (chosen : List TransitionRef) (leaves : List Nat) :
    Consults consultingBehind fun evaluate =>
      (s.consulting evaluate).chooseAll event chosen leaves := by
  induction leaves generalizing s chosen with
  | nil => exact .pure (chosen, s) fun _ => rfl
  | cons leaf rest ih =>
      have hfound := (asks_chooseAlong (s := s) event (leaf :: s.arena.ancestors leaf)).bind
        (fun _ found => found.1.elim (found.2.chooseAll event chosen rest) fun t =>
          found.2.chooseAll event (if chosen.contains t then chosen else chosen ++ [t]) rest)
        fun found _ => by
          obtain ⟨_ | t, r⟩ := found
          · exact ih chosen
          · exact ih _
      refine hfound.congr fun evaluate => ?_
      have harena : (s.consulting evaluate).arena = s.arena := rfl
      rw [chooseAll, harena]
      rcases (s.consulting evaluate).chooseAlong event (leaf :: s.arena.ancestors leaf)
        with ⟨_ | t, r⟩ <;> rfl

theorem asks_select (event : Option Event) :
    Consults consultingBehind fun evaluate => (s.consulting evaluate).select event := by
  refine (asks_chooseAll (s := s) event [] s.leaves).bind (fun _ found =>
    let taken := found.2.arena.withoutConflicts found.2.active found.1
    (taken, found.2.note (.selected event taken))) fun found _ => ?_
  let taken := found.2.arena.withoutConflicts found.2.active found.1
  exact .pure (taken, found.2.note (.selected event taken)) fun _ => rfl

/-! ## Microsteps -/

/-- What is left of entering a state once its content has run. -/
def nowIn (s : Session) (node : StateNode) : Session :=
  if node.isFinal then
    match node.parent with
    | none => s
    | some parent => s.enteredFinal parent
  else s

theorem asks_enter (hregistry : registry.Asks) (h : s.arena.BuiltWith registry) (i : Nat) :
    Consults consulting fun evaluate => (s.consulting evaluate).enter i := by
  by_cases hmem : s.active.contains i = true
  · exact .pure s fun _ => if_pos hmem
  let entered := { s with active := s.active.insert i }.note (.entered i)
  let node := s.arena.state i
  suffices hentered : Consults consulting fun evaluate =>
      ((entered.consulting evaluate).runContent (.onEntry i) i node.onEntry).nowIn node from
    hentered.congr fun evaluate => if_neg hmem
  refine (asks_runContent hregistry (.onEntry i) i (h.onEntry i)).bind (fun _ r => r.nowIn node)
    fun r _ => ?_
  unfold nowIn
  cases node.isFinal with
  | false => exact .pure r fun _ => rfl
  | true =>
      cases node.parent with
      | none => exact .pure r fun _ => rfl
      | some parent => exact .pure (r.enteredFinal parent) fun _ => consulting_enteredFinal parent

theorem asks_exit (hregistry : registry.Asks) (h : s.arena.BuiltWith registry) (i : Nat) :
    Consults consulting fun evaluate => (s.consulting evaluate).exit i :=
  (asks_runContent hregistry (.onExit i) i (h.onExit i)).bind
    (fun _ r => { r with active := r.active.erase i }.note (.exited i))
    fun r _ => .pure ({ r with active := r.active.erase i }.note (.exited i)) fun _ => rfl

theorem asks_act (hregistry : registry.Asks) (h : s.arena.BuiltWith registry) (t : TransitionRef) :
    Consults consulting fun evaluate => (s.consulting evaluate).act t :=
  asks_runContent hregistry (.onTransition t) t.source (h.actions t)

/-- One function of the engine after another: the second one works on the same model. -/
theorem asks_comp {β : Type} {put : Evaluator → β → β} {f : Session → Session} {g : Session → β}
    (hf : Consults consulting fun evaluate => f (s.consulting evaluate))
    (hsame : ∀ s, SameRun s (f s))
    (hg : ∀ r : Session, r.arena = s.arena →
      Consults put fun evaluate => g (r.consulting evaluate)) :
    Consults put fun evaluate => g (f (s.consulting evaluate)) := by
  refine hf.bind (fun _ r => g r) fun r ⟨evaluate, heq⟩ => hg r ?_
  have harena := (hsame (s.consulting evaluate)).arena
  rwa [heq] at harena

theorem asks_foldl {step : Session → α → Session} (hsame : ∀ s item, SameRun s (step s item))
    (hstep : ∀ (s : Session) item, s.arena.BuiltWith registry →
      Consults consulting fun evaluate => step (s.consulting evaluate) item)
    (items : List α) (h : s.arena.BuiltWith registry) :
    Consults consulting fun evaluate => items.foldl step (s.consulting evaluate) := by
  induction items generalizing s with
  | nil => exact .pure s fun _ => rfl
  | cons item rest ih =>
      exact asks_comp (g := fun r => rest.foldl step r) (hstep s item h)
        (fun s => hsame s item) fun r hr => ih (hr ▸ h)

theorem sameRun_foldl {step : Session → α → Session} (hsame : ∀ s item, SameRun s (step s item))
    (items : List α) : SameRun s (items.foldl step s) := by
  induction items generalizing s with
  | nil => exact .refl
  | cons item rest ih => exact (hsame s item).trans ih

theorem asks_enterAll (hregistry : registry.Asks) (h : s.arena.BuiltWith registry)
    (states : StateSet) :
    Consults consulting fun evaluate => (s.consulting evaluate).enterAll states := by
  have henter (s : Session) (i : Nat) : SameRun s (s.enter i) :=
    let h := sameStates_enter (s := s) i
    ⟨h.model, h.config, h.evaluate, h.phase⟩
  exact asks_foldl henter (fun s i h => asks_enter hregistry h i) states h

theorem asks_microstep (hregistry : registry.Asks) (h : s.arena.BuiltWith registry)
    (ts : List TransitionRef) :
    Consults consulting fun evaluate => (s.consulting evaluate).microstep ts := by
  have hexit (s : Session) (i : Nat) : SameRun s (s.exit i) :=
    let h := sameStates_exit (s := s) i
    ⟨h.model, h.config, h.evaluate, h.phase⟩
  have hact (s : Session) (t : TransitionRef) : SameRun s (s.act t) :=
    (sameStates_act t).toSameRun
  let noted := s.note (.stepped ts)
  refine asks_comp (s := noted) (f := fun s => (noted.arena.exitSets noted.active ts).reverse.foldl
      exit s) (g := fun s => (ts.foldl act s).enterAll ((ts.foldl act s).arena.entrySet ts))
    (asks_foldl hexit (fun s i h => asks_exit hregistry h i) _ h) (fun s => sameRun_foldl hexit _)
    fun left hleft => ?_
  refine asks_comp (g := fun s => s.enterAll (s.arena.entrySet ts))
    (asks_foldl hact (fun s t h => asks_act hregistry h t) ts (hleft ▸ h))
    (fun s => sameRun_foldl hact ts) fun acted hacted => ?_
  exact asks_enterAll hregistry (hacted ▸ hleft ▸ h) (acted.arena.entrySet ts)

/-! ## Rounds -/

/-- A failure that is pending ends the macrostep without a question. -/
theorem asks_unless_pending {go : Evaluator → Round} (hgo : Consults Round.consulting go) :
    Consults Round.consulting fun evaluate =>
      match (s.consulting evaluate).pending with
      | some error => .over ((s.consulting evaluate).abort error)
      | none => go evaluate := by
  have hpending (evaluate : Evaluator) : (s.consulting evaluate).pending = s.pending := rfl
  simp only [hpending]
  cases s.pending with
  | none => exact hgo
  | some error =>
      exact .pure (.over (s.abort error)) fun _ => congrArg Round.over (consulting_abort error)

theorem asks_nextEvent :
    Consults Round.consulting fun evaluate => (s.consulting evaluate).nextEvent := by
  have hdequeue (evaluate : Evaluator) : (s.consulting evaluate).dequeue =
      s.dequeue.map fun next => (next.1, next.2.consulting evaluate) := by
    cases s with
    | mk _ _ _ _ _ _ internal derived _ _ _ _ _ _ _ =>
        cases internal with
        | cons _ _ => rfl
        | nil => cases derived <;> rfl
  simp only [nextEvent, hdequeue]
  cases s.dequeue with
  | none => exact .pure (.over (none, s)) fun _ => rfl
  | some next =>
      obtain ⟨event, q⟩ := next
      refine (asks_select (s := q.setEvent event) (some event)).bind (fun _ found =>
        (match found.2.pending with
          | some error => .over (found.2.abort error)
          | none => .take found.1 found.2 : Round)) fun found _ => ?_
      exact asks_unless_pending (s := found.2) (.pure (.take found.1 found.2) fun _ => rfl)

theorem asks_round : Consults Round.consulting fun evaluate => (s.consulting evaluate).round := by
  by_cases hfinal : s.isFinalConfiguration = true
  · refine .pure (.over (none, s.checkFinal)) fun evaluate => (if_pos hfinal).trans ?_
    rw [consulting_checkFinal]
    rfl
  have hround (evaluate : Evaluator) : (s.consulting evaluate).round = _ := if_neg hfinal
  simp only [hround]
  refine (asks_select (s := s) none).bind (fun _ found =>
    (match found.2.pending with
      | some error => .over (found.2.abort error)
      | none => if found.1.isEmpty then found.2.nextEvent else .take found.1 found.2 : Round))
    fun found _ => asks_unless_pending (s := found.2) ?_
  cases hempty : found.1.isEmpty with
  | true => simpa only [consultingBehind, hempty, if_true] using asks_nextEvent (s := found.2)
  | false =>
      simp only [consultingBehind, hempty, Bool.false_eq_true, if_false]
      exact .pure (.take found.1 found.2) fun _ => rfl

theorem asks_takeAll (hregistry : registry.Asks) (h : s.arena.BuiltWith registry)
    (ts : List TransitionRef) :
    Consults consulting fun evaluate => (s.consulting evaluate).takeAll ts := by
  by_cases hempty : ts.isEmpty = true
  · exact .pure s fun _ => if_pos hempty
  · simp only [takeAll, if_neg hempty]
    exact asks_microstep hregistry h ts

theorem asks_next (hregistry : registry.Asks) {round : Round}
    (h : round.session.arena.BuiltWith registry) :
    Consults Round.consulting fun evaluate => (round.consulting evaluate).next := by
  rcases round with result | ⟨ts, s⟩
  · exact .pure (.over result) fun _ => rfl
  · refine asks_comp (g := fun r => (match r.pending with
        | some error => .over (r.abort error)
        | none => r.round : Round)) (asks_takeAll hregistry h ts)
      (fun s => sameRun_takeAll ts) fun r _ => ?_
    exact asks_unless_pending asks_round

/-- Neither guards nor the queues have an influence on the model. -/
theorem kept_arena : Kept arena where
  select _ event := (sameView_select event).arena
  dequeue h := (sameStates_dequeue h).arena
  data _ _ := rfl
  guards _ := rfl
  report _ _ := rfl
  closed _ _ _ _ _ := rfl

theorem arena_consulting (evaluate : Evaluator) (round : Round) :
    (round.consulting evaluate).session.arena = round.session.arena := by
  cases round <;> rfl

theorem asks_cut (hregistry : registry.Asks) (budget : Nat) {round : Round}
    (h : round.session.arena.BuiltWith registry) :
    Consults consultingBehind fun evaluate => (round.consulting evaluate).cut budget := by
  induction budget generalizing round with
  | zero =>
      rcases round with result | ⟨ts, s⟩
      · exact .pure result fun _ => rfl
      · exact .pure s.halt fun _ => rfl
  | succ budget ih =>
      rcases round with result | ⟨ts, s⟩
      · exact .pure result fun _ => rfl
      · have htake : (Round.take ts s).session.arena.BuiltWith registry := h
        refine (asks_next hregistry htake).bind (fun _ round => round.cut budget)
          fun round ⟨evaluate, hnext⟩ => ih ?_
        have hkept : (Round.next (.take ts (s.consulting evaluate))).session.arena = s.arena :=
          kept_arena.session_next.trans (sameRun_takeAll ts).arena
        have hround : round.session.arena = s.arena := by
          rw [← arena_consulting evaluate round, ← hnext]
          exact hkept
        exact hround ▸ h

/-! ## Calls -/

theorem asks_macrostep (hregistry : registry.Asks) (h : s.arena.BuiltWith registry)
    (first : List TransitionRef) :
    Consults consultingBehind fun evaluate => (s.consulting evaluate).macrostep first := by
  have hleading : Consults Round.consulting fun evaluate =>
      (s.consulting evaluate).leading first := by
    refine asks_unless_pending ?_
    by_cases hempty : first.isEmpty = true
    · simp only [if_pos hempty]
      exact asks_round
    · simp only [if_neg hempty]
      exact .pure (.take first s) fun _ => rfl
  simp only [macrostep_eq_cut]
  refine hleading.bind (fun _ round => round.cut s.config.maxMicrosteps)
    fun round ⟨evaluate, heq⟩ => asks_cut hregistry _ ?_
  have hround : round.session.arena = s.arena := by
    rw [← arena_consulting evaluate round, ← heq]
    exact kept_arena.session_leading first
  exact hround ▸ h

theorem asks_start (hregistry : registry.Asks) (h : s.arena.BuiltWith registry) :
    Consults consultingBehind fun evaluate => (s.consulting evaluate).start := by
  by_cases hphase : s.phase = .uninitialized
  · let fresh := { s with phase := .running, failedGuards := [] }
    have hsame (s : Session) : SameRun s (s.enterAll fresh.arena.initialStates) :=
      let h := sameStates_enterAll (s := s) fresh.arena.initialStates
      ⟨h.model, h.config, h.evaluate, h.phase⟩
    have hstart := asks_comp (s := fresh) (g := fun r => r.macrostep [])
      (asks_enterAll (s := fresh) hregistry h fresh.arena.initialStates) hsame
      fun r hr => asks_macrostep hregistry (hr ▸ h) []
    exact hstart.congr fun evaluate => if_pos hphase
  · exact .pure (some .alreadyStarted, s) fun _ => if_neg hphase

theorem asks_process (hregistry : registry.Asks) (h : s.arena.BuiltWith registry)
    (event : Event) : Consults consultingBehind fun evaluate =>
      (s.consulting evaluate).process event := by
  let before := (s.data.get? DataModel.eventVariable).getD .null
  refine (asks_select (s := s.receive event) (some event)).bind (fun _ found =>
    (if found.1.isEmpty && found.2.pending.isNone && found.2.internal.isEmpty then
      (none, { found.2 with
        data := found.2.data.declare DataModel.eventVariable before }.checkFinal)
    else found.2.macrostep found.1 : Result)) fun found ⟨evaluate, heq⟩ => ?_
  let forgotten := { found.2 with data := found.2.data.declare DataModel.eventVariable before }
  by_cases hidle : (found.1.isEmpty && found.2.pending.isNone && found.2.internal.isEmpty) = true
  · refine .pure (none, forgotten.checkFinal) fun evaluate => (if_pos hidle).trans ?_
    exact congrArg (Prod.mk none) (consulting_checkFinal (s := forgotten))
  · have harena : found.2.arena = s.arena := by
      have hselect := sameView_select (s := (s.receive event).consulting evaluate) (some event)
      rw [heq] at hselect
      exact hselect.arena
    exact (asks_macrostep hregistry (harena ▸ h) found.1).congr fun evaluate => if_neg hidle

theorem asks_call (hregistry : registry.Asks) (h : s.arena.BuiltWith registry) (c : Call) :
    Consults consultingBehind fun evaluate => (s.consulting evaluate).call c := by
  cases c with
  | start => exact asks_start hregistry h
  | submit event =>
      cases hphase : s.phase with
      | uninitialized =>
          exact .pure (some .notStarted, s) fun evaluate =>
            submit_of_uninitialized (s := s.consulting evaluate) hphase event
      | halted =>
          exact .pure (some .halted, s) fun evaluate =>
            submit_of_halted (s := s.consulting evaluate) hphase event
      | final =>
          exact .pure (none, s.report (ignoredReport event)) fun evaluate =>
            submit_of_final (s := s.consulting evaluate) hphase event
      | running =>
          exact (asks_process hregistry h event).congr fun evaluate =>
            submit_of_running (s := s.consulting evaluate) hphase event

/-- The results of some calls one after the other, whether they succeed or fail. -/
def results (s : Session) : List Call → List Result
  | [] => []
  | c :: rest => s.call c :: (s.call c).2.results rest

theorem asks_results (hregistry : registry.Asks) (h : s.arena.BuiltWith registry)
    (calls : List Call) :
    Consults (fun evaluate => List.map (consultingBehind evaluate)) fun evaluate =>
      (s.consulting evaluate).results calls := by
  induction calls generalizing s with
  | nil => exact .pure [] fun _ => rfl
  | cons c rest ih =>
      refine (asks_call hregistry h c).bind (fun _ result => result :: result.2.results rest)
        fun result ⟨evaluate, heq⟩ => ?_
      have harena : result.2.arena = s.arena := by
        have hchart := Moves.sameChart (moves_call (s := s.consulting evaluate) c)
        rw [heq] at hchart
        exact congrArg Model.arena hchart.model
      exact (ih (harena ▸ h)).bind (fun evaluate later => consultingBehind evaluate result :: later)
        fun later _ => .pure (result :: later) fun _ => rfl

/-- An evaluator with a cache answers every question as by reading its text afresh, and its cache
holds the texts that were asked for and are expressions.  So the results of a run are the same
with a fresh evaluator and with one that was asked other things before. -/
theorem cache_unnoticed (hregistry : registry.Asks) {doc : Document} {model : Model}
    (hbuild : Model.build doc registry = .ok model) :
    (∀ past, Cache.Transparent past) ∧
      ∀ config calls, ∃ q : Inquiry (List Result),
        (∀ evaluate, (ofModel model config evaluate).results calls =
          (q.answered evaluate).map (consultingBehind evaluate)) ∧
        ∀ past, (q.through (Cache.after past)).1 = (q.through Cache.empty).1 ∧
          (q.through (Cache.after past)).1 = q.answered .standard ∧
          ∃ more, (q.through (Cache.after past)).2 = Cache.after (past ++ more) := by
  refine ⟨Cache.transparent, fun config calls => ?_⟩
  obtain ⟨q, hq⟩ := asks_results (s := ofModel model config .standard) hregistry
    (Model.builtWith_of_build hbuild) calls
  refine ⟨q, hq, fun past => ?_⟩
  have hfresh : q.through Cache.empty = _ := Cache.through_after [] q
  rw [hfresh, Cache.through_after]
  exact ⟨rfl, rfl, _, rfl⟩

/-- A run with actions of a host and guards that fail, and two texts that differ in a blank. -/
theorem cache_unnoticed_greeter :
    (Stock.registry "stock").Asks ∧
      Model.build greeter (Stock.registry "stock") = .ok greeterModel ∧
      (∀ past, Cache.Transparent past) ∧
      (Cache.after [.condition "1" .empty, .value "1 " .empty, .value "1" .empty,
        .value "1 +" .empty]).size = 2 ∧
      ∀ config calls, ∃ q : Inquiry (List Result),
        (∀ evaluate, (ofModel greeterModel config evaluate).results calls =
          (q.answered evaluate).map (consultingBehind evaluate)) ∧
        ∀ past, (q.through (Cache.after past)).1 = (q.through Cache.empty).1 ∧
          (q.through (Cache.after past)).1 = q.answered .standard ∧
          ∃ more, (q.through (Cache.after past)).2 = Cache.after (past ++ more) := by
  obtain ⟨htransparent, hruns⟩ := cache_unnoticed (Stock.asks_registry "stock") build_greeter
  exact ⟨Stock.asks_registry "stock", build_greeter, htransparent, by decide +kernel, hruns⟩

end Session
end Statechart
