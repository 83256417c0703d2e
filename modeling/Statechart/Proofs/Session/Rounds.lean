import Mathlib.Logic.Function.Iterate
import Statechart.Proofs.Session.Stability

/-!
# Rounds

A macrostep goes round by round, and the bound on microsteps is a bound on rounds.
Here rounds are looked at apart from the bound.  `firstRound` is what a call begins
with (`Begins` lists the cases), and `Round.next` is what comes of a round, so
`Round.next^[n]` is where a call has got to after `n` rounds if nothing stops it.

`Round.cut` puts the bound back: it goes on until the macrostep is over, and halts
the session if that takes too many rounds.  A call is nothing but this
(`call_eq_cut`), so how it ends can be read off its rounds (`endsAfter_cut`).

While a round is looked for, guards are evaluated and an event is taken from a
queue.  What depends on none of this (`Kept`) changes only where transitions are
taken.
-/

namespace Statechart
namespace Session

/-- The session that a round has got to. -/
def Round.session : Round → Session
  | .over result => result.2
  | .take _ s => s

/-- What comes of a round: its transitions are taken, and unless that fails the next
round begins. -/
def Round.next : Round → Round
  | .over result => .over result
  | .take ts s =>
    let s := s.takeAll ts
    match s.pending with
    | some error => .over (s.abort error)
    | none => s.round

/-- How a macrostep ends that may go on for some more rounds. -/
def Round.cut : (budget : Nat) → Round → Result
  | _, .over result => result
  | 0, .take _ s => s.halt
  | budget + 1, .take ts s => (Round.next (.take ts s)).cut budget

/-- The macrostep goes on for exactly `n` rounds.  Then it is over, or there is no
budget for another one. -/
structure Round.EndsAfter (round : Round) (budget n : Nat) (result : Result) : Prop where
  le_budget : n ≤ budget
  goes_on : ∀ k < n, ∃ ts s, Round.next^[k] round = .take ts s
  ends : Round.next^[n] round = .over result ∨
    n = budget ∧ ∃ ts s, Round.next^[n] round = .take ts s ∧ result = s.halt

/-- What a macrostep begins with: the given transitions, or those of a round. -/
def leading (s : Session) (first : List TransitionRef) : Round :=
  match s.pending with
  | some error => .over (s.abort error)
  | none => if first.isEmpty then s.round else .take first s

/-- What a call begins with. -/
def firstRound (s : Session) : Call → Round
  | .start =>
    if s.phase = .uninitialized then s.begun.leading [] else .over (some .alreadyStarted, s)
  | .submit event =>
    match s.phase with
    | .running =>
      if s.isIdle event then .over (none, (s.forget event).checkFinal)
      else (s.selectFor event).2.leading (s.selectFor event).1
    | _ => .over (s.submit event)

variable {s r : Session} {c : Call} {result : Result} {round : Round} {ts : List TransitionRef}
  {n budget : Nat}

/-! ## Cutting off -/

@[simp] theorem Round.cut_over : (Round.over result).cut budget = result := by
  cases budget <;> rfl

theorem Round.iterate_next_over : Round.next^[n] (.over result) = .over result :=
  Function.iterate_fixed rfl n

/-- A budget can be spent in two parts. -/
theorem Round.cut_add : round.cut (n + budget) = (Round.next^[n] round).cut budget := by
  induction n generalizing round with
  | zero => rw [Nat.zero_add]; rfl
  | succ n ih =>
      rcases round with result | ⟨ts, s⟩
      · rw [iterate_next_over, cut_over, cut_over]
      · rw [Function.iterate_succ_apply, ← ih, Nat.add_right_comm]
        rfl

theorem Round.cut_of_take (h : Round.next^[budget] round = .take ts s) :
    round.cut budget = s.halt := by
  rw [← Nat.add_zero budget, cut_add, h]
  rfl

theorem Round.cut_of_over (h : Round.next^[n] round = .over result) (hle : n ≤ budget) :
    round.cut budget = result := by
  obtain ⟨rest, rfl⟩ := Nat.exists_eq_add_of_le hle
  rw [cut_add, h, cut_over]

theorem Round.endsAfter_cut (round : Round) (budget : Nat) :
    ∃ n, round.EndsAfter budget n (round.cut budget) := by
  induction budget generalizing round with
  | zero =>
      refine ⟨0, Nat.le_refl 0, fun k hk => absurd hk (Nat.not_lt_zero k), ?_⟩
      rcases round with result | ⟨ts, s⟩
      · exact .inl rfl
      · exact .inr ⟨rfl, ts, s, rfl, rfl⟩
  | succ budget ih =>
      rcases round with result | ⟨ts, s⟩
      · exact ⟨0, Nat.zero_le _, fun k hk => absurd hk (Nat.not_lt_zero k), .inl rfl⟩
      · obtain ⟨n, hle, hgoes, hends⟩ := ih (Round.next (.take ts s))
        refine ⟨n + 1, Nat.succ_le_succ hle, fun k hk => ?_, ?_⟩
        · cases k with
          | zero => exact ⟨ts, s, rfl⟩
          | succ k => exact hgoes k (Nat.lt_of_succ_lt_succ hk)
        · exact hends.imp_right fun ⟨heq, hlast⟩ => ⟨congrArg (· + 1) heq, hlast⟩

/-- Either the budget lasts until the macrostep is over, or the session is halted. -/
theorem Round.cut_cases (round : Round) (budget : Nat) :
    Round.next^[budget] round = .over (round.cut budget) ∨
      ∃ ts s, Round.next^[budget] round = .take ts s ∧ round.cut budget = s.halt := by
  rcases h : Round.next^[budget] round with result | ⟨ts, s⟩
  · exact .inl (congrArg Round.over (cut_of_over h (Nat.le_refl budget)).symm)
  · exact .inr ⟨ts, s, rfl, cut_of_take h⟩

/-! ## Calls are rounds -/

theorem settle_eq_cut (budget : Nat) : settle budget s = s.round.cut budget := by
  induction budget generalizing s with
  | zero =>
      unfold settle
      cases s.round <;> rfl
  | succ budget ih =>
      unfold settle
      rcases s.round with result | ⟨ts, r⟩
      · rfl
      · dsimp only [Round.cut, Round.next]
        cases (r.takeAll ts).pending with
        | some error => exact Round.cut_over.symm
        | none => exact ih

theorem macrostep_eq_cut (first : List TransitionRef) :
    s.macrostep first = (s.leading first).cut s.config.maxMicrosteps := by
  unfold macrostep leading
  cases s.pending with
  | some error => exact Round.cut_over.symm
  | none =>
      dsimp only
      split
      · exact settle_eq_cut _
      · next hne =>
        have htake : s.takeAll first = s.microstep first := if_neg hne
        cases s.config.maxMicrosteps with
        | zero => rfl
        | succ budget =>
            dsimp only [Round.cut, Round.next]
            rw [htake]
            cases (s.microstep first).pending with
            | some error => exact Round.cut_over.symm
            | none => exact settle_eq_cut budget

/-- A call goes on from its first round as long as the bound on microsteps allows. -/
theorem call_eq_cut (c : Call) : s.call c = (s.firstRound c).cut s.config.maxMicrosteps := by
  cases c with
  | start =>
      show s.start = _
      unfold firstRound
      by_cases hs : s.phase = .uninitialized
      · have hconfig : s.begun.config = s.config := sameStates_begun.config
        rw [start_of_uninitialized hs, macrostep_eq_cut, hconfig]
        dsimp only
        rw [if_pos hs]
      · rw [start_of_started hs]
        dsimp only
        rw [if_neg hs, Round.cut_over]
  | submit event =>
      show s.submit event = _
      unfold firstRound
      cases hs : s.phase with
      | running =>
          have hconfig : (s.selectFor event).2.config = s.config :=
            (sameView_select (s := s.receive event) (some event)).config
          rw [submit_of_running hs, process_eq]
          dsimp only
          split
          · exact Round.cut_over.symm
          · rw [macrostep_eq_cut, hconfig]
      | _ => exact Round.cut_over.symm

/-- What a call can begin with. -/
inductive Begins (s : Session) : Call → Round → Prop where
  | start : s.phase = .uninitialized → Begins s .start (s.begun.leading [])
  | started : s.phase ≠ .uninitialized → Begins s .start (.over (some .alreadyStarted, s))
  | unstarted (event : Event) : s.phase = .uninitialized →
    Begins s (.submit event) (.over (some .notStarted, s))
  | halted (event : Event) : s.phase = .halted →
    Begins s (.submit event) (.over (some .halted, s))
  | ignored (event : Event) : s.phase = .final →
    Begins s (.submit event) (.over (none, s.report (ignoredReport event)))
  | idle (event : Event) : s.phase = .running → s.isIdle event = true →
    Begins s (.submit event) (.over (none, (s.forget event).checkFinal))
  | process (event : Event) : s.phase = .running → s.isIdle event = false →
    Begins s (.submit event) ((s.selectFor event).2.leading (s.selectFor event).1)

theorem begins_firstRound (s : Session) (c : Call) : s.Begins c (s.firstRound c) := by
  cases c with
  | start =>
      unfold firstRound
      dsimp only
      split
      · next hs => exact .start hs
      · next hs => exact .started hs
  | submit event =>
      unfold firstRound
      cases hs : s.phase with
      | uninitialized =>
          dsimp only
          rw [submit_of_uninitialized hs]
          exact .unstarted event hs
      | halted =>
          dsimp only
          rw [submit_of_halted hs]
          exact .halted event hs
      | final =>
          dsimp only
          rw [submit_of_final hs]
          exact .ignored event hs
      | running =>
          dsimp only
          split
          · next hidle => exact .idle event hs hidle
          · next hbusy => exact .process event hs (Bool.eq_false_iff.2 hbusy)

/-! ## What is kept while a round is looked for -/

/-- Something that neither guards nor the queues have an influence on. -/
structure Kept {α : Type} (f : Session → α) : Prop where
  select : ∀ s event, f (s.select event).2 = f s
  dequeue : ∀ {s r : Session} {event : Event}, s.dequeue = some (event, r) → f r = f s
  data : ∀ (s : Session) data, f { s with data := data } = f s
  guards : ∀ s : Session, f { s with failedGuards := [] } = f s
  report : ∀ (s : Session) r, f (s.report r) = f s
  closed : ∀ (s : Session) phase pending internal derived,
    f { s with phase := phase, pending := pending, internal := internal, derived := derived } = f s

namespace Kept

variable {α : Type} {f : Session → α} (h : Kept f)
include h

theorem checkFinal : f s.checkFinal = f s := by
  unfold Session.checkFinal
  split
  · exact h.closed s _ _ _ _
  · rfl

theorem abort (error : ExecutionError) : f (s.abort error).2 = f s :=
  h.checkFinal.trans (h.closed s _ _ _ _)

theorem session_round : f s.round.session = f s := by
  have hnext {event : Event} {q : Session}
      (hdequeue : (s.select none).2.dequeue = some (event, q)) :
      f ((q.setEvent event).select (some event)).2 = f s :=
    (h.select _ _).trans ((h.data q _).trans ((h.dequeue hdequeue).trans (h.select s none)))
  have hfound := s.found_round
  generalize s.round = round at hfound ⊢
  cases hfound with
  | complete _ => exact h.checkFinal
  | failed _ _ => exact (h.abort _).trans (h.select s none)
  | enabled _ _ _ => exact h.select s none
  | settled _ _ _ _ => exact h.select s none
  | failedFor _ _ _ hdequeue _ => exact (h.abort _).trans (hnext hdequeue)
  | enabledFor _ _ _ hdequeue _ => exact hnext hdequeue

theorem session_leading (first : List TransitionRef) :
    f (s.leading first).session = f s := by
  unfold Session.leading
  split
  · exact h.abort _
  · split
    · exact h.session_round
    · rfl

theorem session_firstRound (hbegun : f s.begun = f s) (c : Call) :
    f (s.firstRound c).session = f s := by
  have hselected (event : Event) : f (s.selectFor event).2 = f s :=
    (h.select _ _).trans ((h.data _ _).trans (h.guards s))
  have hbegins := s.begins_firstRound c
  generalize s.firstRound c = round at hbegins ⊢
  cases hbegins with
  | start _ => exact (h.session_leading []).trans hbegun
  | started _ => rfl
  | unstarted _ _ => rfl
  | halted _ _ => rfl
  | ignored _ _ => exact h.report s _
  | idle event _ _ => exact h.checkFinal.trans ((h.data _ _).trans (hselected event))
  | process event _ _ => exact (h.session_leading _).trans (hselected event)

/-- Taking transitions is all that matters in going on to the next round. -/
theorem session_next : f (Round.next (.take ts s)).session = f (s.takeAll ts) := by
  unfold Round.next
  dsimp only
  split
  · exact h.abort _
  · exact h.session_round

end Kept

/-- Nothing but the host changes the configuration of a session. -/
theorem kept_config : Kept config where
  select _ event := (sameView_select event).config
  dequeue h := (sameStates_dequeue h).config
  data _ _ := rfl
  guards _ := rfl
  report _ _ := rfl
  closed _ _ _ _ _ := rfl

theorem config_iterate_next (c : Call) (n : Nat) :
    (Round.next^[n] (s.firstRound c)).session.config = s.config := by
  induction n with
  | zero => exact kept_config.session_firstRound sameStates_begun.config c
  | succ n ih =>
      rw [Function.iterate_succ_apply']
      rcases hround : Round.next^[n] (s.firstRound c) with result | ⟨ts, r⟩
      · rwa [hround] at ih
      · rw [hround] at ih
        exact kept_config.session_next.trans ((sameRun_takeAll ts).config.trans ih)

end Session
end Statechart
