import Statechart.Proofs.Session.Lifecycle
import Statechart.Proofs.Session.Unread

/-!
# The bound on microsteps

Under any bound a call goes through the same rounds.  A lower bound can only stop it
earlier, and a call that it does not stop ends in the same way under a higher one
(`call_withBound`).

What the bound counts are rounds, and there are two kinds of them.  A round may take
transitions, and then it is a microstep; or it takes an event from a queue that
enables nothing (`HasDiscarded`).  A call exceeds the bound exactly if it needs more
rounds, of both kinds together (`bound_counts_rounds`).  So a macrostep can be stopped
that needs fewer microsteps than the bound allows, or none at all
(`exceeds_without_microsteps`).
-/

namespace Statechart

/-- The transitions of a microstep, if that is what is noted. -/
def Note.stepped? : Note → Option (List TransitionRef)
  | stepped ts => some ts
  | _ => none

namespace Session

/-- The session with another bound on microsteps. -/
def withBound (s : Session) (limit : Nat) : Session :=
  { s with config := { s.config with maxMicrosteps := limit } }

/-- The microsteps so far, each with the transitions it took. -/
def microsteps (s : Session) : List (List TransitionRef) :=
  (s.journal.filterMap Note.stepped?).reverse

/-- What up to `n` rounds take, one after the other. -/
def Round.taken : (n : Nat) → Round → List (List TransitionRef)
  | 0, _ => []
  | _ + 1, .over _ => []
  | n + 1, .take ts s => ts :: (Round.next (.take ts s)).taken n

/-- The session was just found to have no transition enabled, neither without an event
nor by the next event in a queue. -/
def HasDiscarded (r : Session) : Prop :=
  ∃ (s q p : Session) (event : Event), s.select none = ([], q) ∧
    q.dequeue = some (event, p) ∧ (p.setEvent event).select (some event) = ([], r)

variable {s r : Session} {c : Call} {limit low high n : Nat} {ts : List TransitionRef}
  {round : Round} {op : Operation}

/-! ## Two bounds -/

theorem withBound_eq_recast : s.withBound limit = s.recast limit [] := by
  simp [withBound, recast]

theorem iterate_next_withBound (n : Nat) :
    Round.next^[n] ((s.withBound limit).firstRound c) =
      (Round.next^[n] (s.firstRound c)).recast limit [] := by
  rw [withBound_eq_recast, recast_firstRound, recast_iterate_next]

/-- If the bound is not exceeded, a higher one makes no difference.  If it is, the call
under the higher bound is where the lower one stops it after as many rounds, and goes
on from there. -/
theorem call_withBound (h : s.Held) (hle : low ≤ high) (c : Call) :
    let lower := s.withBound low
    let higher := s.withBound high
    (∃ n, (lower.firstRound c).EndsAfter low n (lower.call c)) ∧
      ((∀ limit, (lower.call c).1 ≠ some (.microstepLimit limit)) →
        higher.call c = ((lower.call c).1, (lower.call c).2.withBound high)) ∧
      ∀ limit, (lower.call c).1 = some (.microstepLimit limit) →
        limit = low ∧ (lower.call c).2.phase = .halted ∧
          (∀ queue, (lower.call c).2.waiting queue = []) ∧
          ∃ ts r, Round.next^[low] (higher.firstRound c) = .take ts r ∧
            (lower.call c).2.active = r.active ∧
            higher.call c = (Round.take ts r).cut (high - low) := by
  intro lower higher
  have hlower : lower.call c = (lower.firstRound c).cut low := call_eq_cut c
  have hhigher : higher.call c = (higher.firstRound c).cut high := call_eq_cut c
  have hfails : FailsOnly lower := h.failsOnly.of_eq rfl
  have hexceeds (limit : Nat) : (lower.call c).1 = some (.microstepLimit limit) ↔
      limit = low ∧ ∃ ts r, Round.next^[low] (lower.firstRound c) = .take ts r :=
    exceeds_iff hfails c limit
  have hlow : Round.next^[low] (lower.firstRound c) =
      (Round.next^[low] (s.firstRound c)).recast low [] := iterate_next_withBound low
  have hhigh : Round.next^[low] (higher.firstRound c) =
      (Round.next^[low] (s.firstRound c)).recast high [] := iterate_next_withBound low
  refine ⟨?_, ?_⟩
  · rw [hlower]
    exact Round.endsAfter_cut _ _
  rcases hround : Round.next^[low] (s.firstRound c) with result | ⟨ts, r⟩
  all_goals rw [hround] at hlow hhigh
  · -- the macrostep is over in time
    have hover : lower.call c = Result.recast result low [] :=
      hlower.trans (Round.cut_of_over hlow (Nat.le_refl low))
    refine ⟨fun _ => ?_, fun limit hlimit => ?_⟩
    · rw [hhigher, Round.cut_of_over hhigh hle, hover]
      simp [Result.recast, recast, withBound]
    · obtain ⟨-, ts, r, htake⟩ := (hexceeds limit).1 hlimit
      cases hlow.symm.trans htake
  · -- another round is due
    have hhalt : lower.call c = (r.recast low []).halt :=
      hlower.trans (Round.cut_of_take hlow)
    refine ⟨fun hnot => ?_, fun limit hlimit => ?_⟩
    · exact absurd ((hexceeds low).2 ⟨rfl, _, _, hlow⟩) (hnot low)
    · have hsplit : higher.call c = (Round.next^[low] (higher.firstRound c)).cut (high - low) := by
        rw [hhigher, ← Round.cut_add, Nat.add_sub_cancel' hle]
      rw [hhigh] at hsplit
      rw [hhalt]
      refine ⟨((hexceeds limit).1 hlimit).1, rfl, fun queue => ?_, ts, r.recast high [], hhigh,
        rfl, hsplit⟩
      cases queue <;> rfl

/-- Three states in a row, the first two of which are left at once. -/
def stairs : Document where
  states :=
    [.state { id := "a", transitions := [{ target := some "b" }] } [],
     .state { id := "b", transitions := [{ target := some "c" }] } [],
     .state { id := "c" } []]

/-- The model of `stairs`. -/
def stairsModel : Model := (Model.build stairs .empty).toOption.getD default

theorem build_stairs : Model.build stairs .empty = .ok stairsModel := rfl

/-- Two microsteps are enough for the chart, and one is not. -/
theorem call_withBound_stairs :
    let s := ofModel stairsModel {} .standard
    s.Held ∧ 1 ≤ 2 ∧ 2 ≤ 3 ∧
      ((s.withBound 1).call .start).1 = some (.microstepLimit 1) ∧
      ((s.withBound 1).call .start).2.active = [2] ∧
      (∃ ts r, Round.next^[1] ((s.withBound 2).firstRound .start) = .take ts r ∧
        r.active = [2]) ∧
      ((s.withBound 2).call .start).1 = none ∧
      (s.withBound 3).call .start = (none, ((s.withBound 2).call .start).2.withBound 3) := by
  intro s
  have hheld : s.Held := .fresh build_stairs _ _
  have hlimit : ((s.withBound 1).call .start).1 = some (.microstepLimit 1) := by decide +kernel
  have hactive : ((s.withBound 1).call .start).2.active = [2] := by decide +kernel
  have hok : ((s.withBound 2).call .start).1 = none := by decide +kernel
  have hone : 1 ≤ 2 := by decide
  have htwo : 2 ≤ 3 := by decide
  obtain ⟨-, -, -, ts, r, hround, hsame, -⟩ := (call_withBound hheld hone .start).2.2 1 hlimit
  have hequal := (call_withBound hheld htwo .start).2.1 fun limit hlimit => by
    cases hok.symm.trans hlimit
  rw [hok] at hequal
  exact ⟨hheld, hone, htwo, hlimit, hactive, ⟨ts, r, hround, hsame.symm.trans hactive⟩, hok,
    hequal⟩

/-! ## What rounds take -/

theorem Round.taken_succ (round : Round) (n : Nat) :
    (round.taken (n + 1)).take n = round.taken n := by
  induction n generalizing round with
  | zero => exact List.take_zero
  | succ n ih =>
      rcases round with result | ⟨ts, s⟩
      · rfl
      · exact congrArg (ts :: ·) (ih _)

/-- There is another round exactly if there is something more that rounds take. -/
theorem Round.length_taken_iff :
    (round.taken (n + 1)).length = n + 1 ↔ ∃ ts r, Round.next^[n] round = .take ts r := by
  induction n generalizing round with
  | zero =>
      rcases round with result | ⟨ts, s⟩
      · refine ⟨fun hlength => (Nat.succ_ne_zero 0 hlength.symm).elim, ?_⟩
        rintro ⟨ts, r, htake⟩
        cases htake
      · exact ⟨fun _ => ⟨ts, s, rfl⟩, fun _ => rfl⟩
  | succ n ih =>
      rcases round with result | ⟨ts, s⟩
      · refine ⟨fun hlength => (Nat.succ_ne_zero _ hlength.symm).elim, ?_⟩
        rintro ⟨ts, r, htake⟩
        rw [iterate_next_over] at htake
        cases htake
      · rw [Function.iterate_succ_apply, ← ih]
        exact Nat.succ_inj

theorem discarded_round (h : s.round = .take [] r) : HasDiscarded r := by
  have hfound := s.found_round
  rw [h] at hfound
  generalize hts : ([] : List TransitionRef) = ts at hfound
  cases hfound with
  | enabled _ _ hne => exact absurd hts.symm hne
  | @enabledFor event q _ _ hempty hdequeue _ =>
      exact ⟨s, (s.select none).2, q, event, Prod.ext hempty rfl, hdequeue, Prod.ext hts.symm rfl⟩

theorem discarded_leading {first : List TransitionRef} (h : s.leading first = .take [] r) :
    HasDiscarded r := by
  unfold leading at h
  split at h
  · cases h
  split at h
  · exact discarded_round h
  · next hne =>
    cases h
    exact absurd rfl hne

theorem discarded_firstRound (h : s.firstRound c = .take [] r) : HasDiscarded r := by
  have hbegins := s.begins_firstRound c
  generalize s.firstRound c = round at hbegins h
  cases hbegins with
  | start _ => exact discarded_leading h
  | process _ _ _ => exact discarded_leading h
  | _ => cases h

theorem discarded_iterate_next (h : Round.next^[n] (s.firstRound c) = .take [] r) :
    HasDiscarded r := by
  cases n with
  | zero => exact discarded_firstRound h
  | succ n =>
      rw [Function.iterate_succ_apply'] at h
      rcases hround : Round.next^[n] (s.firstRound c) with result | ⟨ts, q⟩
      all_goals rw [hround] at h
      · cases h
      · unfold Round.next at h
        dsimp only at h
        split at h
        · cases h
        · exact discarded_round h

/-! ## Counting microsteps -/

theorem microsteps_note {entry : Note} (h : entry.stepped? = none) :
    (s.note entry).microsteps = s.microsteps :=
  congrArg List.reverse (List.filterMap_cons_none h)

theorem microsteps_fail (message : String) (error : ExecutionError) :
    (s.fail message error).microsteps = s.microsteps := by
  unfold fail
  split
  · exact microsteps_note rfl
  · rfl

theorem microsteps_absorb (outcome : Outcome) :
    (s.absorb outcome).microsteps = s.microsteps :=
  congrArg List.reverse (filterMap_journal_absorb (fun _ _ => rfl) outcome)

theorem microsteps_runContent (block : Block) (state : Nat) (actions : List Action) :
    (s.runContent block state actions).microsteps = s.microsteps := by
  have hran : (s.note (.ran block s.active)).microsteps = s.microsteps := microsteps_note rfl
  unfold runContent
  split
  · rfl
  dsimp only
  split
  · exact hran
  · split
    · exact (microsteps_absorb _).trans hran
    · refine (microsteps_fail _ _).trans ?_
      exact (microsteps_note rfl).trans ((microsteps_absorb _).trans hran)

theorem microsteps_guardHolds (t : TransitionRef) (cond : Option String) :
    (s.guardHolds t cond).2.microsteps = s.microsteps := by
  unfold guardHolds
  split
  · rfl
  · split
    · rfl
    · split
      · rfl
      · exact (microsteps_fail _ _).trans (microsteps_note rfl)

theorem microsteps_perform (h : op.IsLooking ∨ op.IsMoving) :
    (s.perform op).microsteps = s.microsteps := by
  cases op with
  | test t => exact microsteps_guardHolds t _
  | select event ts => exact microsteps_note rfl
  | run block => exact microsteps_runContent _ _ _
  | leave i => exact microsteps_note rfl
  | arrive i => exact microsteps_note rfl
  | conclude => rfl
  | complete i => exact (microsteps_note rfl).trans (microsteps_note rfl)
  | _ => exact (h.elim id id).elim

theorem microsteps_select (event : Option Event) :
    (s.select event).2.microsteps = s.microsteps := by
  rw [← performAll_looking]
  exact performAll_keeps microsteps fun op hop _ =>
    microsteps_perform (.inl (isLooking_looking event op hop))

theorem microsteps_enterAll (states : StateSet) :
    (s.enterAll states).microsteps = s.microsteps := by
  rw [← performAll_enteringAll]
  exact performAll_keeps microsteps fun op hop _ =>
    microsteps_perform (.inr (isMoving_enteringAll states op hop))

theorem microsteps_microstep (ts : List TransitionRef) :
    (s.microstep ts).microsteps = s.microsteps ++ [ts] := by
  obtain ⟨ops, hops, hmoving⟩ := stepping_eq (s := s) ts
  have htake : (s.perform (.take ts)).microsteps = s.microsteps ++ [ts] := by
    show ((ts :: s.journal.filterMap Note.stepped?)).reverse = _
    rw [List.reverse_cons]
    rfl
  rw [← performAll_stepping, hops, performAll_cons, ← htake]
  exact performAll_keeps microsteps fun op hop _ => microsteps_perform (.inr (hmoving op hop))

theorem microsteps_takeAll (ts : List TransitionRef) :
    (s.takeAll ts).microsteps = s.microsteps ++ [ts].filter (!·.isEmpty) := by
  cases ts with
  | nil => exact (List.append_nil _).symm
  | cons t rest => exact microsteps_microstep (t :: rest)

/-- Looking for a round is not a microstep. -/
theorem kept_microsteps : Kept microsteps where
  select _ event := microsteps_select event
  dequeue h := by
    unfold Session.dequeue at h
    split at h
    · cases h
      exact microsteps_note rfl
    · cases h
      exact microsteps_note rfl
    · cases h
  data _ _ := rfl
  guards _ := rfl
  report _ _ := rfl
  closed _ _ _ _ _ := rfl

theorem microsteps_cut (budget : Nat) (round : Round) :
    (round.cut budget).2.microsteps =
      round.session.microsteps ++ (round.taken budget).filter (!·.isEmpty) := by
  induction budget generalizing round with
  | zero => rcases round with result | ⟨ts, s⟩ <;> exact (List.append_nil _).symm
  | succ budget ih =>
      rcases round with result | ⟨ts, s⟩
      · exact (List.append_nil _).symm
      · have hnext : (Round.next (.take ts s)).session.microsteps =
            s.microsteps ++ [ts].filter (!·.isEmpty) :=
          kept_microsteps.session_next.trans (microsteps_takeAll ts)
        show ((Round.next (.take ts s)).cut budget).2.microsteps = _
        rw [ih, hnext, List.append_assoc, ← List.filter_append]
        rfl

/-- What a call executes are those of its rounds within the bound that take
transitions.  It exceeds the bound exactly if there is another round after these, and
unless some event was discarded, this is the bound on microsteps. -/
theorem bound_counts_rounds (h : s.Held) (c : Call) :
    let bound := s.config.maxMicrosteps
    let rounds := (s.firstRound c).taken (bound + 1)
    let exceeds := ∃ limit, (s.call c).1 = some (.microstepLimit limit)
    (s.call c).2.microsteps = s.microsteps ++ (rounds.take bound).filter (!·.isEmpty) ∧
      (exceeds ↔ rounds.length = bound + 1) ∧
      (∀ n r, Round.next^[n] (s.firstRound c) = .take [] r → HasDiscarded r) ∧
      (exceeds → [] ∉ rounds → ∃ steps further,
        rounds = steps ++ [further] ∧ steps.length = bound ∧ further ≠ [] ∧
          (s.call c).2.microsteps = s.microsteps ++ steps) := by
  intro bound rounds exceeds
  have hmicrosteps : (s.call c).2.microsteps =
      s.microsteps ++ (rounds.take bound).filter (!·.isEmpty) := by
    have hbegun : s.begun.microsteps = s.microsteps :=
      microsteps_enterAll (s := { s with phase := .running, failedGuards := [] }) _
    rw [call_eq_cut, microsteps_cut, kept_microsteps.session_firstRound hbegun,
      Round.taken_succ]
  have hexceeds : exceeds ↔ rounds.length = bound + 1 := by
    rw [Round.length_taken_iff]
    exact ⟨fun ⟨limit, hlimit⟩ => ((exceeds_iff h.failsOnly c limit).1 hlimit).2,
      fun hround => ⟨bound, (exceeds_iff h.failsOnly c bound).2 ⟨rfl, hround⟩⟩⟩
  refine ⟨hmicrosteps, hexceeds, fun n r => discarded_iterate_next, fun hlimit hall => ?_⟩
  have hlength := hexceeds.1 hlimit
  have hrest : (rounds.drop bound).length = 1 := by
    rw [List.length_drop, hlength, Nat.add_sub_cancel_left]
  obtain ⟨further, hfurther⟩ := List.length_eq_one_iff.1 hrest
  have hsplit : rounds = rounds.take bound ++ [further] := by
    rw [← hfurther, List.take_append_drop]
  have hproper : ∀ ts ∈ rounds, ts ≠ [] := fun ts hts hempty => hall (hempty ▸ hts)
  have hkeeps : (rounds.take bound).filter (!·.isEmpty) = rounds.take bound := by
    refine List.filter_eq_self.2 fun ts hts => ?_
    have hne := hproper ts (List.mem_of_mem_take hts)
    cases ts with
    | nil => exact absurd rfl hne
    | cons t rest => rfl
  refine ⟨rounds.take bound, further, hsplit, ?_, ?_, ?_⟩
  · rw [List.length_take, hlength, Nat.min_eq_left (Nat.le_succ bound)]
  · refine hproper further ?_
    rw [hsplit]
    exact List.mem_append_right _ (List.mem_singleton_self further)
  · rw [hmicrosteps, hkeeps]

/-- No event occurs in this chart, and the bound is reached by two microsteps. -/
theorem bound_counts_rounds_restless :
    let s := ofModel restlessModel { maxMicrosteps := 2 } .standard
    s.Held ∧ ∃ steps further, (s.firstRound .start).taken 3 = steps ++ [further] ∧
      steps.length = 2 ∧ further ≠ [] ∧ (s.call .start).2.microsteps = steps := by
  intro s
  have hheld : s.Held := .fresh build_restless _ _
  have hlimit : (s.call .start).1 = some (.microstepLimit 2) := by decide +kernel
  have hall : [] ∉ (s.firstRound .start).taken 3 := by decide +kernel
  exact ⟨hheld, (bound_counts_rounds hheld .start).2.2.2 ⟨2, hlimit⟩ hall⟩

/-- A state whose entry raises two events that nothing reacts to. -/
def chatty : Document where
  states :=
    [.state { id := "a", onEntry := [.raise "x", .raise "y"] } []]

/-- The model of `chatty`. -/
def chattyModel : Model := (Model.build chatty .empty).toOption.getD default

theorem build_chatty : Model.build chatty .empty = .ok chattyModel := rfl

/-- Discarding the two events exceeds a bound of one, without any microstep.  If it is
allowed, the chart settles, again without any microstep. -/
theorem exceeds_without_microsteps :
    let s := ofModel chattyModel { maxMicrosteps := 1 } .standard
    s.Held ∧ (s.call .start).1 = some (.microstepLimit 1) ∧
      (s.call .start).2.phase = .halted ∧ (s.call .start).2.microsteps = [] ∧
      ((s.withBound 2).call .start).1 = none ∧
      ((s.withBound 2).call .start).2.phase = .running ∧
      ((s.withBound 2).call .start).2.microsteps = [] := by
  intro s
  have hheld : s.Held := .fresh build_chatty _ _
  exact ⟨hheld, by decide +kernel, by decide +kernel, by decide +kernel, by decide +kernel,
    by decide +kernel, by decide +kernel⟩

end Session
end Statechart
