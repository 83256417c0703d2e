import Mathlib.Data.List.Nodup
import Statechart.Proofs.Arena.Depiction
import Statechart.Proofs.Session.Abort
import Statechart.Proofs.Session.EntryPhase
import Statechart.Proofs.Session.Skip

/-!
# The content that a microstep runs

The journal says which blocks ran, and which states were active when they did.  A microstep
has a schedule of blocks: the exits, the actions of the transitions, the entries.  The
schedule is computed from the active states and the transitions alone.

What is run is the beginning of the schedule, up to a block that aborts (`Follows`), and
the data model is changed by these blocks and by nothing else.  For the transitions that are
selected in a reachable session the schedule has every block once, in document order or in
reverse document order, and around every exit and every entry those states are active that
should be (`content_in_order`).
-/

namespace Statechart

open Arena (root)

/-- The block that ran, with the states that were active then, if that is what is noted. -/
def Note.ran? : Note → Option (Block × StateSet)
  | ran block active => some (block, active)
  | _ => none

/-- The blocks of leaving some states, of some transitions and of entering some states. -/
def blocksOf (exits : List Nat) (ts : List TransitionRef) (entries : List Nat) : List Block :=
  exits.map .onExit ++ (ts.map .onTransition ++ entries.map .onEntry)

/-- The blocks of some items, one after the other, with the states that each of them sees.
Every item changes the active states. -/
def schedule {α : Type} (block : α → Block) (seen change : StateSet → α → StateSet) :
    (active : StateSet) → List α → List (Block × StateSet)
  | _, [] => []
  | active, item :: rest =>
    (block item, seen active item) :: schedule block seen change (change active item) rest

section Schedule

variable {α : Type} {block : α → Block} {seen change : StateSet → α → StateSet}
  {active now : StateSet} {items : List α} {b : Block}

theorem map_fst_schedule :
    (schedule block seen change active items).map Prod.fst = items.map block := by
  induction items generalizing active with
  | nil => rfl
  | cons item rest ih => rw [schedule, List.map_cons, List.map_cons, ih]

/-- What is seen at the turn of an item depends on the items in front of it. -/
theorem exists_of_mem_schedule (h : (b, now) ∈ schedule block seen change active items) :
    ∃ before item rest, items = before ++ item :: rest ∧ b = block item ∧
      now = seen (before.foldl change active) item := by
  induction items generalizing active with
  | nil => cases h
  | cons item rest ih =>
      rcases List.mem_cons.1 h with heq | h
      · obtain ⟨rfl, rfl⟩ := Prod.mk.inj heq
        exact ⟨[], item, rest, rfl, rfl, rfl⟩
      · obtain ⟨before, later, rest, rfl, hb, hnow⟩ := ih h
        exact ⟨item :: before, later, rest, rfl, hb, hnow⟩

end Schedule

namespace Session

/-- The blocks that ran so far, each with the states that were active then.  A block without
actions counts as well. -/
def runs (s : Session) : List (Block × StateSet) :=
  (s.journal.filterMap Note.ran?).reverse

/-- What a block makes of the data model. -/
def dataAfter (s : Session) (data : DataModel) (block : Block) : DataModel :=
  (Action.runBlock ⟨data, s.evaluate, (s.arena.state block.state).id⟩
    (s.arena.content block)).data

/-- Between two sessions some blocks were due.  A first part of them was run, and they
determine the data model; it is all of them unless a failure is pending. -/
structure Follows (s r : Session) (due : List (Block × StateSet)) : Prop
    extends SameRun s r where
  done : ∃ done, done <+: due ∧ r.runs = s.runs ++ done ∧
    r.data = (done.map Prod.fst).foldl s.dataAfter s.data ∧
    (r.pending = none → done = due) ∧ (s.pending.isSome = true → done = [])
  pending : s.pending.isSome = true → r.pending.isSome = true

/-- A block aborts the macrostep: it is run and fails, and failures are not skipped. -/
def Aborts (s : Session) (block : Block) : Prop :=
  s.config.policy = .abort ∧ (s.fault? (.run block)).isSome = true

variable {s r q : Session} {due due' : List (Block × StateSet)} {ts : List TransitionRef}
  {i : Nat} {op o : Operation} {ops : List Operation} {block : Block}

namespace Follows

theorem silent (hrun : SameRun s r) (hruns : r.runs = s.runs) (hdata : r.data = s.data)
    (hpending : r.pending = s.pending) : Follows s r [] where
  toSameRun := hrun
  done := ⟨[], List.prefix_rfl, by rw [hruns, List.append_nil], hdata, fun _ => rfl, fun _ => rfl⟩
  pending h := by rwa [hpending]

theorem trans (h : Follows s r due) (h' : Follows r q due') : Follows s q (due ++ due') where
  toSameRun := h.toSameRun.trans h'.toSameRun
  pending hs := h'.pending (h.pending hs)
  done := by
    obtain ⟨done, hcut, hruns, hdata, hall, hnone⟩ := h.done
    obtain ⟨done', hcut', hruns', hdata', hall', hnone'⟩ := h'.done
    have heffect : r.dataAfter = s.dataAfter := by
      funext data block
      rw [dataAfter, dataAfter, h.evaluate, h.toSameRun.arena]
    refine ⟨done ++ done', ?_, ?_, ?_, fun hq => ?_, fun hs => ?_⟩
    · -- once a failure is pending, nothing of the second part is run
      cases hpending : r.pending with
      | none =>
          rw [hall hpending]
          exact (List.prefix_append_right_inj due).2 hcut'
      | some error =>
          rw [hnone' (by rw [hpending]; rfl), List.append_nil]
          exact hcut.trans (List.prefix_append due due')
    · rw [hruns', hruns, List.append_assoc]
    · rw [hdata', hdata, heffect, List.map_append, List.foldl_append]
    · -- a failure stays pending, so there was none in between
      have hr : r.pending = none := by
        by_contra hne
        have hsome := h'.pending (Option.isSome_iff_ne_none.2 hne)
        rw [hq] at hsome
        cases hsome
      rw [hall hr, hall' hq]
    · rw [hnone hs, hnone' (h.pending hs), List.append_nil]

/-- What is silent can be left out behind a run. -/
theorem then_silent (h : Follows s r due) (h' : Follows r q []) : Follows s q due := by
  have htrans := h.trans h'
  rwa [List.append_nil] at htrans

end Follows

/-! ## One block -/

theorem runs_afterActions (block : Block) :
    (s.afterActions block).runs = s.runs ++ [(block, s.active)] := by
  rw [afterActions, runs, filterMap_journal_absorb (fun _ _ => rfl)]
  exact List.reverse_cons

theorem runs_suffer {note : Note} (hnote : note.ran? = none) (op : Operation) (fault : Fault) :
    (s.suffer op note fault).runs = s.runs := by
  have hnoted : (note :: s.journal).filterMap Note.ran? = s.journal.filterMap Note.ran? :=
    List.filterMap_cons_none hnote
  cases hpolicy : s.config.policy with
  | skip =>
      rw [suffer_of_skip hpolicy]
      exact congrArg List.reverse hnoted
  | abort =>
      rw [suffer_of_abort hpolicy]
      exact congrArg List.reverse hnoted

/-- A block is run exactly if no failure is pending. -/
theorem follows_run (block : Block) :
    Follows s (s.perform (.run block)) [(block, s.active)] where
  toSameRun := (sameStates_runContent block block.state (s.arena.content block)).toSameRun
  pending hs := by rwa [perform_run_of_pending hs]
  done := by
    cases hpending : s.pending with
    | some error =>
        have hbusy : s.pending.isSome = true := by rw [hpending]; rfl
        rw [perform_run_of_pending hbusy]
        refine ⟨[], List.nil_prefix, (List.append_nil _).symm, rfl, fun hnone => ?_, fun _ => rfl⟩
        cases hpending.symm.trans hnone
    | none =>
        have hquiet : (s.afterActions block).data = s.dataAfter s.data block := by
          rw [afterActions, absorb_eq]
          rfl
        have hdone : (s.perform (.run block)).runs = s.runs ++ [(block, s.active)] ∧
            (s.perform (.run block)).data = s.dataAfter s.data block := by
          rw [perform_run hpending]
          split
          · exact ⟨runs_afterActions block, hquiet⟩
          · next error _ =>
            rw [runs_suffer rfl]
            obtain ⟨_, _, _, hsuffer⟩ := (s.afterActions block).suffer_eq
            rw [hsuffer]
            exact ⟨runs_afterActions block, hquiet⟩
        refine ⟨_, List.prefix_rfl, hdone.1, hdone.2, fun _ => rfl, fun hsome => ?_⟩
        cases hsome

/-! ## Exits, actions and entries -/

theorem follows_exit (i : Nat) : Follows s (s.exit i) [(.onExit i, s.active)] :=
  (follows_run (.onExit i)).then_silent (.silent ⟨rfl, rfl, rfl, rfl⟩ rfl rfl rfl)

theorem follows_act (t : TransitionRef) : Follows s (s.act t) [(.onTransition t, s.active)] :=
  follows_run (.onTransition t)

/-- Completion events are no content. -/
theorem follows_enteredFinal (parent : Nat) : Follows s (s.enteredFinal parent) [] := by
  have hcomplete (s : Session) (i : Nat) : Follows s (s.complete i) [] :=
    .silent (sameView_complete i).toSameRun rfl rfl rfl
  unfold enteredFinal
  split
  · exact .silent ⟨rfl, rfl, rfl, rfl⟩ rfl rfl rfl
  dsimp only
  split
  · exact hcomplete s parent
  · split
    · exact (hcomplete s parent).then_silent (hcomplete _ _)
    · exact hcomplete s parent

/-- The state is active when its content runs. -/
theorem follows_enter (hi : i ∉ s.active) :
    Follows s (s.enter i) [(.onEntry i, s.active.enter i)] := by
  have henter : s.active.enter i = s.active.insert i := by
    rw [StateSet.enter, if_neg fun hmem => hi (List.contains_iff_mem.1 hmem)]
  have harrive : Follows s (s.perform (.arrive i)) [] := .silent ⟨rfl, rfl, rfl, rfl⟩ rfl rfl rfl
  have hcontent : Follows s (s.performAll [.arrive i, .run (.onEntry i)])
      [(.onEntry i, s.active.enter i)] := by
    rw [henter]
    exact harrive.trans (follows_run (.onEntry i))
  rw [← performAll_entering, entering, if_neg fun hmem => hi (List.contains_iff_mem.1 hmem)]
  dsimp only
  split
  · split
    · exact hcontent
    · rw [performAll_append, performAll_concluding]
      exact hcontent.then_silent (follows_enteredFinal _)
  · exact hcontent

theorem follows_foldl {α : Type} {step : Session → α → Session} {block : α → Block}
    (change : StateSet → α → StateSet)
    (hstep : ∀ s item, Follows s (step s item) [(block item, s.active)])
    (hactive : ∀ s item, (step s item).active = change s.active item) (items : List α) :
    Follows s (items.foldl step s)
      (schedule block (fun active _ => active) change s.active items) := by
  induction items generalizing s with
  | nil => exact .silent .refl rfl rfl rfl
  | cons item rest ih =>
      have hrest := ih (s := step s item)
      rw [hactive] at hrest
      exact (hstep s item).trans hrest

/-- Of states that are entered none may be active yet. -/
theorem follows_enterAll {states : StateSet} (hnodup : states.Nodup)
    (hfresh : ∀ i ∈ states, i ∉ s.active) :
    Follows s (s.enterAll states)
      (schedule .onEntry StateSet.enter StateSet.enter s.active states) := by
  induction states generalizing s with
  | nil => exact .silent .refl rfl rfl rfl
  | cons i rest ih =>
      obtain ⟨hi, hnodup⟩ := List.nodup_cons.1 hnodup
      obtain ⟨hfirst, hfresh⟩ := List.forall_mem_cons.1 hfresh
      have hactive : (s.enter i).active = s.active.enter i := (sameStates_enter i).active
      have hrest := ih (s := s.enter i) hnodup fun j hj => by
        rw [hactive, StateSet.mem_enter, not_or]
        exact ⟨fun heq => hi (heq ▸ hj), hfresh j hj⟩
      rw [hactive] at hrest
      exact (follows_enter hfirst).trans hrest

/-! ## A microstep -/

/-- The schedule of a microstep. -/
def dueBlocks (s : Session) (ts : List TransitionRef) : List (Block × StateSet) :=
  let kept := (s.leaveAll ts).active
  schedule .onExit (fun active _ => active) (fun active i => active.erase i) s.active
      (s.arena.exitSets s.active ts).reverse ++
    (schedule .onTransition (fun active _ => active) (fun active _ => active) kept ts ++
      schedule .onEntry StateSet.enter StateSet.enter kept (s.arena.entrySet ts))

theorem map_fst_dueBlocks :
    (s.dueBlocks ts).map Prod.fst =
      blocksOf (s.arena.exitSets s.active ts).reverse ts (s.arena.entrySet ts) := by
  rw [dueBlocks, List.map_append, List.map_append, map_fst_schedule, map_fst_schedule,
    map_fst_schedule, blocksOf]

/-- Before anything is entered, states are left and then the transitions act. -/
theorem follows_leaveAll (ts : List TransitionRef) :
    Follows s (s.leaveAll ts)
      (schedule .onExit (fun active _ => active) (fun active i => active.erase i) s.active
          (s.arena.exitSets s.active ts).reverse ++
        schedule .onTransition (fun active _ => active) (fun active _ => active)
          (s.leaveAll ts).active ts) := by
  have hnote : Follows s (s.note (.stepped ts)) [] :=
    .silent (sameView_note _).toSameRun rfl rfl rfl
  have hexits := follows_foldl (s := s.note (.stepped ts)) (fun active i => active.erase i)
    (fun _ => follows_exit) (fun _ i => (sameStates_exit i).active)
    (s.arena.exitSets s.active ts).reverse
  -- content of transitions sees the active states that are left over, all of it the same ones
  have hacts := follows_foldl (s := (s.arena.exitSets s.active ts).reverse.foldl exit
    (s.note (.stepped ts))) (fun active _ => active) (fun _ => follows_act)
    (fun _ t => (sameStates_act t).active) ts
  rw [(sameStates_exitAll _).active] at hacts
  rw [(sameStates_leaveAll ts).active]
  exact (hnote.trans hexits).trans hacts

theorem follows_microstep (hw : s.arena.WellFormed) (hts : Takeable s.arena s.active ts) :
    Follows s (s.microstep ts) (s.dueBlocks ts) := by
  have hnodup : (s.arena.entrySet ts).Nodup := (pairwise_entrySet ts).imp Nat.ne_of_lt
  have hfresh : ∀ i ∈ s.arena.entrySet ts, i ∉ (s.leaveAll ts).active := by
    intro i hi hactive
    obtain ⟨hactive, hkept⟩ := mem_active_leaveAll.1 hactive
    exact hkept (mem_exitSets_of_mem_entrySet hw hts hi hactive)
  have hfollows := (follows_leaveAll ts).trans (follows_enterAll hnodup hfresh)
  rw [List.append_assoc] at hfollows
  rw [microstep_eq]
  exact hfollows

/-! ## What is active around a block -/

theorem exists_of_onExit {active : StateSet} (h : (.onExit i, active) ∈ s.dueBlocks ts) :
    ∃ before rest, (s.arena.exitSets s.active ts).reverse = before ++ i :: rest ∧
      active = before.foldl (fun set j => set.erase j) s.active := by
  rcases List.mem_append.1 h with h | h
  · obtain ⟨before, j, rest, hsplit, hblock, hactive⟩ := exists_of_mem_schedule h
    obtain rfl := Block.onExit.inj hblock
    exact ⟨before, rest, hsplit, hactive⟩
  · rcases List.mem_append.1 h with h | h
    all_goals
      obtain ⟨_, _, _, _, hblock, _⟩ := exists_of_mem_schedule h
      cases hblock

theorem exists_of_onEntry {active : StateSet} (h : (.onEntry i, active) ∈ s.dueBlocks ts) :
    ∃ before rest, s.arena.entrySet ts = before ++ i :: rest ∧
      active = (before.foldl StateSet.enter (s.leaveAll ts).active).enter i := by
  rcases List.mem_append.1 h with h | h
  · obtain ⟨_, _, _, _, hblock, _⟩ := exists_of_mem_schedule h
    cases hblock
  · rcases List.mem_append.1 h with h | h
    · obtain ⟨_, _, _, _, hblock, _⟩ := exists_of_mem_schedule h
      cases hblock
    · obtain ⟨before, j, rest, hsplit, hblock, hactive⟩ := exists_of_mem_schedule h
      obtain rfl := Block.onEntry.inj hblock
      exact ⟨before, rest, hsplit, hactive⟩

theorem pairwise_reverse_exitSets (hsorted : s.active.Pairwise (· < ·)) :
    (s.arena.exitSets s.active ts).reverse.Pairwise fun i j => j < i :=
  List.pairwise_reverse.2 (hsorted.filter _)

section Around

variable {active : StateSet} (hw : s.arena.WellFormed)
include hw

/-- A state is left while it is active, and everything around it is. -/
theorem active_of_onExit (hsorted : s.active.Pairwise (· < ·)) (hlegal : Legal s.arena s.active)
    (h : (.onExit i, active) ∈ s.dueBlocks ts) :
    i ∈ active ∧ ∀ a, s.arena.Below i a → active.On a := by
  obtain ⟨before, rest, hsplit, rfl⟩ := exists_of_onExit h
  have hmem : i ∈ (s.arena.exitSets s.active ts).reverse :=
    hsplit ▸ List.mem_append_right _ List.mem_cons_self
  have hi : i ∈ s.active := (mem_exitSets_iff.1 (List.mem_reverse.1 hmem)).1
  have hdown : (s.arena.exitSets s.active ts).reverse.Pairwise fun i j => j < i :=
    pairwise_reverse_exitSets hsorted
  rw [hsplit] at hdown
  -- what was left before stands behind `i` in the document
  have hkept : ∀ x ∈ s.active, x ≤ i → x ∈ before.foldl (fun set j => set.erase j) s.active := by
    intro x hx hle
    refine StateSet.mem_foldl_erase.2 ⟨hx, fun hbefore => ?_⟩
    have hlt := (List.pairwise_append.1 hdown).2.2 x hbefore i List.mem_cons_self
    exact Nat.not_lt_of_le hle hlt
  refine ⟨hkept i hi (Nat.le_refl i), fun a ha => ?_⟩
  rcases hlegal.on_of_within hw (.inr hi) ha.within with hroot | hactive
  · exact .inl hroot
  · exact .inr (hkept a hactive (Nat.le_of_lt (hw.lt_of_below ha)))

/-- A state is entered when it is active, everything around it is, and nothing inside. -/
theorem active_of_onEntry (hts : Takeable s.arena s.active ts)
    (hlegal : Legal s.arena (s.arena.nextActive s.active ts))
    (h : (.onEntry i, active) ∈ s.dueBlocks ts) :
    i ∈ active ∧ (∀ a, s.arena.Below i a → active.On a) ∧
      ∀ d, s.arena.Below d i → d ∉ active := by
  obtain ⟨before, rest, hsplit, rfl⟩ := exists_of_onEntry h
  have hmem : i ∈ s.arena.entrySet ts := hsplit ▸ List.mem_append_right _ List.mem_cons_self
  have hsorted : (s.arena.entrySet ts).Pairwise (· < ·) := pairwise_entrySet ts
  rw [hsplit] at hsorted
  obtain ⟨-, hlater, hbefore⟩ := List.pairwise_append.1 hsorted
  have hiff : ∀ x, x ∈ (before.foldl StateSet.enter (s.leaveAll ts).active).enter i ↔
      x = i ∨ (x ∈ s.active ∧ x ∉ s.arena.exitSets s.active ts) ∨ x ∈ before := fun x => by
    rw [StateSet.mem_enter, StateSet.mem_foldl_enter, mem_active_leaveAll]
  refine ⟨(hiff i).2 (.inl rfl), fun a ha => ?_, fun d hd hactive => ?_⟩
  · have hafter : i ∈ s.arena.nextActive s.active ts := Arena.mem_nextActive_iff.2 (.inr hmem)
    rcases hlegal.on_of_within hw (.inr hafter) ha.within with hroot | hactive
    · exact .inl hroot
    refine .inr ((hiff a).2 ?_)
    rcases Arena.mem_nextActive_iff.1 hactive with hkept | hentered
    · exact .inr (.inl hkept)
    · -- what is around `i` stands in front of it
      rw [hsplit] at hentered
      rcases List.mem_append.1 hentered with hfirst | hrest
      · exact .inr (.inr hfirst)
      rcases List.mem_cons.1 hrest with heq | hrest
      · exact .inl heq
      · have hlt := (List.pairwise_cons.1 hlater).1 a hrest
        exact absurd (hw.lt_of_below ha) (Nat.lt_asymm hlt)
  · rcases (hiff d).1 hactive with rfl | ⟨hkept, hnot⟩ | hfirst
    · exact hw.not_below_self hd
    · -- what was inside was left, as it lies below the same domain
      obtain ⟨t, ht, hentered⟩ := (mem_entrySet_iff hw hts.hasTransition hts.apart).1 hmem
      obtain ⟨e, he, hie⟩ := below_of_enteredBy hw hentered
      have hde := hw.below_of_below_of_within hd hie.within
      exact hnot (mem_exitSets_iff.2 ⟨hkept, t, ht, e, he, hde⟩)
    · exact Nat.lt_asymm (hbefore d hfirst i List.mem_cons_self) (hw.lt_of_below hd)

end Around

/-! ## When a block aborts -/

theorem performs_cons_iff :
    s.Performs (op :: ops) r o ↔ (r = s ∧ o = op) ∨ (s.perform op).Performs ops r o := by
  constructor
  · rintro ⟨before, after, hsplit, hbefore⟩
    cases before with
    | nil =>
        obtain ⟨rfl, rfl⟩ := List.cons.inj hsplit
        exact .inl ⟨hbefore.symm, rfl⟩
    | cons first before =>
        obtain ⟨rfl, rfl⟩ := List.cons.inj hsplit
        exact .inr ⟨before, after, rfl, hbefore⟩
  · rintro (⟨rfl, rfl⟩ | ⟨before, after, rfl, hbefore⟩)
    · exact ⟨[], ops, rfl, rfl⟩
    · exact ⟨op :: before, after, rfl, hbefore⟩

theorem pending_perform_eq_none_iff :
    (s.perform op).pending = none ↔
      s.pending = none ∧ (s.config.policy = .abort → s.freshFault? op = none) := by
  cases hpolicy : s.config.policy with
  | skip => simp [pending_perform_of_skip hpolicy]
  | abort => simp [pending_perform_of_abort hpolicy]

/-- A failure is pending after some operations exactly if it was before, or one of them
failed and failures are not skipped. -/
theorem pending_performAll_eq_none_iff :
    (s.performAll ops).pending = none ↔ s.pending = none ∧
      ∀ r op, s.Performs ops r op → r.config.policy = .abort → r.freshFault? op = none := by
  induction ops generalizing s with
  | nil =>
      refine (and_iff_left fun r op hperforms => ?_).symm
      obtain ⟨before, after, hsplit, -⟩ := hperforms
      exact absurd hsplit.symm (List.append_ne_nil_of_right_ne_nil _ (List.cons_ne_nil _ _))
  | cons op rest ih =>
      rw [performAll_cons, ih, pending_perform_eq_none_iff, and_assoc]
      refine and_congr_right fun _ => ⟨fun ⟨hfirst, hrest⟩ r o hperforms => ?_, fun h => ⟨?_, ?_⟩⟩
      · rcases performs_cons_iff.1 hperforms with ⟨rfl, rfl⟩ | hperforms
        · exact hfirst
        · exact hrest r o hperforms
      · exact h s op (performs_cons_iff.2 (.inl ⟨rfl, rfl⟩))
      · exact fun r o hperforms => h r o (performs_cons_iff.2 (.inr hperforms))

theorem freshFault?_of_isMoving (h : op.IsMoving) (hrun : ∀ block, op ≠ .run block) :
    s.freshFault? op = none := by
  cases op with
  | run block => exact absurd rfl (hrun block)
  | _ => first | rfl | exact h.elim

/-- No failure is pending after a microstep exactly if none was before and no block
aborts. -/
theorem pending_microstep_eq_none_iff :
    (s.microstep ts).pending = none ↔ s.pending = none ∧
      ∀ r block, s.Performs (s.stepping ts) r (.run block) → ¬ r.Aborts block := by
  -- a microstep evaluates no guards, so only its blocks can fail
  rw [← performAll_stepping, pending_performAll_eq_none_iff]
  refine and_congr_right fun _ =>
    ⟨fun h r block hperforms haborts => ?_, fun h r op hperforms => ?_⟩
  · have hnone : r.fault? (.run block) = none := h r _ hperforms haborts.1
    rw [Aborts, hnone] at haborts
    cases haborts.2
  · intro hpolicy
    by_cases hrun : ∃ block, op = .run block
    · obtain ⟨block, rfl⟩ := hrun
      refine Option.not_isSome_iff_eq_none.1 fun hsome => ?_
      exact h r block hperforms ⟨hpolicy, hsome⟩
    · obtain ⟨before, after, hsplit, -⟩ := hperforms
      obtain ⟨moving, heq, hmoving⟩ := s.stepping_eq ts
      have hmem : op ∈ s.stepping ts := hsplit ▸ List.mem_append_right _ List.mem_cons_self
      rw [heq] at hmem
      rcases List.mem_cons.1 hmem with rfl | hmem
      · rfl
      · exact freshFault?_of_isMoving (hmoving op hmem) fun block hblock => hrun ⟨block, hblock⟩

/-! ## The order of content -/

/-- A microstep leaves the states `exits`, takes the transitions, enters the states
`entries`, and runs the blocks `done`, each while the given states are active. -/
structure ContentInOrder (s : Session) (ts : List TransitionRef) (doc : Document)
    (exits entries : List Nat) (done : List (Block × StateSet)) : Prop where
  left : ∀ i, i ∈ exits ↔ i ∈ s.active ∧ i ∉ (s.leaveAll ts).active
  entered : ∀ i, i ∈ entries ↔ i ∈ (s.microstep ts).active ∧ i ∉ (s.leaveAll ts).active
  /-- In reverse document order, and nothing behind what is around it. -/
  left_order : exits.Pairwise fun i j => doc.position j < doc.position i ∧ ¬ s.arena.Below j i
  taken_order : ts.Pairwise fun t u => doc.position t.source < doc.position u.source ∨
    t.source = u.source ∧ t.position < u.position
  entered_order : entries.Pairwise fun i j =>
    doc.position i < doc.position j ∧ ¬ s.arena.Below i j
  once : (blocksOf exits ts entries).Nodup
  ran : (s.microstep ts).runs = s.runs ++ done
  /-- No other content has a part in what the data model becomes. -/
  data : (s.microstep ts).data = (done.map Prod.fst).foldl s.dataAfter s.data
  cut : done.map Prod.fst <+: blocksOf exits ts entries
  /-- All of them are run, unless a block aborts. -/
  all : (s.microstep ts).pending = none → done.map Prod.fst = blocksOf exits ts entries
  around_exit : ∀ i active, (.onExit i, active) ∈ done →
    i ∈ active ∧ ∀ a, s.arena.Below i a → active.On a
  around_entry : ∀ i active, (.onEntry i, active) ∈ done →
    i ∈ active ∧ (∀ a, s.arena.Below i a → active.On a) ∧ ∀ d, s.arena.Below d i → d ∉ active

theorem nodup_blocksOf {exits entries : List Nat} (hexits : exits.Nodup) (hts : ts.Nodup)
    (hentries : entries.Nodup) : (blocksOf exits ts entries).Nodup := by
  have hexit : (exits.map Block.onExit).Nodup := hexits.map @Block.onExit.inj
  have htransition : (ts.map Block.onTransition).Nodup := hts.map @Block.onTransition.inj
  have hentry : (entries.map Block.onEntry).Nodup := hentries.map @Block.onEntry.inj
  refine List.nodup_append.2 ⟨hexit, List.nodup_append.2 ⟨htransition, hentry, ?_⟩, ?_⟩
  · intro b hb b' hb' heq
    obtain ⟨_, -, rfl⟩ := List.mem_map.1 hb
    obtain ⟨_, -, rfl⟩ := List.mem_map.1 hb'
    cases heq
  · intro b hb b' hb' heq
    obtain ⟨_, -, rfl⟩ := List.mem_map.1 hb
    rcases List.mem_append.1 hb' with hb' | hb'
    all_goals
      obtain ⟨_, -, rfl⟩ := List.mem_map.1 hb'
      cases heq

theorem nodup_of_inDocumentOrder (h : ts.Pairwise InDocumentOrder) : ts.Nodup := by
  refine h.imp fun {t u} htu heq => ?_
  subst heq
  rcases htu with hlt | ⟨-, hlt⟩
  · exact Nat.lt_irrefl _ hlt
  · exact Nat.lt_irrefl _ hlt

/-- States of a configuration are states of the arena. -/
theorem lt_size_of_legal {arena : Arena} {active : StateSet} (h : Legal arena active)
    (hi : i ∈ active) : i < arena.size := by
  obtain ⟨p, hp, -⟩ := h.parent i hi
  exact Arena.lt_size_of_parent hp

theorem mem_exits_iff : i ∈ (s.arena.exitSets s.active ts).reverse ↔
    i ∈ s.active ∧ i ∉ (s.leaveAll ts).active := by
  rw [List.mem_reverse, mem_active_leaveAll, not_and, not_not]
  exact ⟨fun h => ⟨(mem_exitSets_iff.1 h).1, fun _ => h⟩, fun h => h.2 h.1⟩

section Taken

variable {doc : Document} (hw : s.arena.WellFormed) (hlaid : s.arena.LaidOut doc)
  (hsorted : s.active.Pairwise (· < ·)) (hlegal : s.active ≠ [] → Legal s.arena s.active)
  (hts : Takeable s.arena s.active ts)

include hw hlaid in
/-- The order of indices is the order of the document, where a state stands in front of what
is inside of it. -/
theorem order_of_lt {j : Nat} (hj : j < s.arena.size) (hij : i < j) :
    doc.position i < doc.position j ∧ ¬ s.arena.Below i j :=
  ⟨(hlaid.position_lt_iff i j (Nat.lt_trans hij hj) hj).2 hij,
    fun hbelow => Nat.lt_asymm hij (hw.lt_of_below hbelow)⟩

include hlegal in
theorem legal_of_mem (hi : i ∈ s.active) : Legal s.arena s.active :=
  hlegal (List.ne_nil_of_mem hi)

include hw hts

theorem mem_entrySet_iff_active : i ∈ s.arena.entrySet ts ↔
    i ∈ (s.microstep ts).active ∧ i ∉ (s.leaveAll ts).active := by
  rw [active_microstep, Arena.mem_nextActive_iff, mem_active_leaveAll]
  refine ⟨fun h => ⟨.inr h, fun hkept => ?_⟩, fun h => h.1.resolve_left h.2⟩
  exact hkept.2 (mem_exitSets_of_mem_entrySet hw hts h hkept.1)

include hlegal

/-- Nothing is entered before there is a configuration. -/
theorem legal_of_mem_entrySet (hi : i ∈ s.arena.entrySet ts) :
    Legal s.arena (s.arena.nextActive s.active ts) := by
  obtain ⟨t, ht, -⟩ := (mem_entrySet_iff hw hts.hasTransition hts.apart).1 hi
  exact legal_after hw (legal_of_mem hlegal (hts.source_active t ht)) hts
    fun _ => Arena.mem_nextActive_iff

include hlaid hsorted

/-- Transitions that can be taken at once run their content in order. -/
theorem exists_contentInOrder (horder : ts.Pairwise InDocumentOrder) :
    ∃ done, ContentInOrder s ts doc (s.arena.exitSets s.active ts).reverse
      (s.arena.entrySet ts) done := by
  have hactive : ∀ i ∈ s.active, i < s.arena.size := fun i hi =>
    lt_size_of_legal (legal_of_mem hlegal hi) hi
  have hentered : ∀ i ∈ s.arena.entrySet ts, i < s.arena.size := fun i hi =>
    lt_size_of_legal (legal_of_mem_entrySet hw hlegal hts hi)
      (Arena.mem_nextActive_iff.2 (.inr hi))
  have hdown : (s.arena.exitSets s.active ts).reverse.Pairwise fun i j => j < i :=
    pairwise_reverse_exitSets hsorted
  have hup : (s.arena.entrySet ts).Pairwise (· < ·) := pairwise_entrySet ts
  obtain ⟨done, hcut, hran, hdata, hall, -⟩ := (follows_microstep hw hts).done
  refine ⟨done, fun i => mem_exits_iff, fun i => mem_entrySet_iff_active hw hts, ?_, ?_, ?_, ?_,
    hran, hdata, ?_, fun hnone => ?_, fun i active h => ?_, fun i active h => ?_⟩
  · exact hdown.imp_of_mem fun hi _ => order_of_lt hw hlaid (hactive _ (mem_exits_iff.1 hi).1)
  · exact horder.imp_of_mem fun _ hu htu => htu.imp_left fun hlt =>
      (order_of_lt hw hlaid (hactive _ (hts.source_active _ hu)) hlt).1
  · exact hup.imp_of_mem fun _ hj => order_of_lt hw hlaid (hentered _ hj)
  · exact nodup_blocksOf (hdown.imp Nat.ne_of_gt) (nodup_of_inDocumentOrder horder)
      (hup.imp Nat.ne_of_lt)
  · rw [← map_fst_dueBlocks]
    exact hcut.map Prod.fst
  · rw [hall hnone, map_fst_dueBlocks]
  · have hdue : (.onExit i, active) ∈ s.dueBlocks ts := hcut.subset h
    obtain ⟨before, rest, hsplit, -⟩ := exists_of_onExit hdue
    have hi : i ∈ (s.arena.exitSets s.active ts).reverse :=
      hsplit ▸ List.mem_append_right _ List.mem_cons_self
    exact active_of_onExit hw hsorted (legal_of_mem hlegal (mem_exits_iff.1 hi).1) hdue
  · have hdue : (.onEntry i, active) ∈ s.dueBlocks ts := hcut.subset h
    obtain ⟨before, rest, hsplit, -⟩ := exists_of_onEntry hdue
    have hi : i ∈ s.arena.entrySet ts := hsplit ▸ List.mem_append_right _ List.mem_cons_self
    exact active_of_onEntry hw hts (legal_of_mem_entrySet hw hlegal hts hi) hdue

end Taken

/-- A microstep that takes what was selected in a reachable session runs the blocks of the
states that it leaves, of its transitions and of the states that it enters, every one of
them once and in this order.  If a block aborts, then what is run is a first part of this. -/
theorem content_in_order (h : s.Reachable) (event : Option Event) :
    let ts := (s.select event).1
    let q := (s.select event).2
    (∃ doc registry, Model.build doc registry = .ok q.model ∧
      ∃ done, ContentInOrder q ts doc (q.arena.exitSets q.active ts).reverse
        (q.arena.entrySet ts) done) ∧
      ((q.microstep ts).pending = none ↔ q.pending = none ∧
        ∀ r block, q.Performs (q.stepping ts) r (.run block) → ¬ r.Aborts block) := by
  intro ts q
  refine ⟨?_, pending_microstep_eq_none_iff⟩
  have hcoherent : Coherent s := h.coherent
  have hview : SameView s q := sameView_select event
  have harena : q.arena = s.arena := hview.toSameRun.arena
  obtain ⟨doc, registry, hbuild⟩ := h.exists_build
  have hmodel : q.model = s.model := hview.model
  obtain ⟨pre, hstages⟩ := Model.exists_stages hbuild
  refine ⟨doc, registry, hmodel ▸ hbuild, exists_contentInOrder ?_ ?_ ?_ ?_ ?_
    (hcoherent.select_spec event).1⟩
  · rw [harena]
    exact hcoherent.wellFormed
  · rw [arena, hmodel]
    exact hstages.laidOut
  · rw [hview.active]
    exact hcoherent.sorted
  · rw [harena, hview.active]
    exact fun hne => hcoherent.legal fun hidle => hne (hcoherent.idle hidle)
  · rw [harena, hview.active]
    exact hcoherent.takeable_select event

/-- Two compound states; the content of the transition between them fails. -/
def relay : Document where
  datamodel := [("at", .int 0)]
  states :=
    [.state
      { id := "a"
        onExit := [.assign "at" "2"]
        transitions :=
          [{ event := some "go", target := some "b1", actions := [.assign "nowhere" "3"] }] }
      [.state { id := "a1", onExit := [.assign "at" "1"] } []],
     .state { id := "b", onEntry := [.assign "at" "4"] }
      [.state { id := "b1", onEntry := [.assign "at" "5"] } []]]

/-- The model of `relay`. -/
def relayModel : Model := (Model.build relay .empty).toOption.getD default

theorem build_relay : Model.build relay .empty = .ok relayModel := rfl

/-- Inner states are left first and entered last.  If failures are not skipped, then the
actions of the transition are the last to run. -/
theorem content_in_order_relay :
    let s (policy : ErrorPolicy) :=
      (ofModel relayModel { policy := policy } .standard).after [.start]
    let q (policy : ErrorPolicy) := ((s policy).select (some (.plain "go"))).2
    (∀ policy, (s policy).Reachable ∧ ((s policy).select (some (.plain "go"))).1 = [⟨1, 0⟩]) ∧
      (∃ doc, ContentInOrder (q .skip) [⟨1, 0⟩] doc [2, 1] [3, 4]
        [(.onExit 2, [1, 2]), (.onExit 1, [1]), (.onTransition ⟨1, 0⟩, []), (.onEntry 3, [3]),
          (.onEntry 4, [3, 4])]) ∧
      ∃ doc, ContentInOrder (q .abort) [⟨1, 0⟩] doc [2, 1] [3, 4]
        [(.onExit 2, [1, 2]), (.onExit 1, [1]), (.onTransition ⟨1, 0⟩, [])] := by
  intro s q
  have hreachable : ∀ policy, (s policy).Reachable := fun policy =>
    reachable_after_build build_relay _ _ [.start]
  have hselected : ∀ policy, ((s policy).select (some (.plain "go"))).1 = [⟨1, 0⟩] := by
    intro policy
    cases policy <;> decide +kernel
  have hexits : ∀ policy,
      ((q policy).arena.exitSets (q policy).active [⟨1, 0⟩]).reverse = [2, 1] := by
    intro policy
    cases policy <;> decide +kernel
  have hentries : ∀ policy, (q policy).arena.entrySet [⟨1, 0⟩] = [3, 4] := by
    intro policy
    cases policy <;> decide +kernel
  -- the journal tells which of the blocks were run
  have hcontent : ∀ policy ran, ((q policy).microstep [⟨1, 0⟩]).runs = (q policy).runs ++ ran →
      ∃ doc, ContentInOrder (q policy) [⟨1, 0⟩] doc [2, 1] [3, 4] ran := by
    intro policy ran hran
    obtain ⟨⟨doc, _, -, done, hdone⟩, -⟩ :=
      content_in_order (hreachable policy) (some (.plain "go"))
    rw [hselected policy] at hdone
    change ContentInOrder (q policy) _ doc ((q policy).arena.exitSets _ _).reverse _ done at hdone
    rw [hexits policy, hentries policy] at hdone
    obtain rfl := List.append_cancel_left (hran.symm.trans hdone.ran)
    exact ⟨doc, hdone⟩
  exact ⟨fun policy => ⟨hreachable policy, hselected policy⟩, hcontent .skip _ (by decide +kernel),
    hcontent .abort _ (by decide +kernel)⟩

end Session
end Statechart
