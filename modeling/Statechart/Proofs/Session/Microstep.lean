import Statechart.Proofs.Configuration.Domain
import Statechart.Proofs.Session.Frame

/-!
# What a microstep does to the active states

The active states after a microstep are given by `Arena.nextActive`: what the
transitions leave is taken away and what they enter is added.  Content that runs
on the way has no influence on them, whether it succeeds, fails, or is passed
over because a failure is pending (`sameStates_microstep`).

Of the model only its skeleton counts: the tree, the initial states and the
targets, but no identifier, guard, event or content (`nextActive_skeleton`).

No transition is assumed to be enabled here, and none to be free of conflicts.
-/

namespace Statechart

/-- Adds a state that is entered, unless it is active already. -/
def StateSet.enter (set : StateSet) (i : Nat) : StateSet :=
  if set.contains i then set else set.insert i

/-- The active states after some transitions are taken at once. -/
def Arena.nextActive (arena : Arena) (active : StateSet) (ts : List TransitionRef) : StateSet :=
  (arena.entrySet ts).foldl StateSet.enter
    ((arena.exitSets active ts).reverse.foldl (fun set i => set.erase i) active)

namespace StateSet

variable {set states : StateSet} {x i : Nat}

theorem mem_enter : x ∈ set.enter i ↔ x = i ∨ x ∈ set := by
  unfold enter
  split
  · next hmem =>
    rw [List.contains_iff_mem] at hmem
    constructor
    · exact .inr
    · rintro (rfl | hx)
      · exact hmem
      · exact hx
  · exact mem_insert

theorem mem_foldl_enter : x ∈ states.foldl enter set ↔ x ∈ set ∨ x ∈ states := by
  induction states generalizing set with
  | nil => simp
  | cons i rest ih =>
      rw [List.foldl_cons, ih, mem_enter, List.mem_cons, or_comm (a := x = i), or_assoc]

theorem mem_foldl_erase :
    x ∈ states.foldl (fun set i => set.erase i) set ↔ x ∈ set ∧ x ∉ states := by
  induction states generalizing set with
  | nil => simp
  | cons i rest ih =>
      rw [List.foldl_cons, ih, mem_erase, List.mem_cons, not_or, and_assoc]

theorem pairwise_foldl_enter (h : set.Pairwise (· < ·)) :
    (states.foldl enter set).Pairwise (· < ·) := by
  induction states generalizing set with
  | nil => exact h
  | cons i rest ih =>
      apply ih
      unfold enter
      split
      · exact h
      · exact pairwise_insert h

theorem pairwise_foldl_erase (h : set.Pairwise (· < ·)) :
    (states.foldl (fun set i => set.erase i) set).Pairwise (· < ·) := by
  induction states generalizing set with
  | nil => exact h
  | cons i rest ih => exact ih (h.filter _)

end StateSet

namespace Arena

variable {arena : Arena} {active : StateSet} {ts : List TransitionRef} {x : Nat}

theorem mem_nextActive_iff :
    x ∈ arena.nextActive active ts ↔
      (x ∈ active ∧ x ∉ arena.exitSets active ts) ∨ x ∈ arena.entrySet ts := by
  rw [nextActive, StateSet.mem_foldl_enter, StateSet.mem_foldl_erase, List.mem_reverse]

theorem pairwise_nextActive (h : active.Pairwise (· < ·)) :
    (arena.nextActive active ts).Pairwise (· < ·) :=
  StateSet.pairwise_foldl_enter (StateSet.pairwise_foldl_erase h)

end Arena

/-! ## The skeleton of a model -/

/-- A transition without what decides when it is taken and what it runs. -/
def Transition.skeleton (t : Transition) : Transition :=
  { t with event := none, cond := none, actions := [] }

/-- A state without its identifier and its content. -/
def StateNode.skeleton (node : StateNode) : StateNode :=
  { node with
    id := ""
    isAnonymous := false
    onEntry := []
    onExit := []
    transitions := node.transitions.map Transition.skeleton }

/-- The tree, the initial states and the targets of a model. -/
def Arena.skeleton (arena : Arena) : Arena := arena.map StateNode.skeleton

namespace Arena

variable (arena : Arena) (s : Nat)

@[simp] theorem size_skeleton : arena.skeleton.size = arena.size := Array.size_map

@[simp] theorem state_skeleton : arena.skeleton.state s = (arena.state s).skeleton := by
  have hdefault : (default : StateNode).skeleton = default := rfl
  by_cases hs : s < arena.size
  · simp [skeleton, state, Array.getD, hs]
  · have hs' : arena.size ≤ s := Nat.le_of_not_lt hs
    rw [state_of_size_le hs', state_of_size_le (by rwa [size_skeleton]), hdefault]

@[simp] theorem transition_skeleton (t : TransitionRef) :
    arena.skeleton.transition t = (arena.transition t).skeleton := by
  have hdefault : (default : Transition).skeleton = default := rfl
  simp only [transition, state_skeleton, StateNode.skeleton, List.getElem?_map]
  cases (arena.state t.source).transitions[t.position]? with
  | none => exact hdefault.symm
  | some transition => rfl

@[simp] theorem ancestors_skeleton : arena.skeleton.ancestors s = arena.ancestors s := by
  have hfuel : ∀ fuel s, arena.skeleton.ancestorsUpTo fuel s = arena.ancestorsUpTo fuel s := by
    intro fuel
    induction fuel with
    | zero => exact fun _ => rfl
    | succ fuel ih => simp [ancestorsUpTo, StateNode.skeleton, ih]
  exact hfuel s s

@[simp] theorem isDescendant_skeleton (a b : Nat) :
    arena.skeleton.isDescendant a b = arena.isDescendant a b := by
  simp [isDescendant]

@[simp] theorem domain?_skeleton (t : TransitionRef) :
    arena.skeleton.domain? t = arena.domain? t := by
  simp [domain?, commonAncestor, Transition.skeleton, StateNode.skeleton,
    StateNode.isCompound]

@[simp] theorem exitSets_skeleton (active : StateSet) (ts : List TransitionRef) :
    arena.skeleton.exitSets active ts = arena.exitSets active ts := by
  have hset : arena.skeleton.exitSet active = arena.exitSet active := by
    funext t
    simp [exitSet]
  rw [exitSets, exitSets, hset]

theorem enterChildren_skeleton :
    arena.skeleton.enterChildren = arena.enterChildren := by
  funext enter children set
  simp [enterChildren, isCovered]

theorem enterBetween_skeleton :
    arena.skeleton.enterBetween = arena.enterBetween := by
  funext enter i domain set
  simp [enterBetween, between, enterChildren_skeleton, StateNode.skeleton,
    StateNode.isParallel]

theorem enterDefault_skeleton (fuel : Nat) :
    arena.skeleton.enterDefault fuel = arena.enterDefault fuel := by
  induction fuel with
  | zero => rfl
  | succ fuel ih =>
      funext i set
      simp only [enterDefault, state_skeleton, StateNode.skeleton, enterBetween_skeleton,
        enterChildren_skeleton, ih]

@[simp] theorem enterTarget_skeleton :
    arena.skeleton.enterTarget = arena.enterTarget := by
  funext target domain set
  have henter : arena.skeleton.enterState = arena.enterState := by
    funext i set
    rw [enterState, enterState, size_skeleton, enterDefault_skeleton]
  rw [enterTarget, enterTarget, enterBetween_skeleton, henter]

@[simp] theorem entrySet_skeleton (ts : List TransitionRef) :
    arena.skeleton.entrySet ts = arena.entrySet ts := by
  simp [entrySet, Transition.skeleton]

theorem nextActive_skeleton (active : StateSet) (ts : List TransitionRef) :
    arena.skeleton.nextActive active ts = arena.nextActive active ts := by
  simp [nextActive]

end Arena

/-! ## Microsteps -/

namespace Session

variable {s r : Session}

/-- The session with other active states. -/
def withActive (s : Session) (active : StateSet) : Session := { s with active := active }

theorem sameView_complete (i : Nat) : SameView s (s.complete i) :=
  (sameView_note _).trans (sameView_raise _)

theorem sameStates_enteredFinal (parent : Nat) : SameStates s (s.enteredFinal parent) := by
  unfold enteredFinal
  split
  · exact ⟨⟨rfl, rfl, rfl, rfl⟩, rfl⟩
  · have hfirst := (sameView_complete (s := s) parent).toSameStates
    dsimp only
    split
    · exact hfirst
    · split
      · exact hfirst.trans (sameView_complete _).toSameStates
      · exact hfirst

theorem sameStates_enter (i : Nat) : SameStates (s.withActive (s.active.enter i)) (s.enter i) := by
  unfold enter StateSet.enter
  split
  · exact .refl
  have hinsert : SameStates (s.withActive (s.active.insert i))
      ({ s with active := s.active.insert i }.note (.entered i)) := ⟨⟨rfl, rfl, rfl, rfl⟩, rfl⟩
  have hcontent := hinsert.trans
    (sameStates_runContent (.onEntry i) i (s.arena.state i).onEntry)
  dsimp only
  split
  · split
    · exact hcontent
    · exact hcontent.trans (sameStates_enteredFinal _)
  · exact hcontent

theorem sameStates_exit (i : Nat) : SameStates (s.withActive (s.active.erase i)) (s.exit i) := by
  -- content runs while the state is still active
  have hcontent := sameStates_runContent (s := s) (.onExit i) i (s.arena.state i).onExit
  refine ⟨⟨hcontent.model, hcontent.config, hcontent.evaluate, hcontent.phase⟩, ?_⟩
  exact congrArg (StateSet.erase i) hcontent.active

/-- Steps that act on the active states by `change` act by it one after the
other. -/
theorem sameStates_foldl_change {α : Type} {step : Session → α → Session}
    (change : StateSet → α → StateSet)
    (hstep : ∀ s item, SameStates (s.withActive (change s.active item)) (step s item))
    (items : List α) :
    SameStates (s.withActive (items.foldl change s.active)) (items.foldl step s) := by
  induction items generalizing s with
  | nil => exact .refl
  | cons item rest ih =>
      have hhead := hstep s item
      have hrest := ih (s := step s item)
      -- the rest changes what the head has made of the active states
      rw [hhead.active] at hrest
      refine ⟨⟨hrest.model.trans hhead.model, hrest.config.trans hhead.config,
        hrest.evaluate.trans hhead.evaluate, hrest.phase.trans hhead.phase⟩, hrest.active⟩

theorem sameStates_enterAll (states : StateSet) :
    SameStates (s.withActive (states.foldl StateSet.enter s.active)) (s.enterAll states) :=
  sameStates_foldl_change StateSet.enter (fun _ i => sameStates_enter i) states

theorem sameStates_exitAll (states : StateSet) :
    SameStates (s.withActive (states.foldl (fun set i => set.erase i) s.active))
      (states.foldl exit s) :=
  sameStates_foldl_change (fun set i => set.erase i) (fun _ i => sameStates_exit i) states

/-- The part of a microstep before states are entered. -/
def leaveAll (s : Session) (ts : List TransitionRef) : Session :=
  ts.foldl act ((s.arena.exitSets s.active ts).reverse.foldl exit (s.note (.stepped ts)))

theorem sameStates_leaveAll (ts : List TransitionRef) :
    SameStates (s.withActive ((s.arena.exitSets s.active ts).reverse.foldl
      (fun set i => set.erase i) s.active)) (s.leaveAll ts) := by
  have hexit := sameStates_exitAll (s := s.note (.stepped ts))
    (s.arena.exitSets s.active ts).reverse
  have hacts := sameStates_foldl (s := (s.arena.exitSets s.active ts).reverse.foldl exit
    (s.note (.stepped ts))) ts fun s t => sameStates_act (s := s) t
  have hnote : SameStates (s.withActive ((s.arena.exitSets s.active ts).reverse.foldl
      (fun set i => set.erase i) s.active)) ((s.note (.stepped ts)).withActive
      ((s.arena.exitSets s.active ts).reverse.foldl (fun set i => set.erase i) s.active)) :=
    ⟨⟨rfl, rfl, rfl, rfl⟩, rfl⟩
  exact hnote.trans (hexit.trans hacts)

/-- Until states are entered, those are active that are not left. -/
theorem mem_active_leaveAll {x : Nat} {ts : List TransitionRef} :
    x ∈ (s.leaveAll ts).active ↔ x ∈ s.active ∧ x ∉ s.arena.exitSets s.active ts := by
  rw [(sameStates_leaveAll ts).active]
  exact StateSet.mem_foldl_erase.trans (and_congr_right fun _ => by rw [List.mem_reverse])

theorem microstep_eq (ts : List TransitionRef) :
    s.microstep ts = (s.leaveAll ts).enterAll (s.arena.entrySet ts) := by
  have harena : (s.leaveAll ts).arena = s.arena := (sameStates_leaveAll ts).toSameRun.arena
  rw [← harena]
  rfl

/-- A microstep changes the active states by `nextActive`, and of what a run is
about nothing else. -/
theorem sameStates_microstep (ts : List TransitionRef) :
    SameStates (s.withActive (s.arena.nextActive s.active ts)) (s.microstep ts) := by
  have hleave := sameStates_leaveAll (s := s) ts
  have henter := sameStates_enterAll (s := s.leaveAll ts) (s.arena.entrySet ts)
  rw [hleave.active] at henter
  rw [microstep_eq]
  exact ⟨⟨henter.model.trans hleave.model, henter.config.trans hleave.config,
    henter.evaluate.trans hleave.evaluate, henter.phase.trans hleave.phase⟩, henter.active⟩

theorem sameRun_microstep (ts : List TransitionRef) : SameRun s (s.microstep ts) :=
  let h := sameStates_microstep (s := s) ts
  ⟨h.model, h.config, h.evaluate, h.phase⟩

theorem active_microstep (ts : List TransitionRef) :
    (s.microstep ts).active = s.arena.nextActive s.active ts :=
  (sameStates_microstep ts).active

/-- Models with one skeleton take a microstep to the same states. -/
theorem active_microstep_congr (ts : List TransitionRef)
    (hskeleton : r.arena.skeleton = s.arena.skeleton) (hactive : r.active = s.active) :
    (r.microstep ts).active = (s.microstep ts).active := by
  rw [active_microstep, active_microstep, ← Arena.nextActive_skeleton r.arena, hskeleton,
    hactive, Arena.nextActive_skeleton]

end Session
end Statechart
