import Statechart.Proofs.Session.Queues

/-!
# Operations

A call consists of operations of a few kinds.  Events come in, guards are
evaluated, blocks of content run, and states are left and entered.
`Session.perform` performs one operation.

For each function of the engine up to selections and microsteps the operations
are listed that it consists of, in the order in which they are performed, and
performing them is shown to come to the same (`performAll_looking`,
`performAll_stepping`, `performAll_beginning`).  So a moment in the middle of a
microstep is the session that a first part of its operations leads to.

How a call goes on after its operations is not the subject of this file.
-/

namespace Statechart

/-- The state that a block of content belongs to. -/
def Block.state : Block → Nat
  | onExit state => state
  | onTransition t => t.source
  | onEntry state => state

/-- The actions of a block. -/
def Arena.content (arena : Arena) : Block → List Action
  | .onExit state => (arena.state state).onExit
  | .onTransition t => (arena.transition t).actions
  | .onEntry state => (arena.state state).onEntry

/-- The operations of the engine within a call. -/
inductive Operation where
  /-- A chart starts. -/
  | begin
  /-- An event comes from outside. -/
  | receive (event : Event)
  /-- An event is taken from a queue. -/
  | dequeue
  /-- An event that enables nothing is forgotten. -/
  | restore (v : Value)
  /-- The guard of a transition is evaluated. -/
  | test (t : TransitionRef)
  /-- It is decided which transitions are selected. -/
  | select (event : Option Event) (ts : List TransitionRef)
  /-- A microstep takes transitions. -/
  | take (ts : List TransitionRef)
  /-- A block of content runs, unless a failure is pending. -/
  | run (block : Block)
  /-- A state is no longer active. -/
  | leave (state : Nat)
  /-- A state is active from now on. -/
  | arrive (state : Nat)
  /-- A top-level final state was entered. -/
  | conclude
  /-- The completion event of a state is raised. -/
  | complete (state : Nat)
  /-- A complete chart ignores an event. -/
  | ignore (event : Event)

namespace Operation

/-- The operations of a selection. -/
def IsLooking : Operation → Prop
  | test _ => True
  | select _ _ => True
  | _ => False

/-- The operations of a microstep after its beginning. -/
def IsMoving : Operation → Prop
  | run _ => True
  | leave _ => True
  | arrive _ => True
  | conclude => True
  | complete _ => True
  | _ => False

end Operation

namespace Session

/-- Performs an operation. -/
def perform (s : Session) : Operation → Session
  | .begin => { s with phase := .running, failedGuards := [] }
  | .receive event => s.receive event
  | .dequeue =>
    match s.dequeue with
    | none => s
    | some (event, r) => r.setEvent event
  | .restore v => { s with data := s.data.declare DataModel.eventVariable v }
  | .test t => (s.guardHolds t (s.arena.transition t).cond).2
  | .select event ts => s.note (.selected event ts)
  | .take ts => s.note (.stepped ts)
  | .run block => s.runContent block block.state (s.arena.content block)
  | .leave i => { s with active := s.active.erase i }.note (.exited i)
  | .arrive i => { s with active := s.active.insert i }.note (.entered i)
  | .conclude => { s with isTopFinal := true }
  | .complete i => s.complete i
  | .ignore event => s.report (ignoredReport event)

/-- Performs operations one after the other. -/
def performAll (s : Session) (ops : List Operation) : Session := ops.foldl perform s

variable {s : Session} {op : Operation} {ops later : List Operation}

@[simp] theorem performAll_nil : s.performAll [] = s := rfl

@[simp] theorem performAll_cons :
    s.performAll (op :: ops) = (s.perform op).performAll ops := rfl

@[simp] theorem performAll_append :
    s.performAll (ops ++ later) = (s.performAll ops).performAll later :=
  List.foldl_append

/-- What none of the operations changes stays as it is. -/
theorem performAll_keeps {α : Type} (f : Session → α)
    (h : ∀ op ∈ ops, ∀ s, f (perform s op) = f s) : f (s.performAll ops) = f s := by
  induction ops generalizing s with
  | nil => rfl
  | cons op rest ih =>
      obtain ⟨hfirst, hrest⟩ := List.forall_mem_cons.1 h
      exact (ih hrest).trans (hfirst s)

/-- Performing what each of some items consists of. -/
theorem performAll_flatMap {α : Type} {step : Session → α → Session}
    {consists : α → List Operation} (items : List α)
    (h : ∀ s item, performAll s (consists item) = step s item) :
    s.performAll (items.flatMap consists) = items.foldl step s := by
  induction items generalizing s with
  | nil => rfl
  | cons item rest ih =>
      rw [List.flatMap_cons, performAll_append, h, ih]
      rfl

/-! ## Selections -/

/-- The guards that are evaluated at a state, from some position on. -/
def testingAt (s : Session) (event : Option Event) (source position : Nat) :
    List Transition → List Operation
  | [] => []
  | t :: rest =>
    if t.fits event then
      match s.guardHolds ⟨source, position⟩ t.cond with
      | (true, _) => [.test ⟨source, position⟩]
      | (false, s) => .test ⟨source, position⟩ :: s.testingAt event source (position + 1) rest
    else s.testingAt event source (position + 1) rest

/-- The guards that are evaluated along some states. -/
def testingAlong (s : Session) (event : Option Event) : List Nat → List Operation
  | [] => []
  | source :: rest =>
    let ops := s.testingAt event source 0 (s.arena.state source).transitions
    match s.chooseAt event source 0 (s.arena.state source).transitions with
    | (some _, _) => ops
    | (none, s) => ops ++ s.testingAlong event rest

/-- The guards that are evaluated for some leaves. -/
def testingAll (s : Session) (event : Option Event) : List Nat → List Operation
  | [] => []
  | leaf :: rest =>
    let path := leaf :: s.arena.ancestors leaf
    s.testingAlong event path ++ (s.chooseAlong event path).2.testingAll event rest

/-- The operations of a selection. -/
def looking (s : Session) (event : Option Event) : List Operation :=
  s.testingAll event s.leaves ++ [.select event (s.select event).1]

/-- The transitions stand in this order in the model, from some position on. -/
theorem performAll_testingAt (event : Option Event) {source position : Nat}
    {ts : List Transition}
    (hts : ∀ k t, ts[k]? = some t →
      (s.arena.state source).transitions[position + k]? = some t) :
    s.performAll (s.testingAt event source position ts) =
      (s.chooseAt event source position ts).2 := by
  induction ts generalizing s position with
  | nil => rfl
  | cons t rest ih =>
      have hget : (s.arena.state source).transitions[position]? = some t := hts 0 t rfl
      have hcond : (s.arena.transition ⟨source, position⟩).cond = t.cond := by
        simp [Arena.transition, hget]
      have hrest : ∀ k u, rest[k]? = some u →
          (s.arena.state source).transitions[position + 1 + k]? = some u := by
        intro k u hu
        rw [Nat.add_assoc, Nat.add_comm 1 k]
        exact hts (k + 1) u hu
      have htest : s.perform (.test ⟨source, position⟩) =
          (s.guardHolds ⟨source, position⟩ t.cond).2 := by
        rw [perform, hcond]
      have hview := sameView_guardHolds (s := s) ⟨source, position⟩ t.cond
      unfold testingAt chooseAt
      split
      · rcases hguard : s.guardHolds ⟨source, position⟩ t.cond with ⟨_ | _, r⟩
        all_goals rw [hguard] at htest hview
        · dsimp only
          rw [performAll_cons, htest]
          refine ih ?_
          rw [hview.toSameRun.arena]
          exact hrest
        · exact htest
      · exact ih hrest

theorem performAll_testingAlong (event : Option Event) (path : List Nat) :
    s.performAll (s.testingAlong event path) = (s.chooseAlong event path).2 := by
  induction path generalizing s with
  | nil => rfl
  | cons source rest ih =>
      have hat : s.performAll (s.testingAt event source 0 (s.arena.state source).transitions) =
          (s.chooseAt event source 0 (s.arena.state source).transitions).2 :=
        performAll_testingAt event fun k t h => by rwa [Nat.zero_add]
      unfold testingAlong chooseAlong
      dsimp only
      rcases hchoose : s.chooseAt event source 0 (s.arena.state source).transitions with ⟨_ | t, r⟩
      all_goals rw [hchoose] at hat
      · dsimp only
        rw [performAll_append, hat, ih]
      · exact hat

theorem performAll_testingAll (event : Option Event) (chosen : List TransitionRef)
    (leaves : List Nat) :
    s.performAll (s.testingAll event leaves) = (s.chooseAll event chosen leaves).2 := by
  induction leaves generalizing s chosen with
  | nil => rfl
  | cons leaf rest ih =>
      have halong := performAll_testingAlong (s := s) event (leaf :: s.arena.ancestors leaf)
      unfold testingAll chooseAll
      dsimp only
      rw [performAll_append, halong]
      split
      · next heq =>
        rw [heq]
        exact ih chosen
      · next heq =>
        rw [heq]
        exact ih _

theorem performAll_looking (event : Option Event) :
    s.performAll (s.looking event) = (s.select event).2 := by
  rw [looking, performAll_append, performAll_testingAll event []]
  rfl

/-! ## Microsteps -/

/-- What follows the entry of a final state with the given parent. -/
def concluding (s : Session) (parent : Nat) : List Operation :=
  if parent = Arena.root then [.conclude]
  else
    match (s.arena.state parent).parent with
    | none => [.complete parent]
    | some around =>
      let node := s.arena.state around
      if node.isParallel && node.children.all (s.complete parent).isComplete then
        [.complete parent, .complete around]
      else [.complete parent]

/-- The operations of entering a state. -/
def entering (s : Session) (i : Nat) : List Operation :=
  if s.active.contains i then []
  else
    let node := s.arena.state i
    let content : List Operation := [.arrive i, .run (.onEntry i)]
    if node.isFinal then
      match node.parent with
      | none => content
      | some parent => content ++ (s.performAll content).concluding parent
    else content

/-- The operations of entering states. -/
def enteringAll (s : Session) : StateSet → List Operation
  | [] => []
  | i :: rest => s.entering i ++ (s.enter i).enteringAll rest

/-- The operations of leaving a state. -/
def exiting (i : Nat) : List Operation := [.run (.onExit i), .leave i]

/-- The operations of the actions of a transition. -/
def acting (t : TransitionRef) : List Operation := [.run (.onTransition t)]

/-- The operations of a microstep. -/
def stepping (s : Session) (ts : List TransitionRef) : List Operation :=
  .take ts :: ((s.arena.exitSets s.active ts).reverse.flatMap exiting ++ ts.flatMap acting ++
    (s.leaveAll ts).enteringAll (s.arena.entrySet ts))

/-- The operations of entering the initial states. -/
def beginning (s : Session) : List Operation :=
  .begin :: (s.perform .begin).enteringAll s.arena.initialStates

theorem performAll_concluding (parent : Nat) :
    s.performAll (s.concluding parent) = s.enteredFinal parent := by
  have harena : (s.complete parent).arena = s.arena := rfl
  unfold concluding enteredFinal
  split
  · rfl
  dsimp only
  rw [harena]
  cases (s.arena.state parent).parent with
  | none => rfl
  | some around =>
      dsimp only
      split <;> rfl

theorem performAll_entering (i : Nat) : s.performAll (s.entering i) = s.enter i := by
  unfold entering enter
  split
  · rfl
  have hcontent : s.performAll [.arrive i, .run (.onEntry i)] =
      ({ s with active := s.active.insert i }.note (.entered i)).runContent (.onEntry i) i
        (s.arena.state i).onEntry := rfl
  dsimp only
  split
  · cases (s.arena.state i).parent with
    | none => exact hcontent
    | some parent =>
        dsimp only
        rw [performAll_append, performAll_concluding, hcontent]
  · exact hcontent

theorem performAll_enteringAll (states : StateSet) :
    s.performAll (s.enteringAll states) = s.enterAll states := by
  induction states generalizing s with
  | nil => rfl
  | cons i rest ih =>
      rw [enteringAll, performAll_append, performAll_entering, ih]
      rfl

/-- Everything in a microstep that comes before the entries. -/
theorem performAll_leaving (ts : List TransitionRef) :
    s.performAll (.take ts ::
      ((s.arena.exitSets s.active ts).reverse.flatMap exiting ++ ts.flatMap acting)) =
        s.leaveAll ts := by
  have hexits : (s.perform (.take ts)).performAll
      ((s.arena.exitSets s.active ts).reverse.flatMap exiting) =
        (s.arena.exitSets s.active ts).reverse.foldl exit (s.note (.stepped ts)) :=
    performAll_flatMap _ fun _ _ => rfl
  have hacts (r : Session) : r.performAll (ts.flatMap acting) = ts.foldl act r :=
    performAll_flatMap _ fun _ _ => rfl
  rw [performAll_cons, performAll_append, hexits, hacts, leaveAll]

theorem performAll_stepping (ts : List TransitionRef) :
    s.performAll (s.stepping ts) = s.microstep ts := by
  rw [stepping, ← List.cons_append, performAll_append, performAll_leaving,
    performAll_enteringAll, microstep_eq]

theorem performAll_beginning : s.performAll s.beginning = s.begun :=
  performAll_enteringAll _

/-! ## The kinds of operations -/

theorem isLooking_testingAt (event : Option Event) (source position : Nat) (ts : List Transition) :
    ∀ op ∈ s.testingAt event source position ts, op.IsLooking := by
  induction ts generalizing s position with
  | nil => exact fun op hop => absurd hop List.not_mem_nil
  | cons t rest ih =>
      unfold testingAt
      split
      · split
        · exact List.forall_mem_singleton.2 trivial
        · exact List.forall_mem_cons.2 ⟨trivial, ih _⟩
      · exact ih _

theorem isLooking_testingAlong (event : Option Event) (path : List Nat) :
    ∀ op ∈ s.testingAlong event path, op.IsLooking := by
  induction path generalizing s with
  | nil => exact fun op hop => absurd hop List.not_mem_nil
  | cons source rest ih =>
      unfold testingAlong
      dsimp only
      split
      · exact isLooking_testingAt _ _ _ _
      · exact List.forall_mem_append.2 ⟨isLooking_testingAt _ _ _ _, ih⟩

theorem isLooking_testingAll (event : Option Event) (leaves : List Nat) :
    ∀ op ∈ s.testingAll event leaves, op.IsLooking := by
  induction leaves generalizing s with
  | nil => exact fun op hop => absurd hop List.not_mem_nil
  | cons leaf rest ih => exact List.forall_mem_append.2 ⟨isLooking_testingAlong _ _, ih⟩

theorem isLooking_looking (event : Option Event) :
    ∀ op ∈ s.looking event, op.IsLooking :=
  List.forall_mem_append.2 ⟨isLooking_testingAll _ _, List.forall_mem_singleton.2 trivial⟩

theorem isMoving_concluding (parent : Nat) : ∀ op ∈ s.concluding parent, op.IsMoving := by
  unfold concluding
  split
  · exact List.forall_mem_singleton.2 trivial
  · split
    · exact List.forall_mem_singleton.2 trivial
    · dsimp only
      split
      · exact List.forall_mem_cons.2 ⟨trivial, List.forall_mem_singleton.2 trivial⟩
      · exact List.forall_mem_singleton.2 trivial

theorem isMoving_entering (i : Nat) : ∀ op ∈ s.entering i, op.IsMoving := by
  have hcontent : ∀ op ∈ [Operation.arrive i, .run (.onEntry i)], op.IsMoving :=
    List.forall_mem_cons.2 ⟨trivial, List.forall_mem_singleton.2 trivial⟩
  unfold entering
  split
  · exact fun op hop => absurd hop List.not_mem_nil
  dsimp only
  split
  · split
    · exact hcontent
    · exact List.forall_mem_append.2 ⟨hcontent, isMoving_concluding _⟩
  · exact hcontent

theorem isMoving_enteringAll (states : StateSet) : ∀ op ∈ s.enteringAll states, op.IsMoving := by
  induction states generalizing s with
  | nil => exact fun op hop => absurd hop List.not_mem_nil
  | cons i rest ih => exact List.forall_mem_append.2 ⟨isMoving_entering i, ih⟩

/-- A microstep begins by taking its transitions, and the rest is moving. -/
theorem stepping_eq (ts : List TransitionRef) :
    ∃ ops, s.stepping ts = .take ts :: ops ∧ ∀ op ∈ ops, op.IsMoving := by
  refine ⟨_, rfl, List.forall_mem_append.2 ⟨List.forall_mem_append.2 ⟨?_, ?_⟩,
    isMoving_enteringAll _⟩⟩
  · refine List.forall_mem_flatMap.2 fun i _ => ?_
    exact List.forall_mem_cons.2 ⟨trivial, List.forall_mem_singleton.2 trivial⟩
  · exact List.forall_mem_flatMap.2 fun t _ => List.forall_mem_singleton.2 trivial

end Session
end Statechart
