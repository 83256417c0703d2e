import Statechart.Proofs.Arena.Located

/-!
# A built arena depicts its document

What a model holds is compared with what the document says, in three parts.

* `LaidOut`: the states are the nodes of the document, in pre-order, and all that
  the arena knows of the hierarchy is how the nodes are nested.
* `Resolved`: identifiers, kinds, initial states and the indices that are stored
  fit each other.
* `Shows`: each state holds the content of its node, and an exit is shown as a
  final state without a name in the document.

Every model that is built has all three (`depicts_of_build`).  What the content
does when it runs is not compared with anything here.
-/

namespace Statechart

open Layout

namespace Arena

/-! ## What is compared -/

/-- A state is entered by default as the document says. -/
structure ShowsInitial (arena : Arena) (s : Nat) (written : Option String) : Prop where
  named : ∀ id, written = some id →
    ∃ i, (arena.state s).initial = some i ∧ arena.find? id = some i
  first_child : written = none → (arena.state s).kind = .compound →
    (arena.state s).initial = (arena.state s).children.head?

/-- A state shows an exit. -/
structure ShowsExit (arena : Arena) (s : Nat) (e : ExitDef) : Prop where
  kind_eq : (arena.state s).kind = .final
  isAnonymous_eq : (arena.state s).isAnonymous = true
  onEntry_eq : (arena.state s).onEntry = [Model.exitAction e]
  onExit_eq : (arena.state s).onExit = []
  transitions_eq : (arena.state s).transitions = []

/-- A state shows a state of the document. -/
structure ShowsState (arena : Arena) (registry : Registry) (s : Nat) (d : StateDef)
    (children : List Node) : Prop where
  id_eq : (arena.state s).id = d.id
  kind_eq : (arena.state s).kind = d.kind children.isEmpty
  isAnonymous_eq : (arena.state s).isAnonymous = false
  onEntry : Content.buildAll registry d.onEntry = .ok (arena.state s).onEntry
  onExit : Content.buildAll registry d.onExit = .ok (arena.state s).onExit
  initial : arena.ShowsInitial s d.initial
  /-- The transitions stand in the order of their declaration. -/
  transitions : List.Forall₂ (arena.ShowsTransition registry s) d.transitions
    (arena.state s).transitions

/-- A state shows a node. -/
def Shows (arena : Arena) (registry : Registry) (s : Nat) : Node → Prop
  | .exit e => arena.ShowsExit s e
  | .state d children => arena.ShowsState registry s d children

/-- The root stands for the document as a whole. -/
structure ShowsRoot (arena : Arena) (doc : Document) : Prop where
  id_eq : (arena.state root).id = doc.name.getD "chart"
  kind_eq : (arena.state root).kind = .compound
  parent_eq : (arena.state root).parent = none
  onEntry_eq : (arena.state root).onEntry = []
  onExit_eq : (arena.state root).onExit = []
  transitions_eq : (arena.state root).transitions = []
  initial : arena.ShowsInitial root doc.initial

/-- The states are the nodes of a document in pre-order, with their nesting. -/
structure LaidOut (arena : Arena) (doc : Document) : Prop where
  root_position : doc.position root = []
  exists_iff : ∀ p, (∃ s, root < s ∧ s < arena.size ∧ doc.position s = p) ↔
    ∃ node, doc.nodeAt? p = some node
  /-- Positions are compared as sequences, so this is pre-order. -/
  position_lt_iff : ∀ a b, a < arena.size → b < arena.size →
    (doc.position a < doc.position b ↔ a < b)
  named : ∀ s, root < s → s < arena.size → doc.Names (arena.state s).id (doc.position s)
  parent_iff : ∀ s p, s < arena.size → p < arena.size →
    (arena.Parent s p ↔ s ≠ root ∧ doc.position p = (doc.position s).dropLast)
  parent_lt : ∀ s p, arena.Parent s p → p < s
  mem_children_iff : ∀ s c, c ∈ (arena.state s).children ↔ arena.Parent c s
  children_sorted : ∀ s, (arena.state s).children.Pairwise (· < ·)
  isDescendant_iff : ∀ a b, a < arena.size → b < arena.size →
    (arena.isDescendant a b = true ↔ (doc.position a).Inside (doc.position b))
  /-- The descendants of a state follow it without a gap. -/
  descendants : ∀ s, s < arena.size → ∃ stop, s < stop ∧ stop ≤ arena.size ∧
    ∀ a, arena.isDescendant a s = true ↔ s < a ∧ a < stop

/-- Identifiers, kinds, initial states and indices fit each other. -/
structure Resolved (arena : Arena) : Prop where
  id_inj : ∀ a b, root < a → a < arena.size → root < b → b < arena.size →
    (arena.state a).id = (arena.state b).id → a = b
  find?_eq_some_iff : ∀ id s, arena.find? id = some s ↔
    root < s ∧ s < arena.size ∧ (arena.state s).id = id
  children_eq_nil : ∀ s, (arena.state s).kind = .atomic ∨ (arena.state s).kind = .final →
    (arena.state s).children = []
  children_ne_nil : ∀ s, (arena.state s).kind = .compound ∨ (arena.state s).kind = .parallel →
    (arena.state s).children ≠ []
  initial_inside : ∀ s, (arena.state s).kind = .compound →
    ∃ i, (arena.state s).initial = some i ∧ arena.isDescendant i s = true
  initial_eq_none : ∀ s, (arena.state s).kind ≠ .compound → (arena.state s).initial = none
  source_eq : ∀ s, ∀ t ∈ (arena.state s).transitions, t.source = s
  parent_bound : ∀ s p, (arena.state s).parent = some p → p < arena.size
  child_bounds : ∀ s, ∀ c ∈ (arena.state s).children, root < c ∧ c < arena.size
  initial_bounds : ∀ s i, (arena.state s).initial = some i → root < i ∧ i < arena.size
  target_bounds : ∀ s, ∀ t ∈ (arena.state s).transitions, ∀ g, t.target = some g →
    root < g ∧ g < arena.size

/-- An arena holds what a document describes. -/
structure Depicts (arena : Arena) (doc : Document) (registry : Registry) : Prop
    extends LaidOut arena doc, Resolved arena where
  root : arena.ShowsRoot doc
  shown : ∀ s, Arena.root < s → s < arena.size →
    ∃ node, doc.nodeAt? (doc.position s) = some node ∧ arena.Shows registry s node

end Arena

namespace Model

variable {doc : Document} {registry : Registry} {model : Model} {pre : Arena} {id : String}
  {slot : Slot} {s : Nat}

/-! ## The finished arena -/

theorem getElem?_writtenInitials {k : Nat} {node : Node} (h : doc.Origin k id slot node) :
    (writtenInitials doc)[k + 1]? = some (writtenInitial slot) := by
  rw [writtenInitials, List.getElem?_cons_succ, List.getElem?_map, h.get]
  rfl

theorem getElem?_writtenTransitionLists {k : Nat} {node : Node} (h : doc.Origin k id slot node) :
    (writtenTransitionLists doc)[k + 1]? = some (writtenTransitions slot) := by
  rw [writtenTransitionLists, List.getElem?_cons_succ, List.getElem?_map, h.get]
  rfl

namespace Stages

variable (h : Stages doc registry model pre)
include h

theorem initialOf_eq {k : Nat} {node : Node} (horigin : doc.Origin k id slot node) :
    initialOf pre (k + 1) (writtenInitial slot) = .ok (model.arena.state (k + 1)).initial :=
  h.initial (k + 1) _ (getElem?_writtenInitials horigin)

theorem transitionsOf_eq {k : Nat} {node : Node} (horigin : doc.Origin k id slot node) :
    transitionsOf registry pre (k + 1) (writtenTransitions slot) =
      .ok (model.arena.state (k + 1)).transitions :=
  h.transitions (k + 1) _ (getElem?_writtenTransitionLists horigin)

theorem showsTransition {d : TransitionDef} {t : Transition}
    (ht : pre.ShowsTransition registry s d t) : model.arena.ShowsTransition registry s d t where
  source_eq := ht.source_eq
  cond_eq := ht.cond_eq
  isInternal_eq := ht.isInternal_eq
  target := by
    rw [funext h.find?_eq]
    exact ht.target
  event := ht.event
  actions := ht.actions

theorem showsInitial {written : Option String}
    (hwritten : initialOf pre s written = .ok (model.arena.state s).initial) :
    model.arena.ShowsInitial s written where
  named name hname := by
    subst hname
    obtain ⟨i, hi, hfind, -⟩ := initialOf_some_eq_ok_iff.1 hwritten
    exact ⟨i, hi, (h.find?_eq name).trans hfind⟩
  first_child hname hkind := by
    subst hname
    rw [initialOf_none_eq_ok_iff.1 hwritten, h.children_eq, if_pos]
    rw [h.kind_eq] at hkind
    rw [StateNode.isCompound, hkind]
    rfl

theorem showsExit {k : Nat} {e : ExitDef} (horigin : doc.Origin k id slot (.exit e))
    (hstate : stateAt registry id slot = .ok (pre.state (k + 1))) :
    model.arena.ShowsExit (k + 1) e := by
  have hoccupant : slot.occupant = .exit e := horigin.made.occupant_eq
  have hpre := (stateAt_exit_eq_ok_iff hoccupant).1 hstate
  have hts := h.transitionsOf_eq horigin
  rw [writtenTransitions, hoccupant] at hts
  exact
    { kind_eq := by rw [h.state_eq, hpre]
      isAnonymous_eq := by rw [h.state_eq, hpre]
      onEntry_eq := by rw [h.state_eq, hpre]
      onExit_eq := by rw [h.state_eq, hpre]
      transitions_eq := (Except.ok.inj hts).symm }

theorem showsState {k : Nat} {d : StateDef} {children : List Node}
    (horigin : doc.Origin k id slot (.state d children))
    (hstate : stateAt registry id slot = .ok (pre.state (k + 1))) :
    model.arena.ShowsState registry (k + 1) d children := by
  have hoccupant : slot.occupant = .state d := horigin.made.occupant_eq
  obtain ⟨-, -, onEntry, onExit, hentry, hexit, hpre⟩ :=
    (stateAt_state_eq_ok_iff hoccupant).1 hstate
  -- a node has one name only, and that of a state is written
  have hid : id = d.id := horigin.named.id_eq (.state horigin.nodeAt?_eq)
  have hchildren : slot.children.isEmpty = children.isEmpty := horigin.isEmpty_eq
  have hinitial := h.initialOf_eq horigin
  have hts := h.transitionsOf_eq horigin
  rw [writtenInitial, hoccupant] at hinitial
  rw [writtenTransitions, hoccupant, transitionsOf_eq_ok_iff] at hts
  exact
    { id_eq := by rw [h.state_eq, hpre, hid]
      kind_eq := by rw [h.state_eq, hpre, hchildren]
      isAnonymous_eq := by rw [h.state_eq, hpre]
      onEntry := by rw [h.state_eq, hpre, hentry]
      onExit := by rw [h.state_eq, hpre, hexit]
      initial := h.showsInitial hinitial
      transitions := hts.imp fun _ _ => h.showsTransition }

theorem shows (h0 : Arena.root < s) (hs : s < pre.size) :
    ∃ node, doc.nodeAt? (doc.position s) = some node ∧ model.arena.Shows registry s node := by
  obtain ⟨k, id, slot, node, rfl, horigin, hstate⟩ := h.exists_origin h0 hs
  refine ⟨node, horigin.nodeAt?_eq, ?_⟩
  cases node with
  | exit e => exact h.showsExit horigin hstate
  | state d children => exact h.showsState horigin hstate

theorem showsRoot : model.arena.ShowsRoot doc where
  id_eq := by
    rw [h.state_eq, h.pre_root]
    rfl
  kind_eq := h.wellFormed.root_kind
  parent_eq := h.wellFormed.root_parent
  onEntry_eq := by
    rw [h.state_eq, h.pre_root]
    rfl
  onExit_eq := by
    rw [h.state_eq, h.pre_root]
    rfl
  transitions_eq := h.wellFormed.root_transitions
  initial := h.showsInitial (h.initial Arena.root _ rfl)

theorem laidOut : model.arena.LaidOut doc where
  root_position := rfl
  exists_iff p := by
    constructor
    · rintro ⟨s, h0, hs, rfl⟩
      obtain ⟨node, hnode, -⟩ := h.shows h0 (h.size_eq ▸ hs)
      exact ⟨node, hnode⟩
    · rintro ⟨node, hnode⟩
      rw [h.located.size_eq]
      exact Document.exists_position_eq hnode
  position_lt_iff a b ha hb := by
    rw [h.located.size_eq] at ha hb
    exact Document.position_lt_iff ha hb
  named s h0 hs := by
    rw [h.id_eq]
    exact h.named h0 (h.size_eq ▸ hs)
  parent_iff _ _ hs hp := h.located.parent_iff hs hp
  parent_lt := h.wellFormed.parent_lt
  mem_children_iff := h.wellFormed.mem_children_iff
  children_sorted := h.wellFormed.children_sorted
  isDescendant_iff _ _ ha hb := Arena.isDescendant_iff.trans (h.located.below_iff ha hb)
  descendants s hs := by
    obtain ⟨stop, hlt, hle, hbelow⟩ := h.wellFormed.exists_stop hs
    exact ⟨stop, hlt, hle, fun a => Arena.isDescendant_iff.trans (hbelow a)⟩

/-- Only compound states have an initial state: atomic and final ones have no
descendants, and parallel ones must not name one. -/
theorem initial_eq_none (hkind : (model.arena.state s).kind ≠ .compound) :
    (model.arena.state s).initial = none := by
  by_cases hs : s < pre.size
  swap
  · rw [Arena.state_of_size_le (h.size_eq ▸ Nat.le_of_not_lt hs)]
    rfl
  have h0 : Arena.root < s := Nat.pos_of_ne_zero fun hs0 =>
    hkind (by rw [hs0]; exact h.wellFormed.root_kind)
  obtain ⟨k, id, slot, node, rfl, horigin, hstate⟩ := h.exists_origin h0 hs
  have hinitial := h.initialOf_eq horigin
  rw [h.kind_eq] at hkind
  cases hwritten : writtenInitial slot with
  | none =>
      rw [hwritten, initialOf_none_eq_ok_iff] at hinitial
      rw [hinitial, if_neg]
      simpa [StateNode.isCompound] using hkind
  | some name =>
      rw [hwritten, initialOf_some_eq_ok_iff] at hinitial
      obtain ⟨i, -, -, hbelow⟩ := hinitial
      -- what has a descendant has a child, so it is parallel
      have hchain := Arena.transGen_of_mem_ancestorsUpTo hbelow
      obtain ⟨c, -, hc⟩ := Relation.TransGen.tail'_iff.1 hchain
      have hchild := (h.mem_children_iff (k + 1) c).2 hc
      have hleaf : (pre.state (k + 1)).isLeaf = false := by
        by_contra hleaf
        rw [(h.isLeaf_iff (k + 1)).1 (Bool.eq_true_of_not_eq_false hleaf)] at hchild
        exact List.not_mem_nil hchild
      have hparallel := (Arena.kind_of_isLeaf_eq_false hleaf).resolve_left hkind
      cases hoccupant : slot.occupant with
      | exit e =>
          rw [writtenInitial, hoccupant] at hwritten
          cases hwritten
      | state d =>
          obtain ⟨-, hshaped, _, _, -, -, hmade⟩ := (stateAt_state_eq_ok_iff hoccupant).1 hstate
          rw [hmade] at hparallel
          rw [writtenInitial, hoccupant] at hwritten
          exact absurd (hwritten.symm.trans (hshaped.initial_eq_none hparallel))
            (Option.some_ne_none name)

/-- Final states have no transitions: those that are written must not have any, and
exits have none. -/
theorem transitions_eq_nil (hfinal : (model.arena.state s).isFinal = true) :
    (model.arena.state s).transitions = [] := by
  by_cases hs : s < pre.size
  swap
  · rw [Arena.state_of_size_le (h.size_eq ▸ Nat.le_of_not_lt hs)]
    rfl
  have h0 : Arena.root < s := by
    refine Nat.pos_of_ne_zero fun hs0 => ?_
    rw [hs0, StateNode.isFinal, show (model.arena.state 0).kind = .compound from
      h.wellFormed.root_kind] at hfinal
    cases hfinal
  obtain ⟨k, id, slot, node, rfl, horigin, hstate⟩ := h.exists_origin h0 hs
  have hts := h.transitionsOf_eq horigin
  rw [StateNode.isFinal, beq_iff_eq, h.kind_eq] at hfinal
  cases hoccupant : slot.occupant with
  | exit e =>
      rw [writtenTransitions, hoccupant] at hts
      exact (Except.ok.inj hts).symm
  | state d =>
      obtain ⟨-, hshaped, _, _, -, -, hmade⟩ := (stateAt_state_eq_ok_iff hoccupant).1 hstate
      rw [hmade] at hfinal
      have hnil : d.transitions = [] := (hshaped.final (StateDef.isFinal_of_kind hfinal)).2.2
      rw [writtenTransitions, hoccupant] at hts
      dsimp only at hts
      rw [hnil] at hts
      exact (Except.ok.inj hts).symm

theorem resolved : model.arena.Resolved := by
  have hw := h.wellFormed
  have hid : ∀ a b, Arena.root < a → a < model.arena.size → Arena.root < b →
      b < model.arena.size → (model.arena.state a).id = (model.arena.state b).id → a = b := by
    intro a b ha0 ha hb0 hb heq
    rw [h.id_eq, h.id_eq] at heq
    rw [h.size_eq] at ha hb
    exact h.id_inj ha0 ha hb0 hb heq
  have hbelow : ∀ s i, (model.arena.state s).initial = some i → model.arena.Below i s := by
    intro s i hi
    by_cases hkind : (model.arena.state s).kind = .compound
    · obtain ⟨j, hj, hinside⟩ := hw.initial_below hkind
      obtain rfl := Option.some.inj (hi.symm.trans hj)
      exact hinside
    · rw [h.initial_eq_none hkind] at hi
      cases hi
  exact
    { id_inj := hid
      find?_eq_some_iff := fun _ _ => Arena.find?_eq_some_iff hid
      children_eq_nil := fun s hs => (hw.isLeaf_iff s).1 (by simpa [StateNode.isLeaf] using hs)
      children_ne_nil := fun s hs hnil => by
        have hleaf := (hw.isLeaf_iff s).2 hnil
        rcases hs with hs | hs <;> simp [StateNode.isLeaf, hs] at hleaf
      initial_inside := fun s hs => by
        obtain ⟨i, hi, hinside⟩ := hw.initial_below hs
        exact ⟨i, hi, Arena.isDescendant_iff.2 hinside⟩
      initial_eq_none := fun s => h.initial_eq_none
      source_eq := fun s t ht => by
        obtain ⟨d, hd⟩ := h.exists_shown ht
        exact hd.source_eq
      parent_bound := fun s p hp =>
        Nat.lt_trans (hw.parent_lt s p hp) (Arena.lt_size_of_parent hp)
      child_bounds := fun s c hc => by
        have hp := hw.parent_of_mem_children hc
        exact ⟨Nat.lt_of_le_of_lt (Nat.zero_le s) (hw.parent_lt c s hp), Arena.lt_size_of_parent hp⟩
      initial_bounds := fun s i hi =>
        ⟨Nat.lt_of_le_of_lt (Nat.zero_le s) (hw.lt_of_below (hbelow s i hi)),
          hw.lt_size_of_below (hbelow s i hi)⟩
      target_bounds := hw.target_inside }

end Stages

/-- The arena of every model that is built depicts the document. -/
theorem depicts_of_build (h : build doc registry = .ok model) :
    model.arena.Depicts doc registry := by
  obtain ⟨pre, hstages⟩ := exists_stages h
  exact
    { hstages.laidOut, hstages.resolved with
      root := hstages.showsRoot
      shown := fun s h0 hs => hstages.shows h0 (hstages.size_eq ▸ hs) }

/-- Final states of built models have no transitions. -/
theorem transitions_of_isFinal (h : build doc registry = .ok model)
    (hfinal : (model.arena.state s).isFinal = true) : (model.arena.state s).transitions = [] := by
  obtain ⟨pre, hstages⟩ := exists_stages h
  exact hstages.transitions_eq_nil hfinal

/-- A chart that starts in an inner state and ends in an exit.  One of its states
is called like the first exit. -/
def errand : Document where
  initial := some "pay"
  states :=
    [.state
      { id := "shop"
        transitions :=
          [{ event := some "closed", target := some "_exit.1" },
           { event := some "paid", target := some "_exit.0", actions := [.raise "left"] }] }
      [.state { id := "browse" } [], .state { id := "pay" } []],
     .state { id := "_exit.0", isParallel := true }
      [.state { id := "walk" } [], .state { id := "sing" } []],
     .exit { namelist := some "total" }]

/-- The model of `errand`. -/
def errandModel : Model := (build errand .empty).toOption.getD default

theorem build_errand : build errand .empty = .ok errandModel := rfl

/-- The exit makes way for the state that is called like it. -/
theorem depicts_errand :
    build errand .empty = .ok errandModel ∧ errandModel.arena.find? "_exit.0" = some 4 ∧
      errandModel.arena.find? "_exit.1" = some 7 ∧
      (errandModel.arena.state 7).isAnonymous = true ∧
      (errandModel.arena.state Arena.root).initial = some 3 ∧
      errandModel.arena.Depicts errand .empty :=
  ⟨build_errand, by decide +kernel, by decide +kernel, rfl, by decide +kernel,
    depicts_of_build build_errand⟩

end Model
end Statechart
