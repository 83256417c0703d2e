import Statechart.Proofs.Arena.Forest
import Statechart.Proofs.Arena.Steps

/-!
# The arena of a built model

Building succeeds in stages: the slots of the document become states, and then
every state gets its initial state and its transitions.  For each pass an
`_eq_ok_iff` lemma says when it succeeds and with what, and `build_eq_ok_iff`
puts them together.  `Drafted` says what the arena owes to the first pass and
`Stages` what the finished arena owes to all of them.

From the stages follows that the arena of every built model is well-formed
(`wellFormed_of_build`).  Nothing further is assumed of the document: a
document that would give another arena is refused.
-/

namespace Statechart

namespace Model

open Layout Relation

variable {doc : Document} {registry : Registry} {model : Model} {pre arena : Arena}

/-! ## The passes -/

/-- A pass over a list that may fail has given `ys` for `xs`: both have the same
length, and the results belong to their positions, counted from `next` on. -/
structure Passed {α β : Type} (R : Nat → α → β → Prop) (next : Nat) (xs : List α)
    (ys : List β) : Prop where
  length_eq : ys.length = xs.length
  get : ∀ k x, xs[k]? = some x → ∃ y, ys[k]? = some y ∧ R (next + k) x y

namespace Passed

variable {α β : Type} {R : Nat → α → β → Prop} {next : Nat} {x : α} {y : β} {xs : List α}
  {ys : List β}

theorem nil_iff : Passed R next [] ys ↔ ys = [] := by
  constructor
  · intro h
    exact List.length_eq_zero_iff.1 h.length_eq
  · rintro rfl
    exact ⟨rfl, fun _ _ h => nomatch h⟩

theorem cons_iff : Passed R next (x :: xs) ys ↔
    ∃ y rest, ys = y :: rest ∧ R next x y ∧ Passed R (next + 1) xs rest := by
  have hshift : ∀ k, next + 1 + k = next + (k + 1) := fun k => by omega
  constructor
  · intro h
    obtain ⟨y, hy, hxy⟩ := h.get 0 x rfl
    obtain ⟨rest, rfl⟩ : ∃ rest, ys = y :: rest := by
      cases ys with
      | nil => cases hy
      | cons y' rest => exact ⟨rest, congrArg (· :: rest) (Option.some.inj hy)⟩
    refine ⟨y, rest, rfl, hxy, Nat.succ.inj h.length_eq, fun k x' hk => ?_⟩
    rw [hshift]
    exact h.get (k + 1) x' hk
  · rintro ⟨y, rest, rfl, hxy, hrest⟩
    refine ⟨congrArg (· + 1) hrest.length_eq, fun k x' hk => ?_⟩
    cases k with
    | zero =>
        obtain rfl : x = x' := Option.some.inj hk
        exact ⟨y, rfl, hxy⟩
    | succ k =>
        rw [← hshift]
        exact hrest.get k x' hk

/-- A pass succeeds if and only if each step does. -/
theorem exists_iff :
    (∃ ys, Passed R next xs ys) ↔ ∀ k x, xs[k]? = some x → ∃ y, R (next + k) x y := by
  constructor
  · rintro ⟨ys, h⟩ k x hk
    obtain ⟨y, -, hxy⟩ := h.get k x hk
    exact ⟨y, hxy⟩
  · intro h
    induction xs generalizing next with
    | nil => exact ⟨[], nil_iff.2 rfl⟩
    | cons x xs ih =>
        obtain ⟨y, hxy⟩ := h 0 x rfl
        have hrest : ∀ k x', xs[k]? = some x' → ∃ y, R (next + 1 + k) x' y := fun k x' hk => by
          rw [show next + 1 + k = next + (k + 1) by omega]
          exact h (k + 1) x' hk
        obtain ⟨ys, hys⟩ := ih hrest
        exact ⟨y :: ys, cons_iff.2 ⟨y, ys, rfl, hxy, hys⟩⟩

end Passed

/-- Identifiers that are accepted one after the other when `used` are used
already. -/
structure Fresh (used ids : List String) : Prop where
  not_blank : ∀ id ∈ ids, Text.isBlankText id = false
  nodup : ids.Nodup
  unused : ∀ id ∈ ids, id ∉ used

theorem fresh_cons_iff {used ids : List String} {id : String} :
    Fresh used (id :: ids) ↔ checkId used id = .ok () ∧ Fresh (id :: used) ids := by
  have hcheck : checkId used id = .ok () ↔ Text.isBlankText id = false ∧ id ∉ used := by
    unfold checkId
    split
    · next hblank => simp [hblank]
    · split
      · next hused => simp [List.contains_iff_mem.1 hused]
      · next hblank hused => simpa [hblank] using hused
  rw [hcheck]
  constructor
  · intro h
    obtain ⟨hid, hnodup⟩ := List.nodup_cons.1 h.nodup
    refine ⟨⟨h.not_blank id List.mem_cons_self, h.unused id List.mem_cons_self⟩,
      fun x hx => h.not_blank x (List.mem_cons_of_mem _ hx), hnodup, fun x hx => ?_⟩
    rintro hmem
    rcases List.mem_cons.1 hmem with rfl | hused
    · exact hid hx
    · exact h.unused x (List.mem_cons_of_mem _ hx) hused
  · rintro ⟨⟨hblank, hid⟩, h⟩
    refine ⟨List.forall_mem_cons.2 ⟨hblank, h.not_blank⟩, List.nodup_cons.2 ⟨fun hx => ?_, h.nodup⟩,
      List.forall_mem_cons.2 ⟨hid, fun x hx hused => ?_⟩⟩
    · exact h.unused id hx List.mem_cons_self
    · exact h.unused x hx (List.mem_cons_of_mem _ hused)

theorem statesAt_eq_ok_iff {used : List String} {slots : List (String × Slot)}
    {nodes : List StateNode} (n : Nat) :
    statesAt registry used slots = .ok nodes ↔
      Passed (fun _ slot node => stateAt registry slot.1 slot.2 = .ok node) n slots nodes ∧
        Fresh used (slots.map Prod.fst) := by
  induction slots generalizing used nodes n with
  | nil =>
      rw [Passed.nil_iff, statesAt, Except.ok.injEq, eq_comm]
      refine (and_iff_left ?_).symm
      exact ⟨fun _ h => absurd h List.not_mem_nil, List.nodup_nil,
        fun _ h => absurd h List.not_mem_nil⟩
  | cons slot rest ih =>
      obtain ⟨id, slot⟩ := slot
      rw [List.map_cons, fresh_cons_iff, Passed.cons_iff]
      constructor
      · intro h
        obtain ⟨node, hnode, h⟩ := bind_eq_ok.1 h
        obtain ⟨_, hid, h⟩ := bind_eq_ok.1 h
        obtain ⟨nodes', hnodes, h⟩ := bind_eq_ok.1 h
        obtain rfl := pure_eq_ok.1 h
        obtain ⟨hpassed, hfresh⟩ := (ih (n + 1)).1 hnodes
        exact ⟨⟨node, nodes', rfl, hnode, hpassed⟩, hid, hfresh⟩
      · rintro ⟨⟨node, nodes', rfl, hnode, hpassed⟩, hid, hfresh⟩
        refine bind_eq_ok.2 ⟨node, hnode, bind_eq_ok.2 ⟨(), hid, ?_⟩⟩
        exact bind_eq_ok.2 ⟨nodes', (ih (n + 1)).2 ⟨hpassed, hfresh⟩, rfl⟩

/-- A pass that takes one step after the other succeeds if they all do. -/
theorem passed_of_steps {α β : Type} (pass : Nat → List α → Built (List β))
    (step : Nat → α → Built β) (hnil : ∀ n, pass n [] = .ok [])
    (hcons : ∀ n x xs, pass n (x :: xs) = (do
      let y ← step n x
      return y :: (← pass (n + 1) xs)))
    {n : Nat} {xs : List α} {ys : List β} :
    pass n xs = .ok ys ↔ Passed (fun n x y => step n x = .ok y) n xs ys := by
  induction xs generalizing n ys with
  | nil => rw [Passed.nil_iff, hnil, Except.ok.injEq, eq_comm]
  | cons x xs ih =>
      rw [Passed.cons_iff, hcons]
      constructor
      · intro h
        obtain ⟨y, hy, h⟩ := bind_eq_ok.1 h
        obtain ⟨rest, hrest, h⟩ := bind_eq_ok.1 h
        exact ⟨y, rest, (pure_eq_ok.1 h).symm, hy, ih.1 hrest⟩
      · rintro ⟨y, rest, rfl, hy, hrest⟩
        exact bind_eq_ok.2 ⟨y, hy, bind_eq_ok.2 ⟨rest, ih.2 hrest, rfl⟩⟩

theorem initialsFrom_eq_ok_iff {owner : Nat} {written : List (Option String)}
    {initials : List (Option Nat)} :
    initialsFrom arena owner written = .ok initials ↔
      Passed (fun s text initial => initialOf arena s text = .ok initial) owner written
        initials :=
  passed_of_steps (initialsFrom arena) (initialOf arena) (fun _ => rfl) fun _ _ _ => rfl

theorem transitionsFrom_eq_ok_iff {source : Nat} {written : List (List TransitionDef)}
    {transitions : List (List Transition)} :
    transitionsFrom registry arena source written = .ok transitions ↔
      Passed (fun s defs ts => transitionsOf registry arena s defs = .ok ts) source written
        transitions :=
  passed_of_steps (transitionsFrom registry arena) (transitionsOf registry arena)
    (fun _ => rfl) fun _ _ _ => rfl

/-! ## The stages of a build -/

/-- The arena before the states get their initial states and their transitions. -/
def draft (doc : Document) (nodes : List StateNode) : Arena :=
  (rootNode (doc.name.getD "chart") (tops 1 doc.states) :: nodes).toArray

/-- An arena with the initial states and the transitions of its states. -/
def finish (arena : Arena) (initials : List (Option Nat)) (transitions : List (List Transition)) :
    Arena :=
  (withTransitions (withInitials arena.toList initials) transitions).toArray

/-- The initial states that are written in a document, that of the root first. -/
def writtenInitials (doc : Document) : List (Option String) :=
  doc.initial :: (ofDocument doc).map fun slot => writtenInitial slot.2

/-- The transitions that are written in a document.  The root has none. -/
def writtenTransitionLists (doc : Document) : List (List TransitionDef) :=
  [] :: (ofDocument doc).map fun slot => writtenTransitions slot.2

theorem build_eq_ok_iff : build doc registry = .ok model ↔
    doc.states ≠ [] ∧ ∃ nodes initials transitions,
      statesAt registry [] (ofDocument doc) = .ok nodes ∧
      initialsFrom (draft doc nodes) Arena.root (writtenInitials doc) = .ok initials ∧
      transitionsFrom registry (draft doc nodes) Arena.root (writtenTransitionLists doc) =
        .ok transitions ∧
      model =
        { name := doc.name.getD "chart"
          arena := finish (draft doc nodes) initials transitions
          datamodel := doc.datamodel
          checksum := doc.checksum } := by
  unfold build
  by_cases hstates : doc.states.isEmpty
  · simp [bind, Except.bind, throw, throwThe, MonadExceptOf.throw, List.isEmpty_iff.1 hstates]
  have hne : doc.states ≠ [] := fun hnil => hstates (List.isEmpty_iff.2 hnil)
  simp only [hstates, Bool.false_eq_true, if_false]
  constructor
  · intro h
    obtain ⟨nodes, hnodes, h⟩ := bind_eq_ok.1 h
    obtain ⟨initials, hinitials, h⟩ := bind_eq_ok.1 h
    obtain ⟨transitions, htransitions, h⟩ := bind_eq_ok.1 h
    exact ⟨hne, nodes, initials, transitions, hnodes, hinitials, htransitions,
      (pure_eq_ok.1 h).symm⟩
  · rintro ⟨-, nodes, initials, transitions, hnodes, hinitials, htransitions, rfl⟩
    refine bind_eq_ok.2 ⟨nodes, hnodes, bind_eq_ok.2 ⟨initials, hinitials, ?_⟩⟩
    exact bind_eq_ok.2 ⟨transitions, htransitions, rfl⟩

/-- What the arena owes to the document after the first pass. -/
structure Drafted (doc : Document) (registry : Registry) (pre : Arena) : Prop where
  states_ne : doc.states ≠ []
  pre_size : pre.size = (ofDocument doc).length + 1
  pre_root : pre.state Arena.root = rootNode (doc.name.getD "chart") (tops 1 doc.states)
  pre_state : ∀ k id slot, (ofDocument doc)[k]? = some (id, slot) →
    stateAt registry id slot = .ok (pre.state (k + 1))
  fresh : Fresh [] ((ofDocument doc).map Prod.fst)

/-- What a built model owes to its document; `pre` is the arena after the first
pass. -/
structure Stages (doc : Document) (registry : Registry) (model : Model) (pre : Arena) : Prop
    extends Drafted doc registry pre where
  size_eq : model.arena.size = pre.size
  /-- The later passes change initial states and transitions only. -/
  state_eq : ∀ s, model.arena.state s =
    { pre.state s with
      initial := (model.arena.state s).initial
      transitions := (model.arena.state s).transitions }
  initial : ∀ s written, (writtenInitials doc)[s]? = some written →
    initialOf pre s written = .ok (model.arena.state s).initial
  transitions : ∀ s defs, (writtenTransitionLists doc)[s]? = some defs →
    transitionsOf registry pre s defs = .ok (model.arena.state s).transitions

theorem state_toArray {nodes : List StateNode} {s : Nat} {node : StateNode}
    (h : nodes[s]? = some node) : Arena.state nodes.toArray s = node := by
  have hlt : s < nodes.length := (List.getElem?_eq_some_iff.1 h).1
  have heq : nodes[s] = node := (List.getElem?_eq_some_iff.1 h).2
  simp [Arena.state, Array.getD, hlt, heq]

section Finish

variable {initials : List (Option Nat)} {transitions : List (List Transition)}
  (hinitials : initials.length = arena.size) (htransitions : transitions.length = arena.size)
include hinitials htransitions

theorem size_finish : (finish arena initials transitions).size = arena.size := by
  simp [finish, withTransitions, withInitials, hinitials, htransitions]

/-- The later passes change initial states and transitions only. -/
theorem state_finish (s : Nat) : (finish arena initials transitions).state s =
    { arena.state s with
      initial := initials[s]?.getD none
      transitions := transitions[s]?.getD [] } := by
  by_cases hs : s < arena.size
  · have hI : s < initials.length := hinitials ▸ hs
    have hT : s < transitions.length := htransitions ▸ hs
    apply state_toArray
    rw [withTransitions, withInitials, List.getElem?_zipWith, List.getElem?_zipWith]
    simp [Arena.state, Array.getD, hs, hI, hT]
  · have hout : arena.size ≤ s := Nat.le_of_not_lt hs
    have hsize := size_finish hinitials htransitions
    rw [Arena.state_of_size_le (hsize ▸ hout), Arena.state_of_size_le hout,
      List.getElem?_eq_none (hinitials ▸ hout), List.getElem?_eq_none (htransitions ▸ hout)]
    rfl

end Finish

theorem drafted_draft {nodes : List StateNode} (hne : doc.states ≠ [])
    (h : statesAt registry [] (ofDocument doc) = .ok nodes) :
    Drafted doc registry (draft doc nodes) := by
  obtain ⟨hpassed, hfresh⟩ := (statesAt_eq_ok_iff 0).1 h
  refine ⟨hne, by simp [draft, hpassed.length_eq], rfl, fun k id slot hk => ?_, hfresh⟩
  -- slot `k` is behind the root
  obtain ⟨node, hnode, hstate⟩ := hpassed.get k (id, slot) hk
  have hget : (rootNode (doc.name.getD "chart") (tops 1 doc.states) :: nodes)[k + 1]? =
      some node := hnode
  rw [draft, state_toArray hget, hstate]

theorem exists_stages (h : build doc registry = .ok model) :
    ∃ pre, Stages doc registry model pre := by
  obtain ⟨hne, nodes, initials, transitions, hnodes, hinitials, htransitions, rfl⟩ :=
    build_eq_ok_iff.1 h
  have hdrafted := drafted_draft hne hnodes
  have hinitials := initialsFrom_eq_ok_iff.1 hinitials
  have htransitions := transitionsFrom_eq_ok_iff.1 htransitions
  have hI : initials.length = (draft doc nodes).size := by
    rw [hinitials.length_eq, hdrafted.pre_size, writtenInitials, List.length_cons, List.length_map]
  have hT : transitions.length = (draft doc nodes).size := by
    rw [htransitions.length_eq, hdrafted.pre_size, writtenTransitionLists, List.length_cons,
      List.length_map]
  refine ⟨draft doc nodes, { hdrafted with
    size_eq := size_finish hI hT
    state_eq := fun s => by rw [state_finish hI hT]
    initial := fun s written hwritten => ?_
    transitions := fun s defs hdefs => ?_ }⟩
  · obtain ⟨initial, hi, hinitial⟩ := hinitials.get s written hwritten
    rw [Arena.root, Nat.zero_add] at hinitial
    rw [state_finish hI hT, hi]
    exact hinitial
  · obtain ⟨ts, ht, hts⟩ := htransitions.get s defs hdefs
    rw [Arena.root, Nat.zero_add] at hts
    rw [state_finish hI hT, ht]
    exact hts

/-! ## Slots and states -/

theorem map_snd_withIds (taken : List String) (next : Nat) (slots : List Slot) :
    (withIds taken next slots).map Prod.snd = slots := by
  induction slots generalizing next with
  | nil => rfl
  | cons slot rest ih =>
      unfold withIds
      split
      · simp [ih]
      · simp [ih]

mutual

/-- An exit has no children. -/
theorem children_of_exit_slots {parent next : Nat} {node : Node} {slot : Slot}
    {definition : ExitDef} (h : slot ∈ slots parent next node)
    (hexit : slot.occupant = .exit definition) : slot.children = [] := by
  cases node with
  | exit definition =>
      obtain rfl := List.mem_singleton.1 h
      rfl
  | state definition children =>
      rcases List.mem_cons.1 h with rfl | h
      · cases hexit
      · exact children_of_exit_slotsOfAll h hexit

/-- An exit has no children. -/
theorem children_of_exit_slotsOfAll {parent next : Nat} {nodes : List Node} {slot : Slot}
    {definition : ExitDef} (h : slot ∈ slotsOfAll parent next nodes)
    (hexit : slot.occupant = .exit definition) : slot.children = [] := by
  cases nodes with
  | nil => exact absurd h List.not_mem_nil
  | cons node rest =>
      rcases List.mem_append.1 h with h | h
      · exact children_of_exit_slots h hexit
      · exact children_of_exit_slotsOfAll h hexit

end

/-- A state takes its identifier and its place in the tree over from its slot. -/
structure Fits (id : String) (slot : Slot) (node : StateNode) : Prop where
  id_eq : node.id = id
  parent_eq : node.parent = some slot.parent
  children_eq : node.children = slot.children
  isLeaf_iff : (∀ definition, slot.occupant = .exit definition → slot.children = []) →
    (node.isLeaf ↔ node.children = [])

theorem fits_of_stateAt {id : String} {slot : Slot} {node : StateNode}
    (h : stateAt registry id slot = .ok node) : Fits id slot node := by
  cases hoccupant : slot.occupant with
  | exit e =>
      obtain rfl := (stateAt_exit_eq_ok_iff hoccupant).1 h
      exact ⟨rfl, rfl, rfl, fun hchildless => by
        simp [StateNode.isLeaf, hchildless e hoccupant]⟩
  | state d =>
      obtain ⟨-, hshaped, _, _, -, -, rfl⟩ := (stateAt_state_eq_ok_iff hoccupant).1 h
      refine ⟨rfl, rfl, rfl, fun _ => ?_⟩
      rw [StateNode.isLeaf, hshaped.kind_isLeaf]
      exact List.isEmpty_iff

/-- An initial state lies inside of its compound state. -/
theorem inside_of_initialOf {owner : Nat} {text : Option String} {initial : Option Nat}
    (hchild : ∀ c ∈ (arena.state owner).children, arena.Parent c owner)
    (hne : (arena.state owner).children ≠ [])
    (hkind : (arena.state owner).kind = .compound)
    (h : initialOf arena owner text = .ok initial) :
    ∃ i, initial = some i ∧ TransGen arena.Parent i owner := by
  cases text with
  | some name =>
      obtain ⟨i, rfl, -, hbelow⟩ := initialOf_some_eq_ok_iff.1 h
      exact ⟨i, rfl, Arena.transGen_of_mem_ancestorsUpTo hbelow⟩
  | none =>
      obtain rfl := initialOf_none_eq_ok_iff.1 h
      obtain ⟨c, rest, hc⟩ := List.exists_cons_of_ne_nil hne
      refine ⟨c, by simp [StateNode.isCompound, hkind, hc], .single (hchild c ?_)⟩
      rw [hc]
      exact List.mem_cons_self

/-! ## The arena after the first pass -/

namespace Drafted

variable (h : Drafted doc registry pre)
include h

/-- Behind the root every state fits the slot it was made of. -/
theorem fits {k : Nat} {slot : Slot} (hk : (slotsOfAll 0 1 doc.states)[k]? = some slot) :
    ∃ id, Fits id slot (pre.state (k + 1)) := by
  have hslots : (ofDocument doc).map Prod.snd = slotsOfAll 0 1 doc.states :=
    map_snd_withIds _ _ _
  rw [← hslots, List.getElem?_map] at hk
  obtain ⟨⟨id, slot'⟩, hk', rfl⟩ := Option.map_eq_some_iff.1 hk
  exact ⟨id, fits_of_stateAt (h.pre_state k id slot' hk')⟩

theorem placed : pre.Placed 1 (slotsOfAll 0 1 doc.states) := by
  intro k slot hk
  obtain ⟨id, hfits⟩ := h.fits hk
  rw [Nat.add_comm 1 k]
  exact ⟨hfits.parent_eq, hfits.children_eq⟩

theorem size_sizes : pre.size = 1 + Node.sizes doc.states := by
  have hslots : (ofDocument doc).map Prod.snd = slotsOfAll 0 1 doc.states :=
    map_snd_withIds _ _ _
  have hlength := congrArg List.length hslots
  rw [List.length_map, length_slotsOfAll] at hlength
  rw [h.pre_size, hlength, Nat.add_comm]

theorem forest : pre.Forest Arena.root 1 pre.size (pre.state Arena.root).children := by
  rw [h.size_sizes, h.pre_root]
  exact Arena.forest_slotsOfAll doc.states Nat.zero_lt_one .refl h.placed

theorem root_parent (p : Nat) : ¬ pre.Parent Arena.root p := by
  intro hp
  rw [Arena.Parent, h.pre_root] at hp
  exact Option.some_ne_none p hp.symm

theorem bounds_of_parent {s p : Nat} (hp : pre.Parent s p) : 1 ≤ s ∧ s < pre.size := by
  refine ⟨Nat.one_le_iff_ne_zero.2 ?_, Arena.lt_size_of_parent hp⟩
  rintro rfl
  exact h.root_parent p hp

theorem parent_lt (s p : Nat) (hp : pre.Parent s p) : p < s :=
  h.forest.lt_of_parent (h.bounds_of_parent hp).1 (h.bounds_of_parent hp).2 hp

theorem mem_children_iff (s c : Nat) : c ∈ (pre.state s).children ↔ pre.Parent c s := by
  rcases Nat.eq_zero_or_pos s with rfl | hs
  · exact (h.forest.mem_tops_iff c).trans
      ⟨fun hc => hc.2, fun hp => ⟨h.bounds_of_parent hp, hp⟩⟩
  by_cases hlt : s < pre.size
  · exact (h.forest.mem_children_iff s hs hlt c).trans
      ⟨fun hc => hc.2, fun hp => ⟨h.bounds_of_parent hp, hp⟩⟩
  · -- outside there are no children, and a parent stands before its child
    rw [Arena.state_of_size_le (Nat.le_of_not_lt hlt)]
    refine ⟨fun hc => absurd hc List.not_mem_nil, fun hp => ?_⟩
    have hsc := h.parent_lt c s hp
    have hc := (h.bounds_of_parent hp).2
    omega

theorem children_sorted (s : Nat) : (pre.state s).children.Pairwise (· < ·) := by
  rcases Nat.eq_zero_or_pos s with rfl | hs
  · exact h.forest.tops_sorted
  by_cases hlt : s < pre.size
  · exact h.forest.children_sorted s hs hlt
  · rw [Arena.state_of_size_le (Nat.le_of_not_lt hlt)]
    exact List.Pairwise.nil

theorem isLeaf_iff (s : Nat) : (pre.state s).isLeaf ↔ (pre.state s).children = [] := by
  rcases Nat.eq_zero_or_pos s with rfl | hs
  · obtain ⟨node, rest, hstates⟩ := List.exists_cons_of_ne_nil h.states_ne
    rw [show pre.state 0 = _ from h.pre_root, hstates]
    simp [StateNode.isLeaf, rootNode, tops]
  obtain ⟨k, rfl⟩ : ∃ k, s = k + 1 := ⟨s - 1, by omega⟩
  cases hk : (slotsOfAll 0 1 doc.states)[k]? with
  | some slot =>
      obtain ⟨id, hfits⟩ := h.fits hk
      refine hfits.isLeaf_iff fun definition hexit => ?_
      exact children_of_exit_slotsOfAll (List.mem_of_getElem? hk) hexit
  | none =>
      have hle := List.getElem?_eq_none_iff.1 hk
      have hsize := h.size_sizes
      rw [length_slotsOfAll] at hle
      rw [Arena.state_of_size_le (by omega)]
      exact ⟨fun _ => rfl, fun _ => rfl⟩

end Drafted

/-! ## The finished arena -/

namespace Stages

variable (h : Stages doc registry model pre)
include h

theorem parent_iff {s p : Nat} : model.arena.Parent s p ↔ pre.Parent s p := by
  rw [Arena.Parent, Arena.Parent, h.state_eq]

theorem parent_eq : model.arena.Parent = pre.Parent := by
  funext s p
  exact propext h.parent_iff

theorem children_eq (s : Nat) : (model.arena.state s).children = (pre.state s).children := by
  rw [h.state_eq]

theorem kind_eq (s : Nat) : (model.arena.state s).kind = (pre.state s).kind := by
  rw [h.state_eq]

theorem id_eq (s : Nat) : (model.arena.state s).id = (pre.state s).id := by
  rw [h.state_eq]

theorem exists_initialOf {s : Nat} (hs : s < pre.size) :
    ∃ written, initialOf pre s written = .ok (model.arena.state s).initial := by
  have hlength : s < (writtenInitials doc).length := by
    rwa [writtenInitials, List.length_cons, List.length_map, ← h.pre_size]
  exact ⟨_, h.initial s _ (List.getElem?_eq_getElem hlength)⟩

/-- Every transition of a model was written at its state. -/
theorem exists_shown {s : Nat} {t : Transition} (ht : t ∈ (model.arena.state s).transitions) :
    ∃ d, pre.ShowsTransition registry s d t := by
  by_cases hs : s < pre.size
  · have hlength : s < (writtenTransitionLists doc).length := by
      rwa [writtenTransitionLists, List.length_cons, List.length_map, ← h.pre_size]
    exact exists_shown_of_mem (h.transitions s _ (List.getElem?_eq_getElem hlength)) ht
  · rw [Arena.state_of_size_le (h.size_eq ▸ Nat.le_of_not_lt hs)] at ht
    exact absurd ht List.not_mem_nil

theorem wellFormed : model.arena.WellFormed where
  root_kind := by
    rw [h.kind_eq, h.pre_root]
    rfl
  root_transitions := (Except.ok.inj (h.transitions Arena.root [] rfl)).symm
  parent_lt s p hp := h.parent_lt s p (h.parent_iff.1 hp)
  preorder s hs := by
    obtain ⟨p, hp, -, -, hchain⟩ := h.forest.inside (s + 1) (Nat.succ_pos s) (h.size_eq ▸ hs)
    rw [h.parent_eq]
    exact ⟨p, hp, hchain⟩
  mem_children_iff s c := by
    rw [h.children_eq, h.mem_children_iff, h.parent_iff]
  children_sorted s := by
    rw [h.children_eq]
    exact h.children_sorted s
  isLeaf_iff s := by
    rw [StateNode.isLeaf, h.kind_eq, h.children_eq]
    exact h.isLeaf_iff s
  initial_inside s hkind := by
    have hs := Arena.lt_size_of_kind (by rw [hkind]; exact StateKind.noConfusion)
    obtain ⟨written, hinitial⟩ := h.exists_initialOf (h.size_eq ▸ hs)
    rw [h.kind_eq] at hkind
    have hne : (pre.state s).children ≠ [] := fun hnil => by
      have hleaf := (h.isLeaf_iff s).2 hnil
      simp [StateNode.isLeaf, hkind] at hleaf
    rw [h.parent_eq]
    exact inside_of_initialOf (fun c hc => (h.mem_children_iff s c).1 hc) hne hkind hinitial
  target_inside s t ht g hg := by
    obtain ⟨d, hd⟩ := h.exists_shown ht
    rw [h.size_eq]
    exact hd.target_bounds hg

end Stages

/-- The arena of every model that is built is well-formed. -/
theorem wellFormed_of_build (h : build doc registry = .ok model) : model.arena.WellFormed := by
  obtain ⟨pre, hstages⟩ := exists_stages h
  exact hstages.wellFormed

end Model
end Statechart
