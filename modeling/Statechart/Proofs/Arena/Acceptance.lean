import Statechart.Proofs.Arena.Depiction
import Statechart.Proofs.Event.Reading

/-!
# Which documents are accepted

`Document.Valid` says what a document has to be like, node by node and without a
word on passes, arenas or the order in which faults are found.  A build succeeds
if and only if the document is valid (`buildable_iff_valid`).

Which of several faults a refused document is refused for is not said here.
-/

namespace Statechart

open Layout

/-! ## Content -/

/-- A use of a custom action. -/
structure CustomUse where
  space : String
  name : String
  attributes : Fields Value

namespace Content

mutual

/-- The uses of custom actions in content, also within branches. -/
def customs : Content → List CustomUse
  | log _ _ => []
  | assign _ _ => []
  | raise _ => []
  | send _ _ => []
  | branch _ actions otherwise => customsOfAll actions ++ customsOfAll otherwise
  | custom space name attributes => [⟨space, name, attributes⟩]

/-- The uses of custom actions in a block of content. -/
def customsOfAll : List Content → List CustomUse
  | [] => []
  | content :: rest => content.customs ++ customsOfAll rest

end

end Content

/-- A custom action is registered and takes the attributes. -/
def Registry.Accepts (registry : Registry) (use : CustomUse) : Prop :=
  ∃ type, registry.resolve use.space use.name = some type ∧ (type.make use.attributes).isSome

/-- All custom actions of a block are registered and take their attributes. -/
def Registry.AcceptsAll (registry : Registry) (contents : List Content) : Prop :=
  ∀ use ∈ Content.customsOfAll contents, registry.Accepts use

namespace Content

variable {registry : Registry}

mutual

theorem exists_build_iff (content : Content) :
    (∃ action, content.build registry = .ok action) ↔
      ∀ use ∈ content.customs, registry.Accepts use := by
  cases content with
  | log label expr => exact iff_of_true ⟨_, rfl⟩ fun _ h => absurd h List.not_mem_nil
  | assign location expr => exact iff_of_true ⟨_, rfl⟩ fun _ h => absurd h List.not_mem_nil
  | raise event => exact iff_of_true ⟨_, rfl⟩ fun _ h => absurd h List.not_mem_nil
  | send event expr => exact iff_of_true ⟨_, rfl⟩ fun _ h => absurd h List.not_mem_nil
  | branch cond actions otherwise =>
      have hactions := exists_buildAll_iff actions
      have hotherwise := exists_buildAll_iff otherwise
      unfold Registry.AcceptsAll at hactions hotherwise
      unfold build customs
      rw [List.forall_mem_append, ← hactions, ← hotherwise, exists_bind_eq_ok]
      constructor
      · rintro ⟨first, hfirst, h⟩
        obtain ⟨second, hsecond, -⟩ := exists_bind_eq_ok.1 h
        exact ⟨⟨first, hfirst⟩, second, hsecond⟩
      · rintro ⟨⟨first, hfirst⟩, second, hsecond⟩
        exact ⟨first, hfirst, exists_bind_eq_ok.2 ⟨second, hsecond, _, rfl⟩⟩
  | custom space name attributes =>
      unfold build customs
      rw [List.forall_mem_singleton]
      cases hresolve : registry.resolve space name with
      | none => simp [Registry.Accepts, hresolve]
      | some type => cases hmake : type.make attributes <;> simp [Registry.Accepts, hresolve, hmake]

theorem exists_buildAll_iff (contents : List Content) :
    (∃ actions, buildAll registry contents = .ok actions) ↔ registry.AcceptsAll contents := by
  cases contents with
  | nil => exact iff_of_true ⟨[], rfl⟩ fun _ h => absurd h List.not_mem_nil
  | cons content rest =>
      have hcontent := exists_build_iff content
      have hrest := exists_buildAll_iff rest
      unfold Registry.AcceptsAll at hrest ⊢
      unfold buildAll customsOfAll
      rw [List.forall_mem_append, ← hcontent, ← hrest, exists_bind_eq_ok]
      constructor
      · rintro ⟨action, haction, h⟩
        obtain ⟨actions, hactions, -⟩ := exists_bind_eq_ok.1 h
        exact ⟨⟨action, haction⟩, actions, hactions⟩
      · rintro ⟨⟨action, haction⟩, actions, hactions⟩
        exact ⟨action, haction, exists_bind_eq_ok.2 ⟨actions, hactions, _, rfl⟩⟩

end

end Content

/-! ## Validity -/

/-- A transition that is accepted. -/
structure TransitionDef.Admissible (d : TransitionDef) (doc : Document) (registry : Registry) :
    Prop where
  target : ∀ id, d.target = some id → ∃ p, doc.Names id p
  event : ∀ text, d.event = some text →
    ∀ word ∈ Text.words text, Event.Pattern.normalize word ≠ ""
  actions : registry.AcceptsAll d.actions

/-- A state that is accepted at a position. -/
structure StateDef.Admissible (d : StateDef) (children : List Node) (p : Position)
    (doc : Document) (registry : Registry) : Prop where
  src : d.src = none
  final : d.isFinal = true →
    d.isParallel = false ∧ children = [] ∧ d.transitions = [] ∧ d.initial = none
  parallel : d.isParallel = true → children ≠ [] ∧ d.initial = none
  childless : children = [] → d.initial = none
  initial : ∀ id, d.initial = some id → ∃ q, doc.Names id q ∧ q.Inside p
  onEntry : registry.AcceptsAll d.onEntry
  onExit : registry.AcceptsAll d.onExit
  transitions : ∀ t ∈ d.transitions, t.Admissible doc registry

/-- A document that is accepted.  Of identifiers only those that are written are
asked for, since those of exits are never refused. -/
structure Document.Valid (doc : Document) (registry : Registry) : Prop where
  states_ne : doc.states ≠ []
  ids_not_blank : ∀ id ∈ Node.allIds doc.states, Text.isBlankText id = false
  ids_nodup : (Node.allIds doc.states).Nodup
  /-- Every node lies inside of the root, so any one will do. -/
  initial : ∀ id, doc.initial = some id → ∃ q, doc.Names id q ∧ q.Inside []
  states : ∀ p d children, doc.nodeAt? p = some (.state d children) →
    d.Admissible children p doc registry

namespace StateDef

variable {d : StateDef} {children : List Node} {doc : Document} {p : Position}

theorem shaped_isEmpty_of_admissible {registry : Registry}
    (h : d.Admissible children p doc registry) : d.Shaped children.isEmpty where
  final hfinal := by
    obtain ⟨hparallel, hchildren, htransitions, -⟩ := h.final hfinal
    exact ⟨hparallel, List.isEmpty_iff.2 hchildren, htransitions⟩
  parallel _ hparallel := by
    obtain ⟨hchildren, hinitial⟩ := h.parallel hparallel
    exact ⟨List.isEmpty_eq_false_iff.2 hchildren, hinitial⟩
  atomic _ _ hchildren := h.childless (List.isEmpty_iff.1 hchildren)

/-- A childless state has nothing inside that it could name. -/
theorem initial_eq_none_of_childless (hnode : doc.nodeAt? p = some (.state d children))
    (hinitial : ∀ id, d.initial = some id → ∃ q, doc.Names id q ∧ q.Inside p)
    (hchildren : children = []) : d.initial = none := by
  cases hname : d.initial with
  | none => rfl
  | some id =>
      obtain ⟨q, hq, hin⟩ := hinitial id hname
      obtain ⟨inner, hinner⟩ := hq.exists_node
      exact absurd hchildren (Document.children_ne_nil_of_inside hnode hinner hin)

end StateDef

namespace Model

variable {doc : Document} {registry : Registry} {pre arena : Arena} {id : String} {slot : Slot}
  {d : StateDef} {s : Nat}

/-! ## Each pass accepts what is valid -/

theorem exists_stateAt_iff (hstate : slot.occupant = .state d) :
    (∃ state, stateAt registry id slot = .ok state) ↔
      d.src = none ∧ d.Shaped slot.children.isEmpty ∧ registry.AcceptsAll d.onEntry ∧
        registry.AcceptsAll d.onExit := by
  simp only [stateAt_state_eq_ok_iff hstate, ← Content.exists_buildAll_iff]
  constructor
  · rintro ⟨state, hsrc, hshaped, onEntry, onExit, hentry, hexit, -⟩
    exact ⟨hsrc, hshaped, ⟨onEntry, hentry⟩, onExit, hexit⟩
  · rintro ⟨hsrc, hshaped, ⟨onEntry, hentry⟩, onExit, hexit⟩
    exact ⟨_, hsrc, hshaped, onEntry, onExit, hentry, hexit, rfl⟩

theorem exists_transitionsOf_iff {defs : List TransitionDef} :
    (∃ ts, transitionsOf registry arena s defs = .ok ts) ↔
      ∀ d ∈ defs, ∃ t, arena.ShowsTransition registry s d t := by
  simp only [transitionsOf_eq_ok_iff]
  induction defs with
  | nil => exact iff_of_true ⟨[], .nil⟩ fun _ h => absurd h List.not_mem_nil
  | cons d rest ih =>
      rw [List.forall_mem_cons, ← ih]
      constructor
      · rintro ⟨ts, h⟩
        obtain ⟨t, ts', ht, hts, -⟩ := List.forall₂_cons_left_iff.1 h
        exact ⟨⟨t, ht⟩, ts', hts⟩
      · rintro ⟨⟨t, ht⟩, ts, hts⟩
        exact ⟨t :: ts, .cons ht hts⟩

namespace Drafted

variable (h : Drafted doc registry pre)
include h

theorem exists_initialOf_iff {written : Option String} (hs : s < pre.size) :
    (∃ initial, initialOf pre s written = .ok initial) ↔
      ∀ name, written = some name → ∃ q, doc.Names name q ∧ q.Inside (doc.position s) := by
  cases written with
  | none => exact iff_of_true ⟨_, rfl⟩ fun _ hname => absurd hname.symm (Option.some_ne_none _)
  | some name =>
      simp only [Option.some.injEq, forall_eq', initialOf_some_eq_ok_iff]
      constructor
      · rintro ⟨_, i, -, hfind, hbelow⟩
        obtain ⟨-, hi, hnames⟩ := h.find?_eq_some_iff.1 hfind
        exact ⟨_, hnames, (h.located.below_iff hi hs).1 hbelow⟩
      · rintro ⟨q, hnames, hin⟩
        obtain ⟨i, hfind, rfl⟩ := h.find?_of_names hnames
        have hi := (h.find?_eq_some_iff.1 hfind).2.1
        exact ⟨_, i, rfl, hfind, (h.located.below_iff hi hs).2 hin⟩

theorem exists_showsTransition_iff {t : TransitionDef} :
    (∃ t', pre.ShowsTransition registry s t t') ↔ t.Admissible doc registry := by
  constructor
  · rintro ⟨t', ht⟩
    refine ⟨fun id hid => ?_, fun text htext => ?_, ?_⟩
    · have htarget := ht.target
      rw [hid] at htarget
      generalize t'.target = g at htarget
      cases htarget with
      | some hfind => exact ⟨_, (h.find?_eq_some_iff.1 hfind).2.2⟩
    · have hevent := ht.event
      rw [htext] at hevent
      exact Event.Pattern.exists_parse_iff.1 ⟨_, hevent⟩
    · exact (Content.exists_buildAll_iff _).1 ⟨_, ht.actions⟩
  · rintro ⟨htarget, hevent, hactions⟩
    have hg : ∃ g, Option.Rel (fun id g => pre.find? id = some g) t.target g := by
      cases hid : t.target with
      | none => exact ⟨none, .none⟩
      | some id =>
          obtain ⟨p, hp⟩ := htarget id hid
          obtain ⟨g, hg, -⟩ := h.find?_of_names hp
          exact ⟨some g, .some hg⟩
    have hpattern : ∃ pattern, t.event.elim (.ok none) Event.Pattern.parse = .ok pattern := by
      cases htext : t.event with
      | none => exact ⟨none, rfl⟩
      | some text => exact Event.Pattern.exists_parse_iff.2 (hevent text htext)
    obtain ⟨g, hg⟩ := hg
    obtain ⟨pattern, hpattern⟩ := hpattern
    obtain ⟨actions, hactions⟩ := (Content.exists_buildAll_iff _).2 hactions
    exact ⟨⟨s, pattern, t.cond, g, t.isInternal, actions⟩, rfl, rfl, rfl, hg, hpattern, hactions⟩

/-- A state that every pass accepts is valid. -/
theorem admissible_of_passes {k : Nat} {children : List Node} {state : StateNode}
    {initial : Option Nat} {ts : List Transition}
    (horigin : doc.Origin k id slot (.state d children)) (hs : k + 1 < pre.size)
    (hstate : stateAt registry id slot = .ok state)
    (hinitial : initialOf pre (k + 1) (writtenInitial slot) = .ok initial)
    (hts : transitionsOf registry pre (k + 1) (writtenTransitions slot) = .ok ts) :
    d.Admissible children (doc.position (k + 1)) doc registry := by
  have hoccupant : slot.occupant = .state d := horigin.made.occupant_eq
  rw [writtenInitial, hoccupant] at hinitial
  rw [writtenTransitions, hoccupant] at hts
  obtain ⟨hsrc, hshaped, hentry, hexit⟩ := (exists_stateAt_iff hoccupant).1 ⟨state, hstate⟩
  rw [show slot.children.isEmpty = children.isEmpty from horigin.isEmpty_eq] at hshaped
  have hinside := (h.exists_initialOf_iff hs).1 ⟨initial, hinitial⟩
  -- the shape alone does not keep a final state from naming an initial one
  have hnone := StateDef.initial_eq_none_of_childless horigin.nodeAt?_eq hinside
  have hnotFinal : d.isParallel = true → d.isFinal = false := fun hparallel => by
    by_contra hfinal
    have hsequential := (hshaped.final (Bool.eq_true_of_not_eq_false hfinal)).1
    rw [hparallel] at hsequential
    cases hsequential
  exact
    { src := hsrc
      final := fun hfinal => by
        obtain ⟨hparallel, hchildren, htransitions⟩ := hshaped.final hfinal
        have hnil := List.isEmpty_iff.1 hchildren
        exact ⟨hparallel, hnil, htransitions, hnone hnil⟩
      parallel := fun hparallel => by
        obtain ⟨hchildren, hinitial⟩ := hshaped.parallel (hnotFinal hparallel) hparallel
        exact ⟨List.isEmpty_eq_false_iff.1 hchildren, hinitial⟩
      childless := hnone
      initial := hinside
      onEntry := hentry
      onExit := hexit
      transitions := fun t ht =>
        h.exists_showsTransition_iff.1 (exists_transitionsOf_iff.1 ⟨ts, hts⟩ t ht) }

theorem exists_initialsFrom (hvalid : doc.Valid registry) :
    ∃ initials, initialsFrom pre Arena.root (writtenInitials doc) = .ok initials := by
  simp only [initialsFrom_eq_ok_iff]
  refine Passed.exists_iff.2 fun k written hk => ?_
  have hlength := (List.getElem?_eq_some_iff.1 hk).1
  rw [writtenInitials, List.length_cons, List.length_map] at hlength
  rw [Arena.root, Nat.zero_add, h.exists_initialOf_iff (h.pre_size ▸ hlength)]
  cases k with
  | zero =>
      obtain rfl : doc.initial = written := Option.some.inj hk
      exact hvalid.initial
  | succ k =>
      obtain ⟨id, slot, node, horigin⟩ :=
        Document.exists_origin (Nat.lt_of_succ_lt_succ hlength)
      obtain rfl := Option.some.inj (hk.symm.trans (getElem?_writtenInitials horigin))
      rw [writtenInitial, horigin.made.occupant_eq]
      cases node with
      | exit e => exact fun _ hname => absurd hname.symm (Option.some_ne_none _)
      | state d children => exact (hvalid.states _ _ _ horigin.nodeAt?_eq).initial

theorem exists_transitionsFrom (hvalid : doc.Valid registry) :
    ∃ transitions,
      transitionsFrom registry pre Arena.root (writtenTransitionLists doc) = .ok transitions := by
  simp only [transitionsFrom_eq_ok_iff]
  refine Passed.exists_iff.2 fun k defs hk => exists_transitionsOf_iff.2 fun t ht => ?_
  refine h.exists_showsTransition_iff.2 ?_
  have hlength := (List.getElem?_eq_some_iff.1 hk).1
  rw [writtenTransitionLists, List.length_cons, List.length_map] at hlength
  cases k with
  | zero =>
      obtain rfl : [] = defs := Option.some.inj hk
      exact absurd ht List.not_mem_nil
  | succ k =>
      obtain ⟨id, slot, node, horigin⟩ :=
        Document.exists_origin (Nat.lt_of_succ_lt_succ hlength)
      obtain rfl := Option.some.inj (hk.symm.trans (getElem?_writtenTransitionLists horigin))
      rw [writtenTransitions, horigin.made.occupant_eq] at ht
      cases node with
      | exit e => exact absurd ht List.not_mem_nil
      | state d children => exact (hvalid.states _ _ _ horigin.nodeAt?_eq).transitions t ht

end Drafted

theorem exists_statesAt (hvalid : doc.Valid registry) :
    ∃ nodes, statesAt registry [] (ofDocument doc) = .ok nodes := by
  have hfresh : Fresh [] ((ofDocument doc).map Prod.fst) :=
    ⟨ofDocument_not_blank_iff.2 hvalid.ids_not_blank, nodup_ofDocument_iff.2 hvalid.ids_nodup,
      fun _ _ => List.not_mem_nil⟩
  simp only [statesAt_eq_ok_iff 0, and_iff_left hfresh]
  refine Passed.exists_iff.2 fun k named hk => ?_
  obtain ⟨id, slot, node, horigin⟩ :=
    Document.exists_origin (List.getElem?_eq_some_iff.1 hk).1
  obtain rfl := Option.some.inj (hk.symm.trans horigin.get)
  have hoccupant := horigin.made.occupant_eq
  cases node with
  | exit e => exact ⟨_, (stateAt_exit_eq_ok_iff hoccupant).2 rfl⟩
  | state d children =>
      have hd := hvalid.states _ _ _ horigin.nodeAt?_eq
      refine (exists_stateAt_iff hoccupant).2 ⟨hd.src, ?_, hd.onEntry, hd.onExit⟩
      rw [horigin.isEmpty_eq]
      exact StateDef.shaped_isEmpty_of_admissible hd

theorem valid_of_stages {model : Model} (h : Stages doc registry model pre) :
    doc.Valid registry where
  states_ne := h.states_ne
  ids_not_blank := ofDocument_not_blank_iff.1 h.fresh.not_blank
  ids_nodup := nodup_ofDocument_iff.1 h.fresh.nodup
  initial := by
    have hsize : Arena.root < pre.size := h.pre_size ▸ Nat.succ_pos _
    exact (h.exists_initialOf_iff hsize).1 ⟨_, h.initial Arena.root _ rfl⟩
  states p d children hnode := by
    obtain ⟨s, h0, hs, rfl⟩ := Document.exists_position_eq hnode
    rw [← h.toDrafted.located.size_eq] at hs
    obtain ⟨k, id, slot, node, rfl, horigin, hstate⟩ := h.exists_origin h0 hs
    obtain rfl := Option.some.inj (horigin.nodeAt?_eq.symm.trans hnode)
    exact h.admissible_of_passes horigin hs hstate (h.initialOf_eq horigin)
      (h.transitionsOf_eq horigin)

/-- A model can be built of the valid documents and of no others. -/
theorem buildable_iff_valid : (∃ model, build doc registry = .ok model) ↔ doc.Valid registry := by
  constructor
  · rintro ⟨model, hbuild⟩
    obtain ⟨pre, hstages⟩ := exists_stages hbuild
    exact valid_of_stages hstages
  · intro hvalid
    obtain ⟨nodes, hnodes⟩ := exists_statesAt hvalid
    have hdrafted := drafted_draft hvalid.states_ne hnodes
    obtain ⟨initials, hinitials⟩ := hdrafted.exists_initialsFrom hvalid
    obtain ⟨transitions, htransitions⟩ := hdrafted.exists_transitionsFrom hvalid
    exact ⟨_, build_eq_ok_iff.2
      ⟨hvalid.states_ne, nodes, initials, transitions, hnodes, hinitials, htransitions, rfl⟩⟩

end Model
end Statechart
