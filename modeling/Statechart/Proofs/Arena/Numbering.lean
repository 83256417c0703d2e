import Statechart.Proofs.Arena.Depiction
import Statechart.Proofs.Document.ExitNumbers

/-!
# Exits have numbers of their own

A document is refused for an identifier in one place only, where the states are laid out
(`sparesIds_stateAt` and its like say so of all the others), and there for the identifier of
a slot.  The identifiers of exits are neither blank nor used twice, so a refused identifier
is always one that is written (`two_le_count_of_build`, `exists_blank_of_build`).

`Document.NumbersExits` puts together what is known of the identifiers of exits.
-/

namespace Statechart

open Layout

/-- Holds of the errors that are about the identifier of a state. -/
def BuildError.IsAboutId : BuildError → Prop
  | blankId => True
  | duplicateId _ => True
  | _ => False

/-! ## What refuses no identifier -/

/-- A part of a build that does not fail for an identifier. -/
def SparesIds {α : Type} (part : Built α) : Prop :=
  ∀ error, part = .error error → ¬ error.IsAboutId

section SparesIds

variable {α β : Type} {part : Built α} {error : BuildError}

theorem sparesIds_ok (a : α) : SparesIds (.ok a) := fun _ h => nomatch h

theorem sparesIds_error (h : ¬ error.IsAboutId) : SparesIds (.error error : Built α) := by
  rintro _ ⟨⟩
  exact h

theorem SparesIds.bind {next : α → Built β} (h : SparesIds part)
    (hnext : ∀ a, SparesIds (next a)) : SparesIds (part >>= next) := by
  intro error herror
  rcases bind_eq_error.1 herror with hfirst | ⟨a, -, hsecond⟩
  · exact h error hfirst
  · exact hnext a error hsecond

end SparesIds

namespace Content

mutual

theorem sparesIds_build (registry : Registry) (content : Content) :
    SparesIds (content.build registry) := by
  cases content with
  | log label expr => exact sparesIds_ok _
  | assign location expr => exact sparesIds_ok _
  | raise event => exact sparesIds_ok _
  | send event expr => exact sparesIds_ok _
  | branch cond actions otherwise =>
      exact (sparesIds_buildAll registry actions).bind fun _ =>
        (sparesIds_buildAll registry otherwise).bind fun _ => sparesIds_ok _
  | custom space name attributes =>
      unfold build
      split
      · exact sparesIds_error id
      · split
        · exact sparesIds_error id
        · exact sparesIds_ok _

theorem sparesIds_buildAll (registry : Registry) (contents : List Content) :
    SparesIds (buildAll registry contents) := by
  cases contents with
  | nil => exact sparesIds_ok _
  | cons content rest =>
      exact (sparesIds_build registry content).bind fun _ =>
        (sparesIds_buildAll registry rest).bind fun _ => sparesIds_ok _

end

end Content

namespace Model

variable {doc : Document} {registry : Registry} {error : BuildError} {id : String}
  {used : List String}

theorem sparesIds_kindOf (d : StateDef) (isChildless : Bool) :
    SparesIds (kindOf d isChildless) := by
  intro error h
  unfold kindOf at h
  repeat' split at h
  all_goals cases h
  all_goals exact fun habout => habout

theorem sparesIds_stateAt (registry : Registry) (id : String) (slot : Slot) :
    SparesIds (stateAt registry id slot) := by
  unfold stateAt
  split
  · exact sparesIds_ok _
  · split
    · exact sparesIds_error fun habout => habout
    · exact (sparesIds_kindOf _ _).bind fun _ => (Content.sparesIds_buildAll _ _).bind fun _ =>
        (Content.sparesIds_buildAll _ _).bind fun _ => sparesIds_ok _

theorem sparesIds_initialOf (arena : Arena) (owner : Nat) (written : Option String) :
    SparesIds (initialOf arena owner written) := by
  cases written with
  | none => exact sparesIds_ok _
  | some initial =>
      have hnamed : SparesIds (namedInitial arena owner initial) := by
        unfold namedInitial
        split
        · split
          · exact sparesIds_ok _
          · exact sparesIds_error fun habout => habout
        · exact sparesIds_error fun habout => habout
      exact hnamed.bind fun _ => sparesIds_ok _

theorem sparesIds_initialsFrom (arena : Arena) (owner : Nat) (written : List (Option String)) :
    SparesIds (initialsFrom arena owner written) := by
  induction written generalizing owner with
  | nil => exact sparesIds_ok _
  | cons initial rest ih =>
      exact (sparesIds_initialOf arena owner initial).bind fun _ =>
        (ih (owner + 1)).bind fun _ => sparesIds_ok _

theorem sparesIds_transitionOf (registry : Registry) (arena : Arena) (source : Nat)
    (t : TransitionDef) : SparesIds (transitionOf registry arena source t) := by
  have htarget : SparesIds (targetOf arena source t.target) := by
    unfold targetOf
    split
    · exact sparesIds_ok _
    · split
      · exact sparesIds_ok _
      · exact sparesIds_error fun habout => habout
  have hpattern : SparesIds (patternOf arena source t.event) := by
    unfold patternOf
    split
    · exact sparesIds_ok _
    · split
      · exact sparesIds_ok _
      · exact sparesIds_error fun habout => habout
  exact htarget.bind fun _ => hpattern.bind fun _ =>
    (Content.sparesIds_buildAll registry t.actions).bind fun _ => sparesIds_ok _

theorem sparesIds_transitionsFrom (registry : Registry) (arena : Arena) (source : Nat)
    (written : List (List TransitionDef)) :
    SparesIds (transitionsFrom registry arena source written) := by
  have hstate (s : Nat) (defs : List TransitionDef) :
      SparesIds (transitionsOf registry arena s defs) := by
    induction defs with
    | nil => exact sparesIds_ok _
    | cons t rest ih =>
        exact (sparesIds_transitionOf registry arena s t).bind fun _ =>
          ih.bind fun _ => sparesIds_ok _
  induction written generalizing source with
  | nil => exact sparesIds_ok _
  | cons defs rest ih =>
      exact (hstate source defs).bind fun _ => (ih (source + 1)).bind fun _ => sparesIds_ok _

/-! ## What an identifier is refused for -/

/-- An identifier is refused if it is blank, or if it stands twice among those that are used
and those of the slots. -/
theorem error_of_statesAt {slots : List (String × Slot)}
    (h : statesAt registry used slots = .error error) (habout : error.IsAboutId) :
    (error = .blankId ∧ ∃ id ∈ slots.map Prod.fst, Text.isBlankText id = true) ∨
      ∃ id, error = .duplicateId id ∧ 2 ≤ used.count id + (slots.map Prod.fst).count id := by
  induction slots generalizing used with
  | nil => cases h
  | cons named rest ih =>
      obtain ⟨id, slot⟩ := named
      rcases bind_eq_error.1 h with hstate | ⟨node, -, h⟩
      · exact absurd habout (sparesIds_stateAt registry id slot error hstate)
      rcases bind_eq_error.1 h with hid | ⟨_, -, h⟩
      · unfold checkId at hid
        split at hid
        · next hblank =>
          cases hid
          exact .inl ⟨rfl, id, List.mem_cons_self, hblank⟩
        split at hid
        · next hused =>
          cases hid
          have hbefore := List.count_pos_iff.2 (List.contains_iff_mem.1 hused)
          refine .inr ⟨id, rfl, ?_⟩
          rw [List.map_cons, List.count_cons_self]
          omega
        · cases hid
      rcases bind_eq_error.1 h with hrest | ⟨nodes, -, h⟩
      · rcases ih hrest with ⟨heq, blank, hblank⟩ | ⟨twice, heq, hcount⟩
        · exact .inl ⟨heq, blank, List.mem_cons_of_mem _ hblank.1, hblank.2⟩
        · -- the identifier went from the slots to those that are used
          refine .inr ⟨twice, heq, ?_⟩
          simp only [List.map_cons, List.count_cons] at hcount ⊢
          omega
      · cases h

theorem error_of_build (h : build doc registry = .error error) (habout : error.IsAboutId) :
    statesAt registry [] (ofDocument doc) = .error error := by
  unfold build at h
  dsimp only at h
  split at h
  · cases h
    exact habout.elim
  rcases bind_eq_error.1 h with hstates | ⟨nodes, -, h⟩
  · exact hstates
  rcases bind_eq_error.1 h with hinitials | ⟨initials, -, h⟩
  · exact absurd habout (sparesIds_initialsFrom _ _ _ error hinitials)
  rcases bind_eq_error.1 h with htransitions | ⟨transitions, -, h⟩
  · exact absurd habout (sparesIds_transitionsFrom _ _ _ _ error htransitions)
  · cases h

/-- An identifier that is refused for being used twice is written twice. -/
theorem two_le_count_of_build (h : build doc registry = .error (.duplicateId id)) :
    2 ≤ (Node.allIds doc.states).count id := by
  rcases error_of_statesAt (error_of_build h trivial) trivial with ⟨heq, -⟩ | ⟨_, heq, hcount⟩
  · cases heq
  · cases heq
    rw [List.count_nil, Nat.zero_add] at hcount
    exact Document.two_le_count_allIds hcount

/-- A document that is refused for a blank identifier has one written in it. -/
theorem exists_blank_of_build (h : build doc registry = .error .blankId) :
    ∃ id ∈ Node.allIds doc.states, Text.isBlankText id = true := by
  rcases error_of_statesAt (error_of_build h trivial) trivial with ⟨-, hblank⟩ | ⟨_, heq, -⟩
  · by_contra hnone
    simp only [not_exists, not_and, Bool.not_eq_true] at hnone
    obtain ⟨id, hid, htrue⟩ := hblank
    have hfalse := Layout.ofDocument_not_blank_iff.2 hnone id hid
    rw [htrue] at hfalse
    cases hfalse
  · cases heq

/-- In a built model an exit is a state without a name in the document, and it is found by
its identifier. -/
theorem exists_state_of_exit {model : Model} (h : build doc registry = .ok model) {k : Nat}
    {p : Position} (hp : doc.exits[k]? = some p) :
    ∃ s, doc.position s = p ∧ (model.arena.state s).isAnonymous = true ∧
      (model.arena.state s).id = exitId (doc.freeNumber k) ∧
      model.arena.find? (exitId (doc.freeNumber k)) = some s := by
  obtain ⟨pre, hstages⟩ := exists_stages h
  obtain ⟨s, hfind, hposition⟩ :=
    hstages.toDrafted.find?_of_names (Document.names_freeNumber hp)
  obtain ⟨h0, hs, hnames⟩ := hstages.toDrafted.find?_eq_some_iff.1 hfind
  obtain ⟨node, hnode, hshown⟩ := hstages.shows h0 hs
  obtain ⟨e, he⟩ := Document.exists_exit_of_mem_exits (List.mem_of_getElem? hp)
  rw [hposition, he] at hnode
  obtain rfl := Option.some.inj hnode
  refine ⟨s, hposition, hshown.isAnonymous_eq, ?_, ?_⟩
  · rw [hstages.id_eq]
    exact (hstages.toDrafted.named h0 hs).id_eq hnames
  · rw [hstages.find?_eq, hfind]

end Model

namespace Document

/-- How the exits of a document get their identifiers. -/
structure NumbersExits (doc : Document) : Prop where
  /-- The slot of the exit that comes `k`-th, counted from `0`, is laid out with the `k`-th
  free number. -/
  laidOut : ∀ k p, doc.exits[k]? = some p →
    ∃ i slot e, doc.Origin i (exitId (Nat.nth doc.IsFree k)) slot (.exit e) ∧
      doc.position (i + 1) = p
  exitIds_eq : doc.exitIds =
    (List.range doc.exits.length).map fun k => exitId (Nat.nth doc.IsFree k)
  /-- There are free numbers without end, so each of these is one. -/
  infinite : {n | doc.IsFree n}.Infinite
  /-- The search for the next number ends, wherever it starts, at the first free one. -/
  search : ∀ next, IsLeast {n | next ≤ n ∧ doc.IsFree n}
    (freeFrom (Node.allIds doc.states) (Node.allIds doc.states).length next)
  nodup : doc.exitIds.Nodup
  unwritten : ∀ id ∈ doc.exitIds, id ∉ Node.allIds doc.states
  /-- What is refused for being used twice is written twice. -/
  duplicate : ∀ registry id, Model.build doc registry = .error (.duplicateId id) →
    2 ≤ (Node.allIds doc.states).count id
  blank : ∀ registry, Model.build doc registry = .error .blankId →
    ∃ id ∈ Node.allIds doc.states, Text.isBlankText id = true
  /-- In a built model the exits have these identifiers. -/
  built : ∀ registry model, Model.build doc registry = .ok model →
    ∀ k p, doc.exits[k]? = some p →
      ∃ s, doc.position s = p ∧ (model.arena.state s).isAnonymous = true ∧
        (model.arena.state s).id = exitId (Nat.nth doc.IsFree k) ∧
        model.arena.find? (exitId (Nat.nth doc.IsFree k)) = some s
  /-- Nothing matters but the number of exits and the set of written identifiers. -/
  alike : ∀ other : Document, other.exits.length = doc.exits.length →
    (∀ id, id ∈ Node.allIds other.states ↔ id ∈ Node.allIds doc.states) →
      other.exitIds = doc.exitIds

/-- The exits of every document are numbered in document order by the numbers that are free
in it. -/
theorem numbersExits (doc : Document) : doc.NumbersExits where
  laidOut _ _ := exists_origin_of_exit
  exitIds_eq := doc.exitIds_eq
  infinite := doc.infinite_isFree
  search := doc.isLeast_freeFrom
  nodup := doc.nodup_exitIds
  unwritten _ := not_mem_allIds_of_mem_exitIds
  duplicate _ _ := Model.two_le_count_of_build
  blank _ := Model.exists_blank_of_build
  built _ _ h _ _ := Model.exists_state_of_exit h
  alike other hlength hids := by
    rw [other.exitIds_eq, doc.exitIds_eq, hlength, freeNumber_congr hids]

end Document
end Statechart
