import Statechart.Proofs.Arena.Built

/-!
# The sources of a document

The paths that the states of a document name as their sources, and that a document without
any is never refused for a source that was not loaded.
-/

namespace Statechart

namespace Node

mutual

/-- The sources of the states of a tree, in document order. -/
def sources : Node → List String
  | exit _ => []
  | state definition children => definition.src.toList ++ allSources children

/-- The sources of the states of some trees, in document order. -/
def allSources : List Node → List String
  | [] => []
  | node :: rest => node.sources ++ allSources rest

end

theorem allSources_append (nodes more : List Node) :
    allSources (nodes ++ more) = allSources nodes ++ allSources more := by
  induction nodes with
  | nil => rfl
  | cons node rest ih =>
      rw [List.cons_append, allSources, allSources, ih, List.append_assoc]

end Node

/-- The sources of the states of a document, at any depth. -/
def Document.sources (doc : Document) : List String :=
  Node.allSources doc.states

namespace Layout

mutual

/-- A state of a tree brings its source. -/
theorem mem_sources_of_mem_slots {parent next : Nat} (node : Node) {slot : Slot} {d : StateDef}
    {src : String} (hslot : slot ∈ slots parent next node) (hd : slot.occupant = .state d)
    (hsrc : d.src = some src) : src ∈ node.sources := by
  cases node with
  | exit definition =>
      obtain rfl := List.mem_singleton.1 hslot
      cases hd
  | state definition children =>
      rw [Node.sources]
      rcases List.mem_cons.1 hslot with rfl | hslot
      · cases hd
        exact List.mem_append_left _ (by rw [hsrc]; exact List.mem_singleton_self src)
      · exact List.mem_append_right _ (mem_allSources_of_mem_slots children hslot hd hsrc)

theorem mem_allSources_of_mem_slots {parent next : Nat} (nodes : List Node) {slot : Slot}
    {d : StateDef} {src : String} (hslot : slot ∈ slotsOfAll parent next nodes)
    (hd : slot.occupant = .state d) (hsrc : d.src = some src) : src ∈ Node.allSources nodes := by
  cases nodes with
  | nil => cases hslot
  | cons node rest =>
      rw [Node.allSources]
      rcases List.mem_append.1 hslot with hslot | hslot
      · exact List.mem_append_left _ (mem_sources_of_mem_slots node hslot hd hsrc)
      · exact List.mem_append_right _ (mem_allSources_of_mem_slots rest hslot hd hsrc)

end

end Layout

/-- The result is not the refusal of a source that was not loaded. -/
def Sourced {α : Type} (result : Built α) : Prop :=
  ∀ state src, result ≠ .error (.unloadedSource state src)

namespace Sourced

variable {α β : Type} {registry : Registry} {arena : Arena}

theorem ok (a : α) : Sourced (.ok a) := fun _ _ h => by cases h

theorem bind {first : Built α} {next : α → Built β} (hfirst : Sourced first)
    (hnext : ∀ a, Sourced (next a)) : Sourced (first >>= next) := by
  cases first with
  | error error => exact fun state src h => hfirst state src (by cases h; rfl)
  | ok a => exact hnext a

mutual

theorem build (content : Content) : Sourced (content.build registry) := by
  cases content with
  | branch cond actions otherwise =>
      rw [Content.build]
      exact (buildAll actions).bind fun _ => (buildAll otherwise).bind fun _ => ok _
  | custom space name attributes =>
      rw [Content.build]
      split
      · exact fun _ _ h => by cases h
      · split
        · exact fun _ _ h => by cases h
        · exact ok _
  | _ => rw [Content.build]; exact ok _

theorem buildAll (block : List Content) : Sourced (Content.buildAll registry block) := by
  cases block with
  | nil => rw [Content.buildAll]; exact ok _
  | cons content rest =>
      rw [Content.buildAll]
      exact (build content).bind fun _ => (buildAll rest).bind fun _ => ok _

end

open Model

theorem kindOf (d : StateDef) (isChildless : Bool) : Sourced (kindOf d isChildless) := by
  intro state src h
  unfold Model.kindOf at h
  repeat' split at h
  all_goals cases h

theorem stateAt {id : String} {slot : Layout.Slot}
    (hsrc : ∀ d, slot.occupant = .state d → d.src = none) :
    Sourced (stateAt registry id slot) := by
  unfold Model.stateAt
  split
  · exact ok _
  · next d hd =>
    rw [hsrc d hd]
    exact (kindOf _ _).bind fun _ => (buildAll _).bind fun _ => (buildAll _).bind fun _ => ok _

theorem checkId (used : List String) (id : String) : Sourced (checkId used id) := by
  intro state src h
  unfold Model.checkId at h
  repeat' split at h
  all_goals cases h

theorem statesAt {slots : List (String × Layout.Slot)} (used : List String)
    (hsrc : ∀ pair ∈ slots, ∀ d, pair.2.occupant = .state d → d.src = none) :
    Sourced (statesAt registry used slots) := by
  induction slots generalizing used with
  | nil => exact ok _
  | cons pair rest ih =>
      obtain ⟨hfirst, hrest⟩ := List.forall_mem_cons.1 hsrc
      exact (stateAt hfirst).bind fun _ => (checkId _ _).bind fun _ => (ih _ hrest).bind fun _ =>
        ok _

theorem initialOf (owner : Nat) (written : Option String) :
    Sourced (initialOf arena owner written) := by
  cases written with
  | none => exact ok _
  | some initial =>
      refine bind (fun state src h => ?_) fun _ => ok _
      unfold namedInitial at h
      repeat' split at h
      all_goals cases h

theorem initialsFrom (owner : Nat) (writtens : List (Option String)) :
    Sourced (initialsFrom arena owner writtens) := by
  induction writtens generalizing owner with
  | nil => exact ok _
  | cons written rest ih => exact (initialOf owner written).bind fun _ => (ih _).bind fun _ => ok _

theorem transitionOf (source : Nat) (t : TransitionDef) :
    Sourced (transitionOf registry arena source t) := by
  refine bind (fun state src h => ?_) fun _ => bind (fun state src h => ?_) fun _ =>
    (buildAll _).bind fun _ => ok _
  · unfold targetOf at h
    repeat' split at h
    all_goals cases h
  · unfold patternOf at h
    repeat' split at h
    all_goals cases h

theorem transitionsOf (source : Nat) (ts : List TransitionDef) :
    Sourced (transitionsOf registry arena source ts) := by
  induction ts with
  | nil => exact ok _
  | cons t rest ih => exact (transitionOf source t).bind fun _ => ih.bind fun _ => ok _

theorem transitionsFrom (source : Nat) (lists : List (List TransitionDef)) :
    Sourced (transitionsFrom registry arena source lists) := by
  induction lists generalizing source with
  | nil => exact ok _
  | cons ts rest ih => exact (transitionsOf source ts).bind fun _ => (ih _).bind fun _ => ok _

end Sourced

theorem Layout.src_eq_none {doc : Document} (h : doc.sources = []) :
    ∀ pair ∈ ofDocument doc, ∀ d, pair.2.occupant = .state d → d.src = none := by
  intro pair hpair d hd
  have hslot : pair.2 ∈ (ofDocument doc).map Prod.snd := List.mem_map_of_mem hpair
  rw [ofDocument, Model.map_snd_withIds] at hslot
  refine Option.eq_none_iff_forall_ne_some.2 fun src hsrc => ?_
  have hmem : src ∈ doc.sources := mem_allSources_of_mem_slots doc.states hslot hd hsrc
  rw [h] at hmem
  cases hmem

/-- A document whose states have no sources is never refused for one. -/
theorem Model.sourced_build {doc : Document} {registry : Registry} (h : doc.sources = []) :
    Sourced (build doc registry) := by
  unfold build
  by_cases hstates : doc.states.isEmpty
  · intro state src heq
    simp [bind, Except.bind, throw, throwThe, MonadExceptOf.throw, hstates] at heq
  · simp only [hstates, Bool.false_eq_true, if_false]
    exact (Sourced.statesAt [] (Layout.src_eq_none h)).bind fun _ =>
      (Sourced.initialsFrom _ _).bind fun _ => (Sourced.transitionsFrom _ _).bind fun _ =>
        Sourced.ok _

end Statechart
