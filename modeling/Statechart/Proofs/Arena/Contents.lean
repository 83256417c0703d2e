import Statechart.Proofs.Arena.Built

/-!
# Where the content of a model comes from

All content of a built model, at any depth of its branches, is built-in or was made by an action
type of the registry (`builtWith_of_build`).  So what the action types of a registry have in
common with the built-in actions holds of everything that the engine runs.
-/

namespace Statechart

/-- A built-in action, an action that a registered type made, or a branch between blocks of such
actions. -/
inductive Action.BuiltWith (registry : Registry) : Action → Prop
  | log (label expr : Option String) : BuiltWith registry (.log label expr)
  | assign (location expr : String) : BuiltWith registry (.assign location expr)
  | raise (event : String) : BuiltWith registry (.raise event)
  | send (event : String) (expr : Option String) : BuiltWith registry (.send event expr)
  | exitReport (expr : Option String) (names : List String) :
    BuiltWith registry (.exitReport expr names)
  | branch (cond : String) {actions otherwise : List Action}
      (hactions : ∀ action ∈ actions, BuiltWith registry action)
      (hotherwise : ∀ action ∈ otherwise, BuiltWith registry action) :
    BuiltWith registry (.branch cond actions otherwise)
  | custom {space name : String} {type : ActionType} {attributes : Fields Value}
      {run : View → Outcome} (hresolve : registry.resolve space name = some type)
      (hmake : type.make attributes = some run) : BuiltWith registry (.custom space name run)

variable {registry : Registry}

namespace Content

mutual

theorem builtWith_build {content : Content} {action : Action}
    (h : content.build registry = .ok action) : action.BuiltWith registry := by
  cases content with
  | log label expr =>
      obtain rfl := Except.ok.inj h
      exact .log label expr
  | assign location expr =>
      obtain rfl := Except.ok.inj h
      exact .assign location expr
  | raise event =>
      obtain rfl := Except.ok.inj h
      exact .raise event
  | send event expr =>
      obtain rfl := Except.ok.inj h
      exact .send event expr
  | branch cond actions otherwise =>
      obtain ⟨first, hfirst, h⟩ := bind_eq_ok.1 h
      obtain ⟨second, hsecond, h⟩ := bind_eq_ok.1 h
      obtain rfl := pure_eq_ok.1 h
      exact .branch cond (builtWith_buildAll hfirst) (builtWith_buildAll hsecond)
  | custom space name attributes =>
      -- the one place where code of the host comes into a model
      unfold Content.build at h
      split at h
      · cases h
      next type htype =>
      split at h
      · cases h
      next run hrun =>
      obtain rfl := Except.ok.inj h
      exact .custom htype hrun

theorem builtWith_buildAll {contents : List Content} {actions : List Action}
    (h : Content.buildAll registry contents = .ok actions) :
    ∀ action ∈ actions, action.BuiltWith registry := by
  cases contents with
  | nil =>
      obtain rfl := Except.ok.inj h
      exact fun action hmem => nomatch hmem
  | cons content rest =>
      obtain ⟨action, haction, h⟩ := bind_eq_ok.1 h
      obtain ⟨actions', hactions, h⟩ := bind_eq_ok.1 h
      obtain rfl := pure_eq_ok.1 h
      exact List.forall_mem_cons.2 ⟨builtWith_build haction, builtWith_buildAll hactions⟩

end

end Content

/-! ## Models -/

/-- All blocks of content of a model hold actions from the registry. -/
structure Arena.BuiltWith (arena : Arena) (registry : Registry) : Prop where
  onEntry : ∀ s, ∀ action ∈ (arena.state s).onEntry, action.BuiltWith registry
  onExit : ∀ s, ∀ action ∈ (arena.state s).onExit, action.BuiltWith registry
  transition : ∀ s, ∀ t ∈ (arena.state s).transitions, ∀ action ∈ t.actions,
    action.BuiltWith registry

theorem Arena.BuiltWith.actions {arena : Arena} (h : arena.BuiltWith registry)
    (t : TransitionRef) : ∀ action ∈ (arena.transition t).actions, action.BuiltWith registry := by
  unfold Arena.transition
  cases hget : (arena.state t.source).transitions[t.position]? with
  | none => exact fun action hmem => nomatch hmem
  | some transition => exact h.transition t.source transition (List.mem_of_getElem? hget)

namespace Model

theorem builtWith_of_stateAt {id : String} {slot : Layout.Slot} {node : StateNode}
    (h : stateAt registry id slot = .ok node) :
    (∀ action ∈ node.onEntry, action.BuiltWith registry) ∧
      ∀ action ∈ node.onExit, action.BuiltWith registry := by
  cases hoccupant : slot.occupant with
  | exit e =>
      obtain rfl := (stateAt_exit_eq_ok_iff hoccupant).1 h
      exact ⟨List.forall_mem_singleton.2 (.exitReport _ _), fun action hmem => nomatch hmem⟩
  | state d =>
      obtain ⟨-, -, _, _, hentry, hexit, rfl⟩ := (stateAt_state_eq_ok_iff hoccupant).1 h
      exact ⟨Content.builtWith_buildAll hentry, Content.builtWith_buildAll hexit⟩

/-- The content of a stage of the build, the root having none. -/
theorem Drafted.builtWith_pre {doc : Document} {pre : Arena} (h : Drafted doc registry pre)
    (s : Nat) :
    (∀ action ∈ (pre.state s).onEntry, action.BuiltWith registry) ∧
      ∀ action ∈ (pre.state s).onExit, action.BuiltWith registry := by
  rcases Nat.eq_zero_or_pos s with rfl | hs
  · rw [show pre.state 0 = _ from h.pre_root]
    exact ⟨fun action hmem => (nomatch hmem), fun action hmem => nomatch hmem⟩
  obtain ⟨k, rfl⟩ : ∃ k, s = k + 1 := ⟨s - 1, by omega⟩
  cases hk : (Layout.ofDocument doc)[k]? with
  | some named => exact builtWith_of_stateAt (h.pre_state k named.1 named.2 hk)
  | none =>
      have hle := List.getElem?_eq_none_iff.1 hk
      have hsize := h.pre_size
      rw [Arena.state_of_size_le (by omega)]
      exact ⟨fun action hmem => (nomatch hmem), fun action hmem => nomatch hmem⟩

/-- All content of a built model is built-in or comes from the registry. -/
theorem builtWith_of_build {doc : Document} {model : Model}
    (hbuild : build doc registry = .ok model) : model.arena.BuiltWith registry := by
  obtain ⟨pre, h⟩ := exists_stages hbuild
  refine ⟨fun s => ?_, fun s => ?_, fun s t ht => ?_⟩
  · rw [h.state_eq]
    exact (h.toDrafted.builtWith_pre s).1
  · rw [h.state_eq]
    exact (h.toDrafted.builtWith_pre s).2
  · obtain ⟨d, hd⟩ := h.exists_shown ht
    exact Content.builtWith_buildAll hd.actions

end Model
end Statechart
