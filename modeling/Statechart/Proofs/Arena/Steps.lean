import Mathlib.Data.List.Forall2
import Statechart.Model.Build
import Statechart.Proofs.Arena.Hierarchy
import Statechart.Proofs.Outcome

/-!
# What each step of a build gives

Every function that a build calls gets one lemma that says when it succeeds and
what it gives then.  Later proofs take a successful build apart with these
lemmas, and put one together with them, and open none of the functions.

The steps are looked at one by one here; which arena they work on is not said.
-/

namespace Statechart

/-! ## The shape of a state -/

namespace StateDef

/-- The kind of a state by its flags and its children. -/
def kind (d : StateDef) (isChildless : Bool) : StateKind :=
  if d.isFinal then .final
  else if d.isParallel then .parallel
  else if isChildless then .atomic
  else .compound

/-- The flags of a state go together with its children, its transitions and its
initial state. -/
@[mk_iff]
structure Shaped (d : StateDef) (isChildless : Bool) : Prop where
  final : d.isFinal = true → d.isParallel = false ∧ isChildless = true ∧ d.transitions = []
  parallel : d.isFinal = false → d.isParallel = true → isChildless = false ∧ d.initial = none
  atomic : d.isFinal = false → d.isParallel = false → isChildless = true → d.initial = none

variable {d : StateDef} {isChildless : Bool}

theorem Shaped.initial_eq_none (h : d.Shaped isChildless) (hkind : d.kind isChildless = .parallel) :
    d.initial = none := by
  unfold kind at hkind
  split at hkind
  · cases hkind
  next hfinal =>
  split at hkind
  · next hparallel => exact (h.parallel (Bool.eq_false_iff.2 hfinal) hparallel).2
  · split at hkind <;> cases hkind

theorem isFinal_of_kind (hkind : d.kind isChildless = .final) : d.isFinal = true := by
  unfold kind at hkind
  split at hkind
  · assumption
  · split at hkind
    · cases hkind
    · split at hkind <;> cases hkind

/-- The kind of a state fits the number of its children. -/
theorem Shaped.kind_isLeaf (h : d.Shaped isChildless) :
    (d.kind isChildless == .atomic || d.kind isChildless == .final) = isChildless := by
  unfold kind
  split
  · next hfinal => exact (h.final hfinal).2.1.symm
  next hfinal =>
  split
  · next hparallel => exact (h.parallel (Bool.eq_false_iff.2 hfinal) hparallel).1.symm
  · cases isChildless <;> rfl

end StateDef

/-! ## Looking up identifiers -/

namespace Arena

variable {arena : Arena} {s : Nat} {id : String}

theorem find?_bounds (h : arena.find? id = some s) : root < s ∧ s < arena.size := by
  have hmem := List.mem_of_find?_eq_some h
  rw [List.mem_range'_1] at hmem
  simp only [root]
  omega

theorem id_of_find? (h : arena.find? id = some s) : (arena.state s).id = id := by
  unfold find? at h
  have hbeq := List.find?_some h
  exact eq_of_beq hbeq

/-- Where identifiers are distinct, looking them up inverts them. -/
theorem find?_eq_some_iff
    (hinj : ∀ a b, root < a → a < arena.size → root < b → b < arena.size →
      (arena.state a).id = (arena.state b).id → a = b) :
    arena.find? id = some s ↔ root < s ∧ s < arena.size ∧ (arena.state s).id = id := by
  constructor
  · intro h
    obtain ⟨h0, hs⟩ := find?_bounds h
    exact ⟨h0, hs, id_of_find? h⟩
  · rintro ⟨h0, hs, hid⟩
    have hmem : s ∈ List.range' 1 (arena.size - 1) := by
      rw [List.mem_range'_1]
      simp only [root] at h0
      omega
    cases hfind : arena.find? id with
    | none => exact absurd (beq_iff_eq.2 hid) (List.find?_eq_none.1 hfind s hmem)
    | some r =>
        obtain ⟨hr0, hr⟩ := find?_bounds hfind
        rw [hinj r s hr0 hr h0 hs ((id_of_find? hfind).trans hid.symm)]

/-- A transition is what the document describes at the state `source`. -/
structure ShowsTransition (arena : Arena) (registry : Registry) (source : Nat)
    (d : TransitionDef) (t : Transition) : Prop where
  source_eq : t.source = source
  cond_eq : t.cond = d.cond
  isInternal_eq : t.isInternal = d.isInternal
  target : Option.Rel (fun id g => arena.find? id = some g) d.target t.target
  event : d.event.elim (.ok none) Event.Pattern.parse = .ok t.event
  actions : Content.buildAll registry d.actions = .ok t.actions

theorem ShowsTransition.target_bounds {registry : Registry} {d : TransitionDef} {t : Transition}
    (h : arena.ShowsTransition registry s d t) {g : Nat} (hg : t.target = some g) :
    root < g ∧ g < arena.size := by
  have htarget := h.target
  rw [hg] at htarget
  generalize d.target = target at htarget
  cases htarget with
  | some hfind => exact find?_bounds hfind

/-- The ancestors of a state are found along its parents. -/
theorem transGen_of_mem_ancestorsUpTo {fuel a : Nat} (h : a ∈ arena.ancestorsUpTo fuel s) :
    Relation.TransGen arena.Parent s a := by
  induction fuel generalizing s with
  | zero => exact absurd h List.not_mem_nil
  | succ fuel ih =>
      unfold ancestorsUpTo at h
      split at h
      · exact absurd h List.not_mem_nil
      · next p hp =>
        rcases List.mem_cons.1 h with rfl | h
        · exact .single hp
        · exact .head hp (ih h)

end Arena

namespace Model

open Layout

variable {registry : Registry} {arena : Arena} {id : String} {slot : Slot} {state : StateNode}
  {d : StateDef} {s : Nat}

/-! ## States -/

theorem kindOf_eq_ok_iff {isChildless : Bool} {kind : StateKind} :
    kindOf d isChildless = .ok kind ↔ d.Shaped isChildless ∧ kind = d.kind isChildless := by
  rw [StateDef.shaped_iff]
  unfold kindOf StateDef.kind
  cases d.isFinal with
  | true =>
      cases d.isParallel <;> cases isChildless <;> cases d.transitions <;> simp [eq_comm]
  | false =>
      cases d.isParallel <;> cases isChildless <;> cases d.initial <;> simp [eq_comm]

theorem stateAt_exit_eq_ok_iff {e : ExitDef} (hexit : slot.occupant = .exit e) :
    stateAt registry id slot = .ok state ↔
      state =
        { id, kind := .final, parent := some slot.parent, children := slot.children
          initial := none, isAnonymous := true, onEntry := [exitAction e], onExit := []
          transitions := [] } := by
  unfold stateAt
  rw [hexit, Except.ok.injEq, eq_comm]

theorem stateAt_state_eq_ok_iff (hstate : slot.occupant = .state d) :
    stateAt registry id slot = .ok state ↔
      d.src = none ∧ d.Shaped slot.children.isEmpty ∧ ∃ onEntry onExit,
        Content.buildAll registry d.onEntry = .ok onEntry ∧
        Content.buildAll registry d.onExit = .ok onExit ∧
        state =
          { id, kind := d.kind slot.children.isEmpty, parent := some slot.parent
            children := slot.children, initial := none, isAnonymous := false
            onEntry, onExit, transitions := [] } := by
  unfold stateAt
  rw [hstate]
  dsimp only
  cases hsrc : d.src with
  | some src => simp
  | none =>
      rw [and_iff_right rfl]
      constructor
      · intro h
        obtain ⟨kind, hkind, h⟩ := bind_eq_ok.1 h
        obtain ⟨onEntry, hentry, h⟩ := bind_eq_ok.1 h
        obtain ⟨onExit, hexit, h⟩ := bind_eq_ok.1 h
        obtain ⟨hshaped, rfl⟩ := kindOf_eq_ok_iff.1 hkind
        exact ⟨hshaped, onEntry, onExit, hentry, hexit, (pure_eq_ok.1 h).symm⟩
      · rintro ⟨hshaped, onEntry, onExit, hentry, hexit, rfl⟩
        refine bind_eq_ok.2 ⟨_, kindOf_eq_ok_iff.2 ⟨hshaped, rfl⟩, ?_⟩
        exact bind_eq_ok.2 ⟨onEntry, hentry, bind_eq_ok.2 ⟨onExit, hexit, rfl⟩⟩

/-! ## Transitions -/

theorem targetOf_eq_ok_iff {target : Option String} {g : Option Nat} :
    targetOf arena s target = .ok g ↔
      Option.Rel (fun id g => arena.find? id = some g) target g := by
  unfold targetOf
  cases target with
  | none => cases g <;> simp
  | some id =>
      cases hfind : arena.find? id with
      | none => cases g <;> simp [hfind]
      | some r => cases g <;> simp [hfind]

theorem patternOf_eq_ok_iff {event : Option String} {pattern : Option Event.Pattern} :
    patternOf arena s event = .ok pattern ↔
      event.elim (.ok none) Event.Pattern.parse = .ok pattern := by
  unfold patternOf
  cases event with
  | none => simp
  | some text =>
      dsimp only [Option.elim]
      cases Event.Pattern.parse text <;> simp

theorem transitionOf_eq_ok_iff {d : TransitionDef} {t : Transition} :
    transitionOf registry arena s d = .ok t ↔ arena.ShowsTransition registry s d t := by
  constructor
  · intro h
    obtain ⟨target, htarget, h⟩ := bind_eq_ok.1 h
    obtain ⟨event, hevent, h⟩ := bind_eq_ok.1 h
    obtain ⟨actions, hactions, h⟩ := bind_eq_ok.1 h
    obtain rfl := pure_eq_ok.1 h
    exact ⟨rfl, rfl, rfl, targetOf_eq_ok_iff.1 htarget, patternOf_eq_ok_iff.1 hevent, hactions⟩
  · intro h
    obtain ⟨source, event, cond, target, isInternal, actions⟩ := t
    obtain ⟨rfl, rfl, rfl, htarget, hevent, hactions⟩ := h
    refine bind_eq_ok.2 ⟨target, targetOf_eq_ok_iff.2 htarget, ?_⟩
    refine bind_eq_ok.2 ⟨event, patternOf_eq_ok_iff.2 hevent, ?_⟩
    exact bind_eq_ok.2 ⟨actions, hactions, rfl⟩

theorem transitionsOf_eq_ok_iff {defs : List TransitionDef} {ts : List Transition} :
    transitionsOf registry arena s defs = .ok ts ↔
      List.Forall₂ (arena.ShowsTransition registry s) defs ts := by
  induction defs generalizing ts with
  | nil => rw [List.forall₂_nil_left_iff, transitionsOf, Except.ok.injEq, eq_comm]
  | cons d rest ih =>
      rw [List.forall₂_cons_left_iff]
      constructor
      · intro h
        obtain ⟨t, ht, h⟩ := bind_eq_ok.1 h
        obtain ⟨ts', hts, h⟩ := bind_eq_ok.1 h
        exact ⟨t, ts', transitionOf_eq_ok_iff.1 ht, ih.1 hts, (pure_eq_ok.1 h).symm⟩
      · rintro ⟨t, ts', ht, hts, rfl⟩
        refine bind_eq_ok.2 ⟨t, transitionOf_eq_ok_iff.2 ht, ?_⟩
        exact bind_eq_ok.2 ⟨ts', ih.2 hts, rfl⟩

theorem exists_shown_of_mem {defs : List TransitionDef} {ts : List Transition}
    (h : transitionsOf registry arena s defs = .ok ts) {t : Transition} (ht : t ∈ ts) :
    ∃ d, arena.ShowsTransition registry s d t := by
  rw [transitionsOf_eq_ok_iff] at h
  obtain ⟨k, hk, rfl⟩ := List.mem_iff_getElem.1 ht
  exact ⟨_, h.get (h.length_eq ▸ hk) hk⟩

/-! ## Initial states -/

theorem namedInitial_eq_ok_iff {initial : String} {i : Nat} :
    namedInitial arena s initial = .ok i ↔ arena.find? initial = some i ∧ arena.Below i s := by
  unfold namedInitial
  cases hfind : arena.find? initial with
  | none => simp
  | some r =>
      dsimp only
      split
      · next hbelow =>
        rw [Except.ok.injEq, Option.some.injEq, iff_self_and]
        rintro rfl
        exact Arena.isDescendant_iff.1 hbelow
      · next hbelow =>
        simp only [reduceCtorEq, false_iff, not_and, Option.some.injEq]
        rintro rfl h
        exact hbelow (Arena.isDescendant_iff.2 h)

theorem initialOf_some_eq_ok_iff {initial : String} {i : Option Nat} :
    initialOf arena s (some initial) = .ok i ↔
      ∃ r, i = some r ∧ arena.find? initial = some r ∧ arena.Below r s := by
  constructor
  · intro h
    obtain ⟨r, hr, h⟩ := bind_eq_ok.1 h
    exact ⟨r, (pure_eq_ok.1 h).symm, namedInitial_eq_ok_iff.1 hr⟩
  · rintro ⟨r, rfl, hr⟩
    exact bind_eq_ok.2 ⟨r, namedInitial_eq_ok_iff.2 hr, rfl⟩

theorem initialOf_none_eq_ok_iff {i : Option Nat} :
    initialOf arena s none = .ok i ↔
      i = if (arena.state s).isCompound then (arena.state s).children.head? else none := by
  rw [initialOf, Except.ok.injEq, eq_comm]

end Model
end Statechart
