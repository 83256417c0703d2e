import Statechart.Proofs.Configuration.Domain
import Statechart.Proofs.Session.Frame

/-!
# What the active leaves choose

A transition is enabled if it fits the event and its guard is absent or true.
`Chooses` says which enabled transition a leaf chooses: the innermost one and, at
one state, the first one.  The selection loop finds it although guards that fail
change the session on the way, because no guard can see these changes
(`chosen_spec`).

The chosen transitions come in an order of their own, by the first leaf that
chooses them.  All that is left of document order then is `Precedes`.
-/

namespace Statechart

/-- Of two chosen transitions the later one comes later in the document, or its
source lies around that of the earlier one. -/
def Precedes (arena : Arena) (t u : TransitionRef) : Prop :=
  t.source < u.source ∨ arena.Below t.source u.source

namespace Session

/-- A guard is absent or evaluates to true on the current data. -/
def GuardTrue (s : Session) : Option String → Prop
  | none => True
  | some cond => s.evaluate.holds cond s.data = .ok true

/-- A transition fits the event, or the lack of one, and its guard lets it pass. -/
def Passes (s : Session) (event : Option Event) (t : Transition) : Prop :=
  t.fits event = true ∧ s.GuardTrue t.cond

/-- There is a transition at an address, and it passes. -/
def Enabled (s : Session) (event : Option Event) (t : TransitionRef) : Prop :=
  ∃ transition, (s.arena.state t.source).transitions[t.position]? = some transition ∧
    s.Passes event transition

/-- A leaf chooses the innermost enabled transition, and of those of one state
the first one. -/
structure Chooses (s : Session) (event : Option Event) (leaf : Nat) (t : TransitionRef) :
    Prop where
  around : s.arena.Within leaf t.source
  enabled : s.Enabled event t
  first : ∀ u, s.arena.Within leaf u.source → s.Enabled event u →
    s.arena.Below t.source u.source ∨ (u.source = t.source ∧ t.position ≤ u.position)

/-- Some active leaf chooses a transition. -/
def Chosen (s : Session) (event : Option Event) (t : TransitionRef) : Prop :=
  ∃ leaf ∈ s.active, (s.arena.state leaf).isLeaf ∧ s.Chooses event leaf t

variable {s r : Session} {event : Option Event} {t u : TransitionRef}

theorem SameView.guardTrue_iff (h : SameView s r) (cond : Option String) :
    r.GuardTrue cond ↔ s.GuardTrue cond := by
  cases cond <;> simp [GuardTrue, h.evaluate, h.data]

theorem SameView.passes_iff (h : SameView s r) (t : Transition) :
    r.Passes event t ↔ s.Passes event t := by
  simp [Passes, h.guardTrue_iff]

theorem SameView.enabled_iff (h : SameView s r) (t : TransitionRef) :
    r.Enabled event t ↔ s.Enabled event t := by
  simp [Enabled, h.passes_iff, h.toSameRun.arena]

theorem SameView.chooses_iff (h : SameView s r) (leaf : Nat) (t : TransitionRef) :
    r.Chooses event leaf t ↔ s.Chooses event leaf t := by
  have harena : r.arena = s.arena := h.toSameRun.arena
  constructor <;> rintro ⟨haround, henabled, hfirst⟩
  · rw [harena] at haround hfirst
    exact ⟨haround, (h.enabled_iff t).1 henabled,
      fun u hu hu' => hfirst u hu ((h.enabled_iff u).2 hu')⟩
  · refine ⟨harena ▸ haround, (h.enabled_iff t).2 henabled, ?_⟩
    rw [harena]
    exact fun u hu hu' => hfirst u hu ((h.enabled_iff u).1 hu')

theorem Enabled.hasTransition (h : s.Enabled event t) : s.arena.HasTransition t := by
  obtain ⟨transition, hget, -⟩ := h
  exact (List.getElem?_eq_some_iff.1 hget).1

theorem guardHolds_iff (t : TransitionRef) (cond : Option String) :
    (s.guardHolds t cond).1 = true ↔ s.GuardTrue cond := by
  unfold guardHolds GuardTrue
  cases cond with
  | none => simp
  | some cond =>
      cases hanswer : s.evaluate.holds cond s.data with
      | ok answer => simp [hanswer]
      | error error =>
          simp only [hanswer, reduceCtorEq, iff_false]
          split <;> simp

/-! ## One state -/

/-- One of some transitions passes, and none before it does. -/
def FirstPassing (s : Session) (event : Option Event) (ts : List Transition) (i : Nat) : Prop :=
  (∃ t, ts[i]? = some t ∧ s.Passes event t) ∧
    ∀ j t, ts[j]? = some t → s.Passes event t → i ≤ j

theorem chooseAt_cons_of_passes {first : Transition} (h : s.Passes event first)
    (source position : Nat) (rest : List Transition) :
    (s.chooseAt event source position (first :: rest)).1 = some ⟨source, position⟩ := by
  have hguard := (guardHolds_iff ⟨source, position⟩ first.cond).2 h.2
  cases hanswer : s.guardHolds ⟨source, position⟩ first.cond with
  | mk answer r =>
      obtain rfl : answer = true := by simpa [hanswer] using hguard
      simp [chooseAt, h.1, hanswer]

/-- A transition that does not pass is left behind. -/
theorem chooseAt_cons_of_not_passes {first : Transition} (h : ¬ s.Passes event first)
    (source position : Nat) (rest : List Transition) :
    ∃ r, SameView s r ∧ s.chooseAt event source position (first :: rest) =
      r.chooseAt event source (position + 1) rest := by
  by_cases hfits : first.fits event = true
  · have hview := sameView_guardHolds (s := s) ⟨source, position⟩ first.cond
    have hguard := guardHolds_iff (s := s) ⟨source, position⟩ first.cond
    cases hanswer : s.guardHolds ⟨source, position⟩ first.cond with
    | mk answer r =>
        rw [hanswer] at hview hguard
        cases answer with
        | true => exact absurd ⟨hfits, hguard.1 rfl⟩ h
        | false => exact ⟨r, hview, by simp [chooseAt, hfits, hanswer]⟩
  · exact ⟨s, .refl, by simp [chooseAt, hfits]⟩

/-- A transition in front that does not pass moves the first one that does. -/
theorem FirstPassing.cons {first : Transition} {rest : List Transition} {i : Nat}
    (h : s.FirstPassing event rest i) (hfirst : ¬ s.Passes event first) :
    s.FirstPassing event (first :: rest) (i + 1) := by
  obtain ⟨⟨t, hget, hpass⟩, hmin⟩ := h
  refine ⟨⟨t, by simpa using hget, hpass⟩, ?_⟩
  intro j other hother hpass
  cases j with
  | zero =>
      obtain rfl : first = other := by simpa using hother
      exact absurd hpass hfirst
  | succ j =>
      have hget : rest[j]? = some other := by simpa using hother
      exact Nat.succ_le_succ (hmin j other hget hpass)

theorem SameView.firstPassing (h : SameView s r) {ts : List Transition} {i : Nat}
    (hfirst : r.FirstPassing event ts i) : s.FirstPassing event ts i := by
  obtain ⟨⟨t, hget, hpass⟩, hmin⟩ := hfirst
  exact ⟨⟨t, hget, (h.passes_iff t).1 hpass⟩,
    fun j other hother hpass => hmin j other hother ((h.passes_iff other).2 hpass)⟩

/-- At one state the first transition that passes is found, if there is one. -/
theorem chooseAt_spec (event : Option Event) (source position : Nat) (ts : List Transition) :
    ((s.chooseAt event source position ts).1 = none ∧ ∀ t ∈ ts, ¬ s.Passes event t) ∨
      ∃ i, (s.chooseAt event source position ts).1 = some ⟨source, position + i⟩ ∧
        s.FirstPassing event ts i := by
  induction ts generalizing s position with
  | nil => simp [chooseAt]
  | cons first rest ih =>
      by_cases hfirst : s.Passes event first
      · refine .inr ⟨0, chooseAt_cons_of_passes hfirst source position rest, ?_⟩
        exact ⟨⟨first, rfl, hfirst⟩, fun j _ _ _ => Nat.zero_le j⟩
      · obtain ⟨r, hview, hstep⟩ := chooseAt_cons_of_not_passes hfirst source position rest
        rw [hstep]
        -- `r` differs from `s` only in what guards that fail leave behind
        rcases ih (s := r) (position + 1) with ⟨hnone, hrest⟩ | ⟨i, hsome, hfound⟩
        · refine .inl ⟨hnone, fun t ht => ?_⟩
          rcases List.mem_cons.1 ht with rfl | ht
          · exact hfirst
          · exact fun hpass => hrest t ht ((hview.passes_iff t).2 hpass)
        · refine .inr ⟨i + 1, ?_, (hview.firstPassing hfound).cons hfirst⟩
          rw [hsome, Nat.add_assoc, Nat.add_comm 1 i]

/-- The search at a state finds its first enabled transition, if it has one. -/
theorem chooseAt_state_spec (event : Option Event) (source : Nat) :
    ((s.chooseAt event source 0 (s.arena.state source).transitions).1 = none ∧
        ∀ t, t.source = source → ¬ s.Enabled event t) ∨
      ∃ t, (s.chooseAt event source 0 (s.arena.state source).transitions).1 = some t ∧
        t.source = source ∧ s.Enabled event t ∧
        ∀ u, u.source = source → s.Enabled event u → t.position ≤ u.position := by
  rcases chooseAt_spec (s := s) event source 0 (s.arena.state source).transitions
    with ⟨hnone, hno⟩ | ⟨i, hsome, ⟨t, hget, hpass⟩, hmin⟩
  · refine .inl ⟨hnone, ?_⟩
    rintro t rfl ⟨transition, hget, hpass⟩
    exact hno transition (List.mem_of_getElem? hget) hpass
  · rw [Nat.zero_add] at hsome
    refine .inr ⟨⟨source, i⟩, hsome, rfl, ⟨t, hget, hpass⟩, ?_⟩
    rintro u rfl ⟨transition, hget, hpass⟩
    exact hmin u.position transition hget hpass

/-! ## One leaf -/

/-- Along a path the first state with an enabled transition is found. -/
theorem chooseAlong_spec (event : Option Event) (path : List Nat) :
    ((s.chooseAlong event path).1 = none ∧ ∀ t, t.source ∈ path → ¬ s.Enabled event t) ∨
      ∃ t before after, (s.chooseAlong event path).1 = some t ∧
        path = before ++ t.source :: after ∧ s.Enabled event t ∧
        (∀ u, u.source ∈ before → ¬ s.Enabled event u) ∧
        ∀ u, u.source = t.source → s.Enabled event u → t.position ≤ u.position := by
  induction path generalizing s with
  | nil => simp [chooseAlong]
  | cons source rest ih =>
      have hview := sameView_chooseAt (s := s) event source 0 (s.arena.state source).transitions
      have hspec := chooseAt_state_spec (s := s) event source
      cases hfound : s.chooseAt event source 0 (s.arena.state source).transitions with
      | mk found r =>
          rw [hfound] at hview hspec
          rcases hspec with ⟨rfl, hno⟩ | ⟨t, rfl, rfl, henabled, hmin⟩
          · have hstep : s.chooseAlong event (source :: rest) = r.chooseAlong event rest := by
              simp [chooseAlong, hfound]
            rw [hstep]
            rcases ih (s := r) with ⟨hnone, hrest⟩ |
              ⟨t, before, after, hsome, hpath, henabled, hbefore, hmin⟩
            · refine .inl ⟨hnone, fun t ht => ?_⟩
              rcases List.mem_cons.1 ht with ht | ht
              · exact hno t ht
              · exact fun h => hrest t ht ((hview.enabled_iff t).2 h)
            · refine .inr ⟨t, source :: before, after, hsome, by rw [hpath, List.cons_append],
                (hview.enabled_iff t).1 henabled, fun u hu => ?_, fun u hu h => ?_⟩
              · rcases List.mem_cons.1 hu with hu | hu
                · exact hno u hu
                · exact fun h => hbefore u hu ((hview.enabled_iff u).2 h)
              · exact hmin u hu ((hview.enabled_iff u).2 h)
          · refine .inr ⟨t, [], rest, by simp [chooseAlong, hfound], rfl, henabled, ?_, hmin⟩
            exact fun u hu => absurd hu List.not_mem_nil

end Session

/-- Behind a state, the path from a leaf to the root holds its ancestors. -/
theorem Arena.WellFormed.ancestors_of_path {arena : Arena} (hw : arena.WellFormed) {x y : Nat}
    {before after : List Nat} (h : x :: arena.ancestors x = before ++ y :: after) :
    arena.ancestors y = after := by
  induction before generalizing x with
  | nil =>
      obtain ⟨rfl, rfl⟩ := List.cons.inj h
      rfl
  | cons z before ih =>
      obtain ⟨-, h⟩ := List.cons.inj h
      have hy : arena.Below x y := by
        rw [Arena.Below, h]
        simp
      obtain ⟨p, hp, -⟩ := hw.below_iff.1 hy
      rw [hw.ancestors_of_parent hp] at h
      exact ih h

theorem Arena.mem_path_iff {arena : Arena} {x y : Nat} :
    y ∈ x :: arena.ancestors x ↔ arena.Within x y := by
  simp [Arena.Within, Arena.Below, eq_comm]

namespace Session

variable {s : Session} (hw : s.arena.WellFormed) {event : Option Event} {t u : TransitionRef}
  {l leaf : Nat}
include hw

/-- From a leaf outwards its choice is found, if there is one. -/
theorem chooseAlong_leaf_spec (event : Option Event) (leaf : Nat) :
    ((s.chooseAlong event (leaf :: s.arena.ancestors leaf)).1 = none ∧
        ∀ t, s.arena.Within leaf t.source → ¬ s.Enabled event t) ∨
      ∃ t, (s.chooseAlong event (leaf :: s.arena.ancestors leaf)).1 = some t ∧
        s.Chooses event leaf t := by
  rcases chooseAlong_spec (s := s) event (leaf :: s.arena.ancestors leaf)
    with ⟨hnone, hno⟩ | ⟨t, before, after, hsome, hpath, henabled, hbefore, hmin⟩
  · exact .inl ⟨hnone, fun t ht => hno t (Arena.mem_path_iff.2 ht)⟩
  · have haround : s.arena.Within leaf t.source :=
      Arena.mem_path_iff.1 (by rw [hpath]; simp)
    refine .inr ⟨t, hsome, haround, henabled, fun u hu h => ?_⟩
    have hmem : u.source ∈ before ++ t.source :: after := hpath ▸ Arena.mem_path_iff.2 hu
    rcases List.mem_append.1 hmem with hmem | hmem
    · exact absurd h (hbefore u hmem)
    rcases List.mem_cons.1 hmem with heq | hmem
    · exact .inr ⟨heq, hmin u heq h⟩
    · refine .inl ?_
      rw [Arena.Below, hw.ancestors_of_path hpath]
      exact hmem

theorem Chooses.eq_of_source_eq (ht : s.Chooses event leaf t) (hu : s.Chooses event l u)
    (h : t.source = u.source) : t = u := by
  have hle : ∀ {leaf l : Nat} {t u : TransitionRef}, s.Chooses event leaf t →
      s.Chooses event l u → t.source = u.source → t.position ≤ u.position := by
    intro leaf l t u ht hu h
    rcases ht.first u (h ▸ ht.around) hu.enabled with hbelow | ⟨-, hle⟩
    · exact absurd (h ▸ hbelow) hw.not_below_self
    · exact hle
  have hposition : t.position = u.position := Nat.le_antisymm (hle ht hu h) (hle hu ht h.symm)
  cases t
  cases u
  simp_all

theorem Chooses.unique (ht : s.Chooses event leaf t) (hu : s.Chooses event leaf u) : t = u := by
  rcases ht.first u hu.around hu.enabled with htu | ⟨h, -⟩
  · rcases hu.first t ht.around ht.enabled with hut | ⟨h, -⟩
    · exact absurd htu.within (hw.not_within_of_below hut)
    · exact ht.eq_of_source_eq hw hu h
  · exact ht.eq_of_source_eq hw hu h.symm

/-! ## All leaves -/

/-- A later leaf that chooses another transition chooses a later one, or one
around the earlier. -/
theorem Chooses.precedes (ht : s.Chooses event l t) (hu : s.Chooses event leaf u)
    (hlt : l < leaf) (hne : t ≠ u) : Precedes s.arena t u := by
  have hsource : t.source ≠ u.source := fun h => hne (ht.eq_of_source_eq hw hu h)
  rcases Nat.lt_or_gt_of_ne hsource with h | h
  · exact .inl h
  -- The source of `u` is before that of `t`, hence before `l`, and yet around a later leaf.
  have htl : t.source ≤ l := hw.le_of_within ht.around
  have hbelow : s.arena.Below leaf u.source := by
    rcases hu.around with heq | hbelow
    · omega
    · exact hbelow
  exact .inr (hw.below_of_between hbelow h (by omega))

/-- What one leaf adds to the transitions chosen so far. -/
theorem chooseAll_cons (event : Option Event) (chosen : List TransitionRef) (leaf : Nat)
    (rest : List Nat) :
    ∃ r more, SameView s r ∧
      s.chooseAll event chosen (leaf :: rest) = r.chooseAll event (chosen ++ more) rest ∧
      (∀ t, t ∈ chosen ++ more ↔ t ∈ chosen ∨ s.Chooses event leaf t) ∧
      (more = [] ∨ ∃ t, more = [t] ∧ t ∉ chosen) := by
  have hview := sameView_chooseAlong (s := s) event (leaf :: s.arena.ancestors leaf)
  have hspec := chooseAlong_leaf_spec hw event leaf
  cases hfound : s.chooseAlong event (leaf :: s.arena.ancestors leaf) with
  | mk found r =>
      rw [hfound] at hview hspec
      rcases hspec with ⟨rfl, hno⟩ | ⟨t, rfl, ht⟩
      · refine ⟨r, [], hview, by simp [chooseAll, hfound], fun t => ?_, .inl rfl⟩
        have hnot : ¬ s.Chooses event leaf t := fun h => hno t h.around h.enabled
        simp [hnot]
      · have honly : ∀ u, s.Chooses event leaf u ↔ u = t := fun u =>
          ⟨fun hu => hu.unique hw ht, fun h => h ▸ ht⟩
        by_cases hmem : t ∈ chosen
        · refine ⟨r, [], hview, by simp [chooseAll, hfound, hmem], fun u => ?_, .inl rfl⟩
          rw [honly, List.append_nil]
          exact ⟨.inl, fun h => h.elim id fun heq => heq ▸ hmem⟩
        · refine ⟨r, [t], hview, by simp [chooseAll, hfound, hmem], fun u => ?_,
            .inr ⟨t, rfl, hmem⟩⟩
          rw [honly, List.mem_append, List.mem_singleton]

/-- The leaves choose what they choose one by one, in an order that is left of
document order. -/
theorem chooseAll_spec (event : Option Event) {leaves : List Nat}
    (hleaves : leaves.Pairwise (· < ·)) {chosen : List TransitionRef}
    (hchosen : ∀ t ∈ chosen, ∃ l, s.Chooses event l t ∧ ∀ leaf ∈ leaves, l < leaf)
    (horder : chosen.Pairwise (Precedes s.arena)) :
    (∀ t, t ∈ (s.chooseAll event chosen leaves).1 ↔
      t ∈ chosen ∨ ∃ leaf ∈ leaves, s.Chooses event leaf t) ∧
    (s.chooseAll event chosen leaves).1.Pairwise (Precedes s.arena) := by
  induction leaves generalizing s chosen with
  | nil => simpa [chooseAll] using horder
  | cons leaf rest ih =>
      obtain ⟨hleaf, hrest⟩ := List.pairwise_cons.1 hleaves
      obtain ⟨r, more, hview, hstep, hmem, hmore⟩ :=
        chooseAll_cons hw event chosen leaf rest
      have harena : r.arena = s.arena := hview.toSameRun.arena
      have hchosen' : ∀ t ∈ chosen ++ more, ∃ l, r.Chooses event l t ∧ ∀ leaf ∈ rest, l < leaf := by
        intro t ht
        rcases (hmem t).1 ht with ht | ht
        · obtain ⟨l, hl, hlt⟩ := hchosen t ht
          exact ⟨l, (hview.chooses_iff l t).2 hl,
            fun leaf' hleaf' => hlt leaf' (List.mem_cons_of_mem leaf hleaf')⟩
        · exact ⟨leaf, (hview.chooses_iff leaf t).2 ht, hleaf⟩
      have horder' : (chosen ++ more).Pairwise (Precedes r.arena) := by
        rw [harena]
        rcases hmore with rfl | ⟨t, rfl, hnew⟩
        · rwa [List.append_nil]
        · have ht : s.Chooses event leaf t :=
            ((hmem t).1 (by simp)).resolve_left hnew
          refine List.pairwise_append.2 ⟨horder, List.pairwise_singleton _ _, ?_⟩
          intro u hu v hv
          obtain rfl := List.mem_singleton.1 hv
          obtain ⟨l, hl, hlt⟩ := hchosen u hu
          exact hl.precedes hw ht (hlt leaf List.mem_cons_self) fun heq => hnew (heq ▸ hu)
      obtain ⟨hresult, hresultOrder⟩ := ih (s := r) (harena ▸ hw) hrest hchosen' horder'
      rw [hstep]
      refine ⟨fun t => ?_, harena ▸ hresultOrder⟩
      rw [hresult, hmem]
      simp only [hview.chooses_iff, List.mem_cons, exists_eq_or_imp, or_assoc]

/-- The transitions that the active leaves choose. -/
theorem chosen_spec (event : Option Event) (hactive : s.active.Pairwise (· < ·)) :
    (∀ t, t ∈ (s.chooseAll event [] s.leaves).1 ↔ s.Chosen event t) ∧
      (s.chooseAll event [] s.leaves).1.Pairwise (Precedes s.arena) := by
  have hleaves : s.leaves.Pairwise (· < ·) := hactive.filter fun i => (s.arena.state i).isLeaf
  have hnone : ∀ t ∈ ([] : List TransitionRef), ∃ l, s.Chooses event l t ∧
      ∀ leaf ∈ s.leaves, l < leaf := fun t ht => absurd ht List.not_mem_nil
  obtain ⟨hmem, horder⟩ := chooseAll_spec hw event hleaves hnone .nil
  refine ⟨fun t => (hmem t).trans ?_, horder⟩
  simp [Chosen, leaves, and_assoc]

end Session
end Statechart
