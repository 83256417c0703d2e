import Mathlib.Data.List.Induction
import Statechart.Proofs.Selection.Choice

/-!
# Resolving conflicts

Of the transitions that the leaves choose, some leave a common state and cannot
be taken together.  A set of transitions resolves the conflicts (`IsKernel`) if
its members have no conflicts with each other and every transition left out has
one with a member that outranks it.  There is only one such set
(`IsKernel.unique`), because to outrank is to have a smaller source.

The engine goes through the chosen transitions once.  A new one displaces those
further inside and gives way to the others, so what is kept at some moment may be
displaced later, after it has kept others out.  That does no harm: `resolves_keep`
shows that after every round the kept transitions resolve the conflicts among those
seen so far.  The reason is that transitions of nested sources always conflict,
so whatever is kept out by a transition is also kept out by its displacer.
-/

namespace Statechart

/-- One transition takes precedence over another: its source lies around the
other one, or is unrelated and earlier. -/
def Outranks (arena : Arena) (u t : TransitionRef) : Prop :=
  arena.Below t.source u.source ∨
    (arena.Unrelated u.source t.source ∧ u.source < t.source)

/-- Strict document order of transitions: by source, then by position. -/
def InDocumentOrder (t u : TransitionRef) : Prop :=
  t.source < u.source ∨ (t.source = u.source ∧ t.position < u.position)

/-- Some of the chosen transitions resolve all conflicts among them. -/
structure IsKernel (arena : Arena) (active : StateSet) (chosen kept : TransitionRef → Prop) :
    Prop where
  subset : ∀ t, kept t → chosen t
  disjoint : ∀ t u, kept t → kept u → t ≠ u → ¬ ExitsMeet arena active t u
  outranked : ∀ t, chosen t → ¬ kept t →
    ∃ u, kept u ∧ ExitsMeet arena active t u ∧ Outranks arena u t

section Kernel

variable {arena : Arena} {active : StateSet} {chosen kept other : TransitionRef → Prop}
  {t u : TransitionRef}

theorem Outranks.source_lt (hw : arena.WellFormed) (h : Outranks arena u t) :
    u.source < t.source := by
  rcases h with h | ⟨-, h⟩
  · exact hw.lt_of_below h
  · exact h

/-- There is only one way to resolve the conflicts. -/
theorem IsKernel.unique (hw : arena.WellFormed) (h : IsKernel arena active chosen kept)
    (h' : IsKernel arena active chosen other) : ∀ t, kept t ↔ other t := by
  have himp : ∀ {kept other : TransitionRef → Prop} {t}, IsKernel arena active chosen kept →
      IsKernel arena active chosen other →
      (∀ u : TransitionRef, u.source < t.source → (kept u ↔ other u)) → kept t → other t := by
    intro kept other t h h' hbelow ht
    by_contra hnot
    obtain ⟨u, hu, hmeet, hrank⟩ := h'.outranked t (h.subset t ht) hnot
    have hlt : u.source < t.source := hrank.source_lt hw
    have hne : t ≠ u := fun heq => Nat.lt_irrefl _ (heq ▸ hlt)
    exact h.disjoint t u ht ((hbelow u hlt).2 hu) hne hmeet
  intro t
  induction hn : t.source using Nat.strongRecOn generalizing t with
  | ind n ih =>
      have hbelow : ∀ u : TransitionRef, u.source < t.source → (kept u ↔ other u) :=
        fun u hu => ih u.source (hn ▸ hu) u rfl
      exact ⟨himp h h' hbelow, himp h' h fun u hu => (hbelow u hu).symm⟩

/-! ## The loop -/

theorem meets_iff {a b : Arena.Exiting} :
    a.meets b = true ↔ ∃ i, i ∈ a.exits ∧ i ∈ b.exits := by
  simp [Arena.Exiting.meets]

/-- A transition gives way to one that it conflicts with and that does not lie
further inside. -/
theorem exists_of_challenge_eq_none {new : Arena.Exiting} {list : List Arena.Exiting}
    (h : arena.challenge new list = none) :
    ∃ k ∈ list, new.meets k = true ∧ ¬ arena.Below k.transition.source new.transition.source := by
  induction list with
  | nil => simp [Arena.challenge] at h
  | cons k rest ih =>
      by_cases hmeets : new.meets k = true
      · by_cases hbelow : arena.Below k.transition.source new.transition.source
        · have hrest : arena.challenge new rest = none := by
            simpa [Arena.challenge, hmeets, hbelow] using h
          obtain ⟨k', hk', h'⟩ := ih hrest
          exact ⟨k', List.mem_cons_of_mem k hk', h'⟩
        · exact ⟨k, List.mem_cons_self, hmeets, hbelow⟩
      · have hrest : arena.challenge new rest = none := by
          simpa [Arena.challenge, hmeets] using h
        obtain ⟨k', hk', h'⟩ := ih hrest
        exact ⟨k', List.mem_cons_of_mem k hk', h'⟩

/-- A transition that does not give way displaces those that it conflicts with,
all of which lie further inside. -/
theorem of_challenge_eq_some {new : Arena.Exiting} {list rest : List Arena.Exiting}
    (h : arena.challenge new list = some rest) :
    rest = list.filter (fun k => !new.meets k) ∧
      ∀ k ∈ list, new.meets k = true →
        arena.Below k.transition.source new.transition.source := by
  induction list generalizing rest with
  | nil =>
      obtain rfl : [] = rest := by simpa [Arena.challenge] using h
      simp
  | cons k tail ih =>
      cases hmeets : new.meets k with
      | false =>
          obtain ⟨rest', hrest, rfl⟩ : ∃ rest', arena.challenge new tail = some rest' ∧
              k :: rest' = rest := by
            simpa [Arena.challenge, hmeets] using h
          obtain ⟨hfilter, hinside⟩ := ih hrest
          refine ⟨by simp [hmeets, ← hfilter], List.forall_mem_cons.2 ⟨?_, hinside⟩⟩
          simp [hmeets]
      | true =>
          by_cases hbelow : arena.Below k.transition.source new.transition.source
          · have hrest : arena.challenge new tail = some rest := by
              simpa [Arena.challenge, hmeets, hbelow] using h
            obtain ⟨hfilter, hinside⟩ := ih hrest
            exact ⟨by simp [hmeets, ← hfilter],
              List.forall_mem_cons.2 ⟨fun _ => hbelow, hinside⟩⟩
          · simp [Arena.challenge, hmeets, hbelow] at h

/-- Transitions of active states, of which one lies around the other, leave a
common state if they leave any. -/
theorem exits_meet_of_below (hw : arena.WellFormed) (h : Legal arena active) {d e : Nat}
    (ht : arena.HasTransition t) (hu : arena.HasTransition u)
    (htsource : t.source ∈ active) (husource : u.source ∈ active)
    (hdt : arena.domain? t = some d) (hdu : arena.domain? u = some e)
    (hbelow : arena.Below t.source u.source) : ExitsMeet arena active t u := by
  obtain ⟨-, htd, -⟩ := domain_spec hw ht hdt
  obtain ⟨-, hue, -⟩ := domain_spec hw hu hdu
  have hte : arena.Within t.source e := hw.within_trans hbelow.within hue
  exact (exits_meet_iff hw h ht hu htsource husource hdt hdu).2 (hw.within_or_within htd hte)

theorem exists_domain_of_mem_exitSet {i : Nat} (hi : i ∈ arena.exitSet active t) :
    ∃ d, arena.domain? t = some d := by
  obtain ⟨-, d, hd, -⟩ := mem_exitSet_iff.1 hi
  exact ⟨d, hd⟩

/-! ## One round of the loop -/

/-- A transition that gives way is outranked. -/
theorem isKernel_of_giving_way (hkernel : IsKernel arena active chosen kept)
    {k : TransitionRef} (hk : kept k) (hmeet : ExitsMeet arena active t k)
    (hinside : ¬ arena.Below k.source t.source) (hprecedes : Precedes arena k t) :
    IsKernel arena active (fun u => chosen u ∨ u = t) kept where
  subset u hu := .inl (hkernel.subset u hu)
  disjoint := hkernel.disjoint
  outranked := by
    rintro u (hu | rfl) hnot
    · exact hkernel.outranked u hu hnot
    · refine ⟨k, hk, hmeet, ?_⟩
      have hlt : k.source < u.source := hprecedes.resolve_right hinside
      by_cases hbelow : arena.Below u.source k.source
      · exact .inl hbelow
      · have hne : k.source ≠ u.source := Nat.ne_of_lt hlt
        exact .inr ⟨⟨fun h => h.elim hne hinside, fun h => h.elim hne.symm hbelow⟩, hlt⟩

/-- A transition that displaces others outranks them and all that they kept out. -/
theorem isKernel_of_displacing (hw : arena.WellFormed) (h : Legal arena active)
    (hchosen : ∀ u, chosen u ∨ u = t → arena.HasTransition u ∧ u.source ∈ active)
    (hkernel : IsKernel arena active chosen kept)
    (hinside : ∀ k, kept k → ExitsMeet arena active t k → arena.Below k.source t.source)
    (hprecedes : ∀ u, chosen u → Precedes arena u t) :
    IsKernel arena active (fun u => chosen u ∨ u = t)
      (fun u => (kept u ∧ ¬ ExitsMeet arena active t u) ∨ u = t) where
  subset u hu := hu.imp_left fun hu => hkernel.subset u hu.1
  disjoint := by
    rintro u v (⟨hu, hut⟩ | rfl) (⟨hv, hvt⟩ | rfl) hne
    · exact hkernel.disjoint u v hu hv hne
    · exact fun hmeet => hut hmeet.symm
    · exact hvt
    · exact absurd rfl hne
  outranked := by
    intro u hu hnot
    have hnew : u ≠ t := fun heq => hnot (.inr heq)
    have hu : chosen u := hu.resolve_right hnew
    by_cases hkept : kept u
    · have hmeet : ExitsMeet arena active t u := by
        by_contra hmeet
        exact hnot (.inl ⟨hkept, hmeet⟩)
      exact ⟨t, .inr rfl, hmeet.symm, .inl (hinside u hkept hmeet)⟩
    obtain ⟨k, hk, hmeet, hrank⟩ := hkernel.outranked u hu hkept
    by_cases hkt : ExitsMeet arena active t k
    swap
    · exact ⟨k, .inl ⟨hk, hkt⟩, hmeet, hrank⟩
    -- What kept `u` out is displaced; then `u` lies inside the source of `t` as well.
    have hkinside : arena.Below k.source t.source := hinside k hk hkt
    have hbelow : arena.Below u.source t.source := by
      rcases hrank with hrank | ⟨-, hlt⟩
      · exact hw.below_of_below_of_within hrank hkinside.within
      · have htk : t.source < k.source := hw.lt_of_below hkinside
        exact (hprecedes u hu).resolve_left (by omega)
    obtain ⟨i, hit, -⟩ := hkt
    obtain ⟨j, hju, -⟩ := hmeet
    obtain ⟨d, hd⟩ := exists_domain_of_mem_exitSet hju
    obtain ⟨e, he⟩ := exists_domain_of_mem_exitSet hit
    obtain ⟨hut, husource⟩ := hchosen u (.inl hu)
    obtain ⟨htt, htsource⟩ := hchosen t (.inr rfl)
    exact ⟨t, .inr rfl, exits_meet_of_below hw h hut htt husource htsource hd he hbelow,
      .inl hbelow⟩

theorem mem_map_transition_iff {list : List Arena.Exiting}
    (hexits : ∀ k ∈ list, k.exits = arena.exitSet active k.transition) :
    t ∈ list.map Arena.Exiting.transition ↔ ⟨t, arena.exitSet active t⟩ ∈ list := by
  rw [List.mem_map]
  constructor
  · rintro ⟨k, hk, rfl⟩
    rw [← hexits k hk]
    exact hk
  · exact fun hk => ⟨_, hk, rfl⟩

/-- What the loop has kept of the transitions that it has seen. -/
structure Resolves (arena : Arena) (active : StateSet) (seen : List TransitionRef)
    (list : List Arena.Exiting) : Prop where
  exits : ∀ k ∈ list, k.exits = arena.exitSet active k.transition
  sublist : (list.map Arena.Exiting.transition).Sublist seen
  kernel : IsKernel arena active (· ∈ seen) (· ∈ list.map Arena.Exiting.transition)

namespace Resolves

variable {seen : List TransitionRef} {list rest : List Arena.Exiting}

theorem nil : Resolves arena active [] [] where
  exits := by simp
  sublist := .refl _
  kernel := ⟨by simp, by simp, by simp⟩

theorem meets_iff (h : Resolves arena active seen list) {k : Arena.Exiting} (hk : k ∈ list) :
    Arena.Exiting.meets ⟨t, arena.exitSet active t⟩ k = true ↔
      ExitsMeet arena active t k.transition := by
  rw [Statechart.meets_iff, h.exits k hk]
  rfl

theorem give_way (h : Resolves arena active seen list)
    (hprecedes : ∀ u ∈ seen, Precedes arena u t)
    (hchallenge : arena.challenge ⟨t, arena.exitSet active t⟩ list = none) :
    Resolves arena active (seen ++ [t]) list := by
  obtain ⟨k, hk, hmeet, hinside⟩ := exists_of_challenge_eq_none hchallenge
  have hmem : k.transition ∈ list.map Arena.Exiting.transition := List.mem_map_of_mem hk
  have hseen : ∀ u, (u ∈ seen ++ [t]) = (u ∈ seen ∨ u = t) := by simp
  refine ⟨h.exits, h.sublist.trans (List.sublist_append_left seen [t]), ?_⟩
  rw [funext hseen]
  exact isKernel_of_giving_way h.kernel hmem ((h.meets_iff hk).1 hmeet) hinside
    (hprecedes _ (h.kernel.subset _ hmem))

theorem exits_displace (h : Resolves arena active seen list)
    (hfilter : rest = list.filter fun k => !Arena.Exiting.meets ⟨t, arena.exitSet active t⟩ k) :
    ∀ k ∈ rest ++ [⟨t, arena.exitSet active t⟩],
      k.exits = arena.exitSet active k.transition := by
  intro k hk
  rcases List.mem_append.1 hk with hk | hk
  · rw [hfilter] at hk
    exact h.exits k (List.mem_filter.1 hk).1
  · obtain rfl := List.mem_singleton.1 hk
    rfl

/-- Kept next to the new transition are those that have no conflict with it. -/
theorem mem_displace_iff (h : Resolves arena active seen list)
    (hfilter : rest = list.filter fun k => !Arena.Exiting.meets ⟨t, arena.exitSet active t⟩ k) :
    u ∈ List.map Arena.Exiting.transition (rest ++ [⟨t, arena.exitSet active t⟩]) ↔
      (u ∈ list.map Arena.Exiting.transition ∧ ¬ ExitsMeet arena active t u) ∨ u = t := by
  rw [mem_map_transition_iff (h.exits_displace hfilter), mem_map_transition_iff h.exits,
    List.mem_append, List.mem_singleton, hfilter, List.mem_filter, Arena.Exiting.mk.injEq,
    Bool.not_eq_true']
  apply or_congr
  · apply and_congr_right
    intro hk
    rw [← h.meets_iff hk, Bool.not_eq_true]
  · exact ⟨And.left, fun heq => ⟨heq, heq ▸ rfl⟩⟩

theorem displace (h : Resolves arena active seen list) (hw : arena.WellFormed)
    (hlegal : Legal arena active)
    (hactive : ∀ u ∈ seen ++ [t], arena.HasTransition u ∧ u.source ∈ active)
    (hprecedes : ∀ u ∈ seen, Precedes arena u t)
    (hchallenge : arena.challenge ⟨t, arena.exitSet active t⟩ list = some rest) :
    Resolves arena active (seen ++ [t]) (rest ++ [⟨t, arena.exitSet active t⟩]) := by
  obtain ⟨hfilter, hinside⟩ := of_challenge_eq_some hchallenge
  have hseen : ∀ u, (u ∈ seen ++ [t]) = (u ∈ seen ∨ u = t) := by simp
  refine ⟨h.exits_displace hfilter, ?_, ?_⟩
  · rw [List.map_append, hfilter]
    exact ((List.filter_sublist.map _).trans h.sublist).append (.refl _)
  · rw [funext hseen, funext fun u => propext (h.mem_displace_iff hfilter)]
    apply isKernel_of_displacing hw hlegal _ h.kernel _ hprecedes
    · exact fun u hu => hactive u (by rwa [hseen])
    · intro k hk hmeet
      have hk := (mem_map_transition_iff h.exits).1 hk
      exact hinside _ hk ((h.meets_iff hk).2 hmeet)

end Resolves

theorem keep_append_of_eq_none {ts : List TransitionRef}
    (h : arena.challenge ⟨t, arena.exitSet active t⟩ (arena.keep active ts) = none) :
    arena.keep active (ts ++ [t]) = arena.keep active ts := by
  simp only [Arena.keep, List.foldl_append, List.foldl_cons, List.foldl_nil] at h ⊢
  rw [h]

theorem keep_append_of_eq_some {ts : List TransitionRef} {rest : List Arena.Exiting}
    (h : arena.challenge ⟨t, arena.exitSet active t⟩ (arena.keep active ts) = some rest) :
    arena.keep active (ts ++ [t]) = rest ++ [⟨t, arena.exitSet active t⟩] := by
  simp only [Arena.keep, List.foldl_append, List.foldl_cons, List.foldl_nil] at h ⊢
  rw [h]

/-- The loop keeps, of all transitions seen so far, those that resolve the
conflicts among them. -/
theorem resolves_keep (hw : arena.WellFormed) (h : Legal arena active) {ts : List TransitionRef}
    (hts : ∀ t ∈ ts, arena.HasTransition t ∧ t.source ∈ active)
    (horder : ts.Pairwise (Precedes arena)) :
    Resolves arena active ts (arena.keep active ts) := by
  -- The loop folds from the left, so the transition of a round stands last.
  induction ts using List.reverseRecOn with
  | nil => exact .nil
  | append_singleton ts t ih =>
      obtain ⟨horder, -, hprecedes⟩ := List.pairwise_append.1 horder
      have hprecedes : ∀ u ∈ ts, Precedes arena u t :=
        fun u hu => hprecedes u hu t (List.mem_singleton_self t)
      have hkept : Resolves arena active ts (arena.keep active ts) :=
        ih (fun u hu => hts u (List.mem_append_left _ hu)) horder
      cases hchallenge : arena.challenge ⟨t, arena.exitSet active t⟩ (arena.keep active ts) with
      | none =>
          rw [keep_append_of_eq_none hchallenge]
          exact hkept.give_way hprecedes hchallenge
      | some rest =>
          rw [keep_append_of_eq_some hchallenge]
          exact hkept.displace hw h hts hprecedes hchallenge

end Kernel

/-! ## Document order -/

section Order

variable {arena : Arena} {t u : TransitionRef} {ts : List TransitionRef}

theorem mem_insertInOrder_iff :
    u ∈ Arena.insertInOrder t ts ↔ u = t ∨ u ∈ ts := by
  induction ts with
  | nil => simp [Arena.insertInOrder]
  | cons v rest ih =>
      unfold Arena.insertInOrder
      split
      · simp
      · rw [List.mem_cons, ih, List.mem_cons]
        exact or_left_comm

theorem mem_inOrder_iff : u ∈ Arena.inOrder ts ↔ u ∈ ts := by
  induction ts with
  | nil => simp [Arena.inOrder]
  | cons t rest ih =>
      have hstep : Arena.inOrder (t :: rest) = Arena.insertInOrder t (Arena.inOrder rest) := rfl
      rw [hstep, mem_insertInOrder_iff, ih, List.mem_cons]

theorem le_iff : t.le u = true ↔ t = u ∨ InDocumentOrder t u := by
  cases t
  cases u
  simp only [TransitionRef.le, InDocumentOrder, Bool.or_eq_true, Bool.and_eq_true,
    decide_eq_true_eq, beq_iff_eq, TransitionRef.mk.injEq]
  omega

theorem inDocumentOrder_of_not_le (h : t.le u ≠ true) : InDocumentOrder u t := by
  simp only [TransitionRef.le, InDocumentOrder, ne_eq, Bool.or_eq_true, Bool.and_eq_true,
    decide_eq_true_eq, beq_iff_eq] at h ⊢
  omega

theorem InDocumentOrder.trans {v : TransitionRef} (h : InDocumentOrder t u)
    (h' : InDocumentOrder u v) : InDocumentOrder t v := by
  simp only [InDocumentOrder] at h h' ⊢
  omega

theorem pairwise_insertInOrder (hnew : t ∉ ts) (h : ts.Pairwise InDocumentOrder) :
    (Arena.insertInOrder t ts).Pairwise InDocumentOrder := by
  induction ts with
  | nil => exact List.pairwise_singleton _ _
  | cons u rest ih =>
      obtain ⟨hne, hnew⟩ := not_or.1 fun h => hnew (List.mem_cons.2 h)
      obtain ⟨hu, hrest⟩ := List.pairwise_cons.1 h
      unfold Arena.insertInOrder
      split
      · next hle =>
          have htu : InDocumentOrder t u := (le_iff.1 hle).resolve_left hne
          refine List.pairwise_cons.2 ⟨fun v hv => ?_, h⟩
          rcases List.mem_cons.1 hv with rfl | hv
          · exact htu
          · exact htu.trans (hu v hv)
      · next hle =>
          refine List.pairwise_cons.2 ⟨fun v hv => ?_, ih hnew hrest⟩
          rcases mem_insertInOrder_iff.1 hv with rfl | hv
          · exact inDocumentOrder_of_not_le hle
          · exact hu v hv

theorem pairwise_inOrder (h : ts.Nodup) : (Arena.inOrder ts).Pairwise InDocumentOrder := by
  induction ts with
  | nil => exact .nil
  | cons t rest ih =>
      obtain ⟨hnew, hrest⟩ := List.nodup_cons.1 h
      exact pairwise_insertInOrder (fun hmem => hnew (mem_inOrder_iff.1 hmem)) (ih hrest)

/-- Removing conflicts gives the transitions that resolve them, in document
order. -/
theorem withoutConflicts_spec {active : StateSet} (hw : arena.WellFormed)
    (h : Legal arena active) (hts : ∀ t ∈ ts, arena.HasTransition t ∧ t.source ∈ active)
    (horder : ts.Pairwise (Precedes arena)) :
    (arena.withoutConflicts active ts).Pairwise InDocumentOrder ∧
      IsKernel arena active (· ∈ ts) (· ∈ arena.withoutConflicts active ts) := by
  have hkept : Resolves arena active ts (arena.keep active ts) := resolves_keep hw h hts horder
  have hnodup : ts.Nodup := horder.imp fun {t u} hprecedes heq => by
    subst heq
    rcases hprecedes with hlt | hbelow
    · exact Nat.lt_irrefl _ hlt
    · exact hw.not_below_self hbelow
  refine ⟨pairwise_inOrder (hnodup.sublist hkept.sublist), ?_⟩
  have hmem : ∀ t, (t ∈ arena.withoutConflicts active ts) =
      (t ∈ (arena.keep active ts).map Arena.Exiting.transition) :=
    fun t => propext mem_inOrder_iff
  rw [funext hmem]
  exact hkept.kernel

end Order

namespace Session

variable {s : Session} {event : Option Event} {t : TransitionRef}

/-- What the active leaves choose are transitions of active states. -/
theorem Chosen.active (hw : s.arena.WellFormed) (h : Legal s.arena s.active)
    (ht : s.Chosen event t) : s.arena.HasTransition t ∧ t.source ∈ s.active := by
  obtain ⟨leaf, hleaf, -, hchooses⟩ := ht
  have htransition := hchooses.enabled.hasTransition
  refine ⟨htransition, (h.on_of_within hw (.inr hleaf) hchooses.around).resolve_left ?_⟩
  intro hroot
  exact hw.not_below_self (hroot ▸ source_below_root hw htransition)

/-- Selection takes the chosen transitions that resolve the conflicts. -/
theorem select_spec (hw : s.arena.WellFormed) (h : Legal s.arena s.active)
    (hsorted : s.active.Pairwise (· < ·)) (event : Option Event) :
    (s.select event).1.Pairwise InDocumentOrder ∧
      IsKernel s.arena s.active (s.Chosen event) (· ∈ (s.select event).1) := by
  obtain ⟨hchosen, horder⟩ := chosen_spec hw event hsorted
  have hview := sameView_chooseAll (s := s) event [] s.leaves
  have htaken : (s.select event).1 =
      s.arena.withoutConflicts s.active (s.chooseAll event [] s.leaves).1 := by
    rw [← hview.toSameRun.arena, ← hview.active]
    rfl
  have hkernel := withoutConflicts_spec hw h
    (fun t ht => ((hchosen t).1 ht).active hw h) horder
  rw [htaken, ← funext fun t => propext (hchosen t)]
  exact hkernel

/-- What is selected can be taken at once. -/
theorem takeable_select (hw : s.arena.WellFormed) (h : Legal s.arena s.active)
    (hsorted : s.active.Pairwise (· < ·)) (event : Option Event) :
    Takeable s.arena s.active (s.select event).1 := by
  obtain ⟨horder, hkernel⟩ := select_spec hw h hsorted event
  have hchosen : ∀ t ∈ (s.select event).1,
      s.arena.HasTransition t ∧ t.source ∈ s.active :=
    fun t ht => (hkernel.subset t ht).active hw h
  refine ⟨fun t ht => (hchosen t ht).1, fun t ht => (hchosen t ht).2, ?_⟩
  refine horder.imp_of_mem fun {t u} ht hu hlt => ?_
  have hne : t ≠ u := by
    rintro rfl
    rcases hlt with hlt | ⟨-, hlt⟩
    · exact Nat.lt_irrefl _ hlt
    · exact Nat.lt_irrefl _ hlt
  exact apart_of_not_exits_meet hw h (hchosen t ht).1 (hchosen u hu).1 (hchosen t ht).2
    (hchosen u hu).2 (hkernel.disjoint t u ht hu hne)

end Session
end Statechart
