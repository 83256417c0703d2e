/-!
# Sets of states

A set of states is a list of indices in increasing order, which is document
order.
-/

namespace Statechart

/-- Indices in increasing order. -/
abbrev StateSet := List Nat

namespace StateSet

/-- Adds an index. -/
def insert (s : Nat) : StateSet → StateSet
  | [] => [s]
  | t :: rest =>
    if s < t then s :: t :: rest
    else if s = t then t :: rest
    else t :: insert s rest

/-- Removes an index. -/
def erase (s : Nat) (set : StateSet) : StateSet := set.filter (· != s)

@[simp] theorem mem_insert {s t : Nat} {set : StateSet} :
    t ∈ insert s set ↔ t = s ∨ t ∈ set := by
  induction set with
  | nil => simp [insert]
  | cons u rest ih =>
    unfold insert
    split
    · simp
    · split
      · next h => subst h; simp
      · simp only [List.mem_cons, ih]
        constructor
        · rintro (h | h | h) <;> simp [h]
        · rintro (h | h | h) <;> simp [h]

@[simp] theorem mem_erase {s t : Nat} {set : StateSet} :
    t ∈ erase s set ↔ t ∈ set ∧ t ≠ s := by
  simp [erase]

/-- Adding keeps the order. -/
theorem pairwise_insert {s : Nat} {set : StateSet} (h : set.Pairwise (· < ·)) :
    (insert s set).Pairwise (· < ·) := by
  induction set with
  | nil => simp [insert]
  | cons t rest ih =>
    obtain ⟨hall, hrest⟩ := List.pairwise_cons.1 h
    unfold insert
    split
    · next hlt =>
      refine List.pairwise_cons.2 ⟨?_, h⟩
      intro u hu
      rcases List.mem_cons.1 hu with rfl | hu
      · exact hlt
      · exact Nat.lt_trans hlt (hall u hu)
    · split
      · exact h
      · next hge hne =>
        refine List.pairwise_cons.2 ⟨?_, ih hrest⟩
        intro u hu
        rcases mem_insert.1 hu with rfl | hu
        · omega
        · exact hall u hu

end StateSet
end Statechart
