import Mathlib.Data.List.Nodup
import Statechart.Fields

/-!
# The names of fields

Which names a list of fields holds, after a write and after pairs were collected, and which fields
it holds if the names are different.
-/

namespace Statechart

namespace Fields

variable {α : Type} {name : String} {value : α} {field : String × α} {fields pairs : Fields α}

/-- The names are those that can be read. -/
theorem mem_names_iff : name ∈ fields.names ↔ ∃ value, get? name fields = some value := by
  induction fields with
  | nil => simp [names]
  | cons field rest ih =>
      obtain ⟨key, value⟩ := field
      by_cases heq : key = name
      · simp [names, get?, heq]
      · have hne : name ≠ key := fun h => heq h.symm
        simpa [names, get?, heq, hne] using ih

/-- A name whose only value is listed is read as that value. -/
theorem get?_eq_some_of_forall_mem (hmem : name ∈ names fields)
    (hvalue : ∀ field ∈ fields, field.1 = name → field.2 = value) :
    get? name fields = some value := by
  induction fields with
  | nil => cases hmem
  | cons first rest ih =>
      obtain ⟨key, old⟩ := first
      obtain ⟨hfirst, hrest⟩ := List.forall_mem_cons.1 hvalue
      by_cases heq : key = name
      · rw [get?, if_pos heq]
        exact congrArg some (hfirst heq)
      · rw [get?, if_neg heq]
        exact ih ((List.mem_cons.1 hmem).resolve_left (Ne.symm heq)) hrest

theorem get?_eq_none_of_not_mem (h : name ∉ names fields) : get? name fields = none := by
  cases hget : get? name fields with
  | none => rfl
  | some value => exact absurd (mem_names_iff.2 ⟨value, hget⟩) h

theorem mem_names_put {other : String} :
    other ∈ (put name value fields).names ↔ other = name ∨ other ∈ fields.names := by
  rw [mem_names_iff, mem_names_iff]
  by_cases heq : name = other
  · subst heq
    simp
  · simp [get?_put_of_ne heq, Ne.symm heq]

theorem mem_names_ofList : name ∈ (ofList pairs).names ↔ name ∈ names pairs := by
  have hfold : ∀ fields : Fields α,
      name ∈ (pairs.foldl (fun fields pair => put pair.1 pair.2 fields) fields).names ↔
        name ∈ names pairs ∨ name ∈ fields.names := by
    induction pairs with
    | nil => exact fun fields => (or_iff_right List.not_mem_nil).symm
    | cons pair rest ih =>
        intro fields
        have hcons : name ∈ names (pair :: rest) ↔ name = pair.1 ∨ name ∈ names rest :=
          List.mem_cons
        rw [List.foldl_cons, ih, mem_names_put, hcons, or_left_comm, or_assoc]
  exact (hfold []).trans (or_iff_left List.not_mem_nil)

theorem mem_put_of_not_mem (h : name ∉ names fields) :
    field ∈ put name value fields ↔ field = (name, value) ∨ field ∈ fields := by
  induction fields with
  | nil => simp [put]
  | cons first rest ih =>
      obtain ⟨key, old⟩ := first
      have hne : key ≠ name := fun heq => h (heq ▸ List.mem_cons_self)
      have hrest : name ∉ names rest := fun hmem => h (List.mem_cons_of_mem _ hmem)
      rw [put, if_neg hne]
      split
      · exact List.mem_cons
      · rw [List.mem_cons, ih hrest, List.mem_cons]
        exact or_left_comm

/-- Pairs with different names are all collected. -/
theorem mem_ofList_iff (h : (names pairs).Nodup) : field ∈ ofList pairs ↔ field ∈ pairs := by
  suffices hset : ∀ fields : Fields α, (∀ name ∈ names pairs, name ∉ names fields) →
      (field ∈ pairs.foldl (fun fields pair => put pair.1 pair.2 fields) fields ↔
        field ∈ fields ∨ field ∈ pairs) by
    exact (hset [] fun _ _ => List.not_mem_nil).trans (or_iff_right List.not_mem_nil)
  induction pairs with
  | nil => simp
  | cons pair rest ih =>
      intro fields hapart
      obtain ⟨hpair, hrest⟩ := List.nodup_cons.1 h
      obtain ⟨hfirst, hapart⟩ := List.forall_mem_cons.1 hapart
      have hlater : ∀ name ∈ names rest, name ∉ names (put pair.1 pair.2 fields) := by
        intro name hname hmem
        rcases mem_names_put.1 hmem with rfl | hmem
        · exact hpair hname
        · exact hapart name hname hmem
      rw [List.foldl_cons, ih hrest _ hlater, mem_put_of_not_mem hfirst, List.mem_cons,
        or_comm (a := field = _), or_assoc]

theorem nodup_names_of_ordered (h : Ordered fields) : (names fields).Nodup := by
  refine List.Pairwise.map _ ?_ h
  rintro a b hlt heq
  exact String.lt_irrefl _ (heq ▸ hlt)

end Fields

end Statechart
