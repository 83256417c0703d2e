import Mathlib.Data.Nat.Nth
import Mathlib.Order.Bounds.Basic
import Statechart.Proofs.Document.Identifiers

/-!
# The numbers of exits

`Document.Names` counts the free numbers in front of the number of an exit.  Here the
numbers are listed.  There are infinitely many free ones, so every search for the next one
ends (`isLeast_freeFrom`), and the exit that comes `k`-th in document order has the `k`-th of
them, counted from `0` (`getElem?_exitIds`).

Besides the order of the nodes nothing matters but which identifiers are written, anywhere
in the document.
-/

namespace Statechart

open Layout

namespace Document

variable {doc : Document} {p : Position} {id : String} {k n : Nat}

/-! ## The free numbers -/

/-- From any number on, the search ends, and it ends at the first free number. -/
theorem isLeast_freeFrom (doc : Document) (n : Nat) :
    IsLeast {m | n ≤ m ∧ doc.IsFree m}
      (freeFrom (Node.allIds doc.states) (Node.allIds doc.states).length n) := by
  refine ⟨⟨le_freeFrom _ _ _, exitId_freeFrom_not_mem⟩, fun m ⟨hnm, hfree⟩ => ?_⟩
  by_contra hlt
  exact hfree (mem_of_lt_freeFrom hnm (Nat.lt_of_not_le hlt))

theorem infinite_isFree (doc : Document) : {n | doc.IsFree n}.Infinite := by
  refine Set.infinite_of_forall_exists_gt fun n => ?_
  obtain ⟨hle, hfree⟩ := (doc.isLeast_freeFrom (n + 1)).1
  exact ⟨_, hfree, hle⟩

/-- The free number that has `k` free numbers below it. -/
noncomputable def freeNumber (doc : Document) (k : Nat) : Nat := Nat.nth doc.IsFree k

theorem isFree_freeNumber (doc : Document) (k : Nat) : doc.IsFree (doc.freeNumber k) :=
  Nat.nth_mem_of_infinite doc.infinite_isFree k

theorem count_freeNumber (doc : Document) (k : Nat) :
    Nat.count doc.IsFree (doc.freeNumber k) = k :=
  Nat.count_nth_of_infinite doc.infinite_isFree k

theorem strictMono_freeNumber (doc : Document) : StrictMono doc.freeNumber :=
  Nat.nth_strictMono doc.infinite_isFree

/-- Which numbers are free depends on the written identifiers only, and not on their
order. -/
theorem freeNumber_congr {other : Document}
    (h : ∀ id, id ∈ Node.allIds other.states ↔ id ∈ Node.allIds doc.states) :
    other.freeNumber = doc.freeNumber := by
  have hfree : other.IsFree = doc.IsFree := funext fun n => propext (not_congr (h (exitId n)))
  funext k
  rw [freeNumber, freeNumber, hfree]

/-! ## The exits in document order -/

theorem names_freeNumber (hp : doc.exits[k]? = some p) :
    doc.Names (exitId (doc.freeNumber k)) p :=
  .exit ((doc.count_freeNumber k).symm ▸ hp) (doc.isFree_freeNumber k)

/-- The identifier that was given to an exit. -/
def exitId? (named : String × Slot) : Option String :=
  match named.2.occupant with
  | .exit _ => some named.1
  | .state _ => none

/-- The identifiers that the layout gives to the exits, in document order. -/
def exitIds (doc : Document) : List String := (ofDocument doc).filterMap exitId?

theorem forall₂_filterMap_exitId? {named : List (String × Slot)}
    {entries : List (Position × Node)}
    (h : List.Forall₂ (fun named entry =>
      doc.Names named.1 entry.1 ∧ MadeOf doc.position named.2 entry) named entries) :
    List.Forall₂ doc.Names (named.filterMap exitId?)
      ((entries.filter fun entry => entry.2.isExit).map Prod.fst) := by
  induction h with
  | nil => exact .nil
  | @cons named entry rest entries hfirst _ ih =>
      obtain ⟨id, occupant, parent, children⟩ := named
      obtain ⟨p, node⟩ := entry
      obtain ⟨hnames, hmade⟩ := hfirst
      obtain rfl : occupant = node.occupant := hmade.occupant_eq
      cases node with
      | exit e => exact .cons hnames ih
      | state d inner => exact ih

/-- The exits of a document get these identifiers, each one its own. -/
theorem forall₂_exitIds : List.Forall₂ doc.Names doc.exitIds doc.exits :=
  forall₂_filterMap_exitId? forall₂_named

theorem exitIds_eq (doc : Document) :
    doc.exitIds = (List.range doc.exits.length).map fun k => exitId (doc.freeNumber k) := by
  have hlength : doc.exitIds.length = doc.exits.length := forall₂_exitIds.length_eq
  refine List.ext_getElem (by rw [hlength, List.length_map, List.length_range]) ?_
  intro k hk _
  have hk' : k < doc.exits.length := hlength ▸ hk
  rw [List.getElem_map, List.getElem_range]
  exact (forall₂_exitIds.get hk hk').id_eq (names_freeNumber (List.getElem?_eq_getElem hk'))

theorem nodup_exitIds (doc : Document) : doc.exitIds.Nodup := by
  rw [exitIds_eq]
  exact List.nodup_range.map (exitId_injective.comp doc.strictMono_freeNumber.injective)

theorem not_mem_allIds_of_mem_exitIds (h : id ∈ doc.exitIds) : id ∉ Node.allIds doc.states := by
  rw [exitIds_eq] at h
  obtain ⟨k, -, rfl⟩ := List.mem_map.1 h
  exact doc.isFree_freeNumber k

/-- The slot of the exit that comes `k`-th was made with the `k`-th free number. -/
theorem exists_origin_of_exit (hp : doc.exits[k]? = some p) :
    ∃ i slot e, doc.Origin i (exitId (doc.freeNumber k)) slot (.exit e) ∧
      doc.position (i + 1) = p := by
  obtain ⟨e, he⟩ := exists_exit_of_mem_exits (List.mem_of_getElem? hp)
  obtain ⟨s, h0, hs, rfl⟩ := exists_position_eq he
  obtain ⟨i, rfl⟩ : ∃ i, s = i + 1 := ⟨s - 1, (Nat.succ_pred_eq_of_pos h0).symm⟩
  have hi : i < (ofDocument doc).length := by
    have hlength : (ofDocument doc).length + 1 = doc.positions.length := length_ofDocument
    omega
  obtain ⟨id, slot, node, horigin⟩ := exists_origin hi
  obtain rfl := horigin.named.id_eq (names_freeNumber hp)
  obtain rfl := Option.some.inj (horigin.nodeAt?_eq.symm.trans he)
  exact ⟨i, slot, e, horigin, rfl⟩

/-! ## All identifiers -/

theorem count_withIds (taken : List String) (next : Nat) (slots : List Slot) (id : String) :
    ((withIds taken next slots).map Prod.fst).count id =
      (slots.filterMap writtenId).count id +
        ((withIds taken next slots).filterMap exitId?).count id := by
  induction slots generalizing next with
  | nil => rfl
  | cons slot rest ih =>
      obtain ⟨occupant, parent, children⟩ := slot
      cases occupant with
      | state d =>
          have hrest := ih next
          simp only [withIds, writtenId, exitId?, List.map_cons, List.filterMap_cons,
            List.count_cons] at hrest ⊢
          omega
      | exit e =>
          have hrest := ih (freeFrom taken taken.length next + 1)
          simp only [withIds, writtenId, exitId?, List.map_cons, List.filterMap_cons,
            List.count_cons] at hrest ⊢
          omega

/-- The nodes have the identifiers that are written and those of the exits. -/
theorem count_ofDocument (doc : Document) (id : String) :
    ((ofDocument doc).map Prod.fst).count id =
      (Node.allIds doc.states).count id + doc.exitIds.count id := by
  rw [ofDocument, count_withIds, filterMap_writtenId_slotsOfAll]
  rfl

/-- An identifier that two nodes have is written at both. -/
theorem two_le_count_allIds (h : 2 ≤ ((ofDocument doc).map Prod.fst).count id) :
    2 ≤ (Node.allIds doc.states).count id := by
  have hsum := doc.count_ofDocument id
  have hexits : doc.exitIds.count id ≤ 1 := List.nodup_iff_count_le_one.1 doc.nodup_exitIds id
  by_cases hmem : id ∈ doc.exitIds
  · have hwritten := List.count_eq_zero.2 (not_mem_allIds_of_mem_exitIds hmem)
    omega
  · have hnone := List.count_eq_zero.2 hmem
    omega

end Document
end Statechart
