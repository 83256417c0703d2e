import Mathlib.Data.List.Perm.Subperm
import Mathlib.Data.Nat.Count
import Statechart.Proofs.Document.Positions
import Statechart.Text.Blank

/-!
# The identifiers of nodes

A state keeps the identifier that is written in the document.  An exit has none
of its own: the exits are numbered in document order, by the numbers that are
free because no state is called like an exit with that number.  `Document.Names`
says so without a word on how the numbers are found.

* The layout passes over taken numbers only (`mem_of_lt_freeFrom`) and ends at a
  free one (`exitId_freeFrom_not_mem`), so it gives every node its name
  (`forall₂_named`).
* Exits never cause a clash: the identifiers of all nodes are distinct if and
  only if the written ones are (`nodup_ofDocument_iff`).

Written identifiers may clash or be blank here; it is the build that refuses
them.
-/

namespace Statechart
namespace Layout

/-! ## The identifiers of exits -/

theorem exitId_injective : Function.Injective exitId := by
  intro m n h
  have hdigits : toString m = toString n := (String.append_right_inj "_exit.").1 h
  have hnumber := congrArg (fun s => Nat.ofDigitChars 10 s.toList 0) hdigits
  simpa [Nat.toString_eq_repr] using hnumber

/-- An exit is never refused for a blank identifier. -/
theorem isBlankText_exitId (n : Nat) : Text.isBlankText (exitId n) = false := by
  have hfirst : Text.isBlank '_' = false := by decide
  simp [Text.isBlankText, exitId, hfirst]

variable {taken : List String} {fuel next n m : Nat}

theorem le_freeFrom (taken : List String) (fuel n : Nat) : n ≤ freeFrom taken fuel n := by
  induction fuel generalizing n with
  | zero => exact Nat.le_refl n
  | succ fuel ih =>
      unfold freeFrom
      split
      · have hle := ih (n + 1)
        omega
      · exact Nat.le_refl n

/-- Every number that is passed over is taken. -/
theorem mem_of_lt_freeFrom (hnm : n ≤ m) (hm : m < freeFrom taken fuel n) :
    exitId m ∈ taken := by
  induction fuel generalizing n with
  | zero =>
      simp only [freeFrom] at hm
      omega
  | succ fuel ih =>
      unfold freeFrom at hm
      split at hm
      · next htaken =>
        rcases Nat.eq_or_lt_of_le hnm with rfl | hlt
        · exact List.contains_iff_mem.1 htaken
        · exact ih hlt hm
      · omega

/-- A taken number is only given when there is no fuel left. -/
theorem freeFrom_eq_add (h : exitId (freeFrom taken fuel n) ∈ taken) :
    freeFrom taken fuel n = n + fuel := by
  induction fuel generalizing n with
  | zero => rfl
  | succ fuel ih =>
      unfold freeFrom at h ⊢
      split at h
      · next htaken =>
        rw [if_pos htaken, ih h]
        omega
      · next hfree => exact absurd (List.contains_iff_mem.2 h) hfree

/-- The fuel lasts, because so many numbers cannot all be taken. -/
theorem exitId_freeFrom_not_mem : exitId (freeFrom taken taken.length n) ∉ taken := by
  intro h
  have hend := freeFrom_eq_add h
  -- the numbers from `n` to the one that is given would all be taken
  have hsubset : (List.range' n (taken.length + 1)).map exitId ⊆ taken := by
    intro id hid
    obtain ⟨m, hm, rfl⟩ := List.mem_map.1 hid
    rw [List.mem_range'_1] at hm
    rcases Nat.eq_or_lt_of_le (Nat.le_of_lt_succ (Nat.add_succ n taken.length ▸ hm.2)) with
      heq | hlt
    · rwa [heq, ← hend]
    · exact mem_of_lt_freeFrom hm.1 (hend ▸ hlt)
  have hnodup : ((List.range' n (taken.length + 1)).map exitId).Nodup :=
    List.Nodup.map exitId_injective List.nodup_range'
  have hlength := (List.subperm_of_subset hnodup hsubset).length_le
  rw [List.length_map, List.length_range'] at hlength
  omega

/-! ## Written identifiers and those of exits do not meet -/

/-- The identifier that is written at a slot. -/
def writtenId (slot : Slot) : Option String :=
  match slot.occupant with
  | .exit _ => none
  | .state d => some d.id

/-- The identifiers that are given are written ones and unused ones of exits. -/
theorem mem_withIds {slots : List Slot} {id : String}
    (h : id ∈ (withIds taken next slots).map Prod.fst) :
    id ∈ slots.filterMap writtenId ∨ ∃ n, next ≤ n ∧ exitId n ∉ taken ∧ id = exitId n := by
  induction slots generalizing next with
  | nil => exact absurd h List.not_mem_nil
  | cons slot rest ih =>
      obtain ⟨occupant, parent, children⟩ := slot
      cases occupant with
      | state d =>
          rcases List.mem_cons.1 h with rfl | h
          · exact .inl List.mem_cons_self
          · exact (ih h).imp_left (List.mem_cons_of_mem d.id)
      | exit e =>
          have hle := le_freeFrom taken taken.length next
          rcases List.mem_cons.1 h with rfl | h
          · exact .inr ⟨_, hle, exitId_freeFrom_not_mem, rfl⟩
          · refine (ih h).imp_right ?_
            rintro ⟨n, hn, hfree, rfl⟩
            exact ⟨n, by omega, hfree, rfl⟩

theorem mem_withIds_of_written {slots : List Slot} {id : String}
    (h : id ∈ slots.filterMap writtenId) : id ∈ (withIds taken next slots).map Prod.fst := by
  induction slots generalizing next with
  | nil => exact absurd h List.not_mem_nil
  | cons slot rest ih =>
      obtain ⟨occupant, parent, children⟩ := slot
      cases occupant with
      | state d =>
          rcases List.mem_cons.1 h with rfl | h
          · exact List.mem_cons_self
          · exact List.mem_cons_of_mem d.id (ih h)
      | exit e => exact List.mem_cons_of_mem _ (ih h)

/-- The identifiers of exits are different from all others. -/
theorem nodup_withIds_iff {slots : List Slot}
    (htaken : ∀ id ∈ slots.filterMap writtenId, id ∈ taken) :
    ((withIds taken next slots).map Prod.fst).Nodup ↔ (slots.filterMap writtenId).Nodup := by
  induction slots generalizing next with
  | nil => exact Iff.rfl
  | cons slot rest ih =>
      obtain ⟨occupant, parent, children⟩ := slot
      cases occupant with
      | state d =>
          have hd : d.id ∈ taken := htaken d.id List.mem_cons_self
          have hrest : ∀ id ∈ rest.filterMap writtenId, id ∈ taken := fun id hid =>
            htaken id (List.mem_cons_of_mem _ hid)
          refine List.nodup_cons.trans ((and_congr ?_ (ih hrest)).trans List.nodup_cons.symm)
          refine not_congr ⟨fun h => ?_, mem_withIds_of_written⟩
          rcases mem_withIds h with h | ⟨n, -, hfree, heq⟩
          · exact h
          · exact absurd (heq ▸ hd) hfree
      | exit e =>
          refine List.nodup_cons.trans ((and_iff_right fun h => ?_).trans (ih htaken))
          rcases mem_withIds h with h | ⟨n, hn, -, heq⟩
          · exact exitId_freeFrom_not_mem (htaken _ h)
          · have hsame := exitId_injective heq
            omega

mutual

theorem filterMap_writtenId_slots (parent next : Nat) (node : Node) :
    (slots parent next node).filterMap writtenId = node.ids := by
  cases node with
  | exit definition => rfl
  | state definition children =>
      rw [slots, Node.ids, ← filterMap_writtenId_slotsOfAll next (next + 1) children]
      rfl

theorem filterMap_writtenId_slotsOfAll (parent next : Nat) (nodes : List Node) :
    (slotsOfAll parent next nodes).filterMap writtenId = Node.allIds nodes := by
  cases nodes with
  | nil => rfl
  | cons node rest =>
      rw [slotsOfAll, List.filterMap_append, filterMap_writtenId_slots parent next node,
        filterMap_writtenId_slotsOfAll parent (next + node.size) rest, Node.allIds]

end

/-- The states of a document clash only if two of them are written with one
identifier. -/
theorem nodup_ofDocument_iff {doc : Document} :
    ((ofDocument doc).map Prod.fst).Nodup ↔ (Node.allIds doc.states).Nodup := by
  have hwritten := filterMap_writtenId_slotsOfAll 0 1 doc.states
  rw [ofDocument, nodup_withIds_iff (by rw [hwritten]; exact fun _ hid => hid), hwritten]

/-- Only a written identifier can be blank. -/
theorem ofDocument_not_blank_iff {doc : Document} :
    (∀ id ∈ (ofDocument doc).map Prod.fst, Text.isBlankText id = false) ↔
      ∀ id ∈ Node.allIds doc.states, Text.isBlankText id = false := by
  have hwritten := filterMap_writtenId_slotsOfAll 0 1 doc.states
  constructor
  · intro h id hid
    rw [← hwritten] at hid
    exact h id (mem_withIds_of_written hid)
  · intro h id hid
    rcases mem_withIds hid with hid | ⟨n, -, -, rfl⟩
    · rw [hwritten] at hid
      exact h id hid
    · exact isBlankText_exitId n

end Layout

namespace Document

open Layout

/-- No state is called like an exit with this number. -/
def IsFree (doc : Document) (n : Nat) : Prop := exitId n ∉ Node.allIds doc.states

instance (doc : Document) : DecidablePred doc.IsFree := fun n =>
  inferInstanceAs (Decidable (exitId n ∉ Node.allIds doc.states))

/-- The positions of the exits in document order. -/
def exits (doc : Document) : List Position :=
  (doc.entries.filter fun entry => entry.2.isExit).map Prod.fst

/-- A node at a position has an identifier: a state the one that is written, and
an exit the one with the next free number, counted over the exits. -/
inductive Names (doc : Document) : String → Position → Prop
  | state {p : Position} {d : StateDef} {children : List Node}
      (h : doc.nodeAt? p = some (.state d children)) : Names doc d.id p
  | exit {p : Position} {n : Nat} (hp : doc.exits[Nat.count doc.IsFree n]? = some p)
      (hn : doc.IsFree n) : Names doc (exitId n) p

variable {doc : Document} {p : Position}

theorem pairwise_exits : doc.exits.Pairwise (· < ·) :=
  List.pairwise_map.2 (pairwise_entries.filter _)

theorem exists_exit_of_mem_exits (h : p ∈ doc.exits) : ∃ e, doc.nodeAt? p = some (.exit e) := by
  obtain ⟨⟨p, node⟩, hentry, rfl⟩ := List.mem_map.1 h
  obtain ⟨hmem, hexit⟩ := List.mem_filter.1 hentry
  cases node with
  | exit e => exact ⟨e, mem_entries_iff.1 hmem⟩
  | state d children => cases hexit

/-- What has a name is a node of the document. -/
theorem Names.exists_node {id : String} (h : doc.Names id p) :
    ∃ node, doc.nodeAt? p = some node := by
  cases h with
  | state h => exact ⟨_, h⟩
  | exit hp hn =>
      obtain ⟨e, he⟩ := exists_exit_of_mem_exits (List.mem_of_getElem? hp)
      exact ⟨_, he⟩

/-- A node has one name only. -/
theorem Names.id_eq {id id' : String} (h : doc.Names id p) (h' : doc.Names id' p) : id = id' := by
  cases h with
  | state h =>
      cases h' with
      | state h' =>
          obtain rfl := (Node.state.inj (Option.some.inj (h.symm.trans h'))).1
          rfl
      | exit hp' hn' =>
          obtain ⟨e, he⟩ := exists_exit_of_mem_exits (List.mem_of_getElem? hp')
          cases h.symm.trans he
  | exit hp hn =>
      cases h' with
      | state h' =>
          obtain ⟨e, he⟩ := exists_exit_of_mem_exits (List.mem_of_getElem? hp)
          cases h'.symm.trans he
      | exit hp' hn' =>
          have hnodup : doc.exits.Nodup := pairwise_exits.imp fun hlt => ne_of_lt hlt
          have hlt := (List.getElem?_eq_some_iff.1 hp).1
          have hcount := (List.getElem?_inj hlt hnodup).1 (hp.trans hp'.symm)
          rw [Nat.count_injective hn hn' hcount]

/-! ## The layout gives every node its name -/

/-- From one exit to the next the layout goes to the next free number. -/
theorem count_freeFrom (n : Nat) :
    Nat.count doc.IsFree (freeFrom (Node.allIds doc.states) (Node.allIds doc.states).length n) =
      Nat.count doc.IsFree n := by
  obtain ⟨k, hk⟩ := Nat.exists_eq_add_of_le
    (le_freeFrom (Node.allIds doc.states) (Node.allIds doc.states).length n)
  rw [hk, Nat.count_add, Nat.add_eq_left, Nat.count_iff_forall_not]
  intro m hm hfree
  have hlt : n + m < freeFrom (Node.allIds doc.states) (Node.allIds doc.states).length n := by
    omega
  exact hfree (mem_of_lt_freeFrom (Nat.le_add_right n m) hlt)

theorem named_withIds {position : Nat → Position} {slots : List Slot}
    {before rest : List (Position × Node)} {next : Nat}
    (h : List.Forall₂ (MadeOf position) slots rest) (hall : doc.entries = before ++ rest)
    (hnext : Nat.count doc.IsFree next = (before.filter fun entry => entry.2.isExit).length) :
    List.Forall₂ (fun named entry => doc.Names named.1 entry.1 ∧ MadeOf position named.2 entry)
      (withIds (Node.allIds doc.states) next slots) rest := by
  induction h generalizing before next with
  | nil => exact .nil
  | @cons slot entry slots rest hmade _ ih =>
      obtain ⟨occupant, parent, children⟩ := slot
      obtain ⟨p, node⟩ := entry
      have hmem : (p, node) ∈ doc.entries := by simp [hall]
      have hrest : doc.entries = (before ++ [(p, node)]) ++ rest := by simp [hall]
      obtain rfl : occupant = node.occupant := hmade.occupant_eq
      cases node with
      | state d inner =>
          refine .cons ⟨.state (mem_entries_iff.1 hmem), hmade⟩ (ih hrest ?_)
          simpa [Node.isExit] using hnext
      | exit e =>
          -- the number that is given is free, and no number that is passed over is
          have hfree : doc.IsFree (freeFrom (Node.allIds doc.states)
              (Node.allIds doc.states).length next) := exitId_freeFrom_not_mem
          have hcount := hnext
          rw [← count_freeFrom] at hcount
          refine .cons ⟨.exit ?_ hfree, hmade⟩ (ih hrest ?_)
          · -- as many exits stand before this one as free numbers were given
            rw [hcount, exits, hall]
            simp [Node.isExit]
          · rw [Nat.count_succ, hcount, if_pos hfree]
            simp [Node.isExit]

/-- The slots of a document belong to its nodes, with their names. -/
theorem forall₂_named :
    List.Forall₂ (fun named entry => doc.Names named.1 entry.1 ∧ MadeOf doc.position named.2 entry)
      (ofDocument doc) doc.entries :=
  named_withIds forall₂_entries (List.nil_append _).symm (Nat.count_zero _)

theorem length_ofDocument : (ofDocument doc).length + 1 = doc.positions.length := by
  rw [forall₂_named.length_eq, positions, List.length_cons, List.length_map]

/-- Slot `k`, from which the state behind the root and `k` others comes, was made
of the node at the position of that state. -/
structure Origin (doc : Document) (k : Nat) (id : String) (slot : Slot) (node : Node) : Prop where
  get : (ofDocument doc)[k]? = some (id, slot)
  nodeAt?_eq : doc.nodeAt? (doc.position (k + 1)) = some node
  named : doc.Names id (doc.position (k + 1))
  made : MadeOf doc.position slot (doc.position (k + 1), node)

theorem Origin.isEmpty_eq {k : Nat} {id : String} {slot : Slot} {node : Node}
    (h : doc.Origin k id slot node) : slot.children.isEmpty = node.children.isEmpty := by
  rw [Bool.eq_iff_iff, List.isEmpty_iff, List.isEmpty_iff]
  exact h.made.children_eq_nil_iff

theorem exists_origin {k : Nat} (hk : k < (ofDocument doc).length) :
    ∃ id slot node, doc.Origin k id slot node := by
  have hentry : k < doc.entries.length := forall₂_named.length_eq ▸ hk
  obtain ⟨hnamed, hmade⟩ := forall₂_named.get hk hentry
  have hposition : doc.position (k + 1) = doc.entries[k].1 :=
    position_succ (List.getElem?_eq_getElem hentry)
  refine ⟨_, _, doc.entries[k].2, List.getElem?_eq_getElem hk, ?_, ?_, ?_⟩
  · rw [hposition]
    exact mem_entries_iff.1 (List.getElem_mem hentry)
  · rw [hposition]
    exact hnamed
  · rw [hposition]
    exact hmade

end Document
end Statechart
