import Mathlib.Data.List.Forall2
import Mathlib.Data.List.Lex
import Statechart.Model.Basic
import Statechart.Model.Layout

/-!
# Positions in a document

The position of a node is the list of the child numbers on the way down to it.
The root above the top-level states has the empty position.  A node lies inside
of another one if the position of that is a proper prefix of its own.

`Document.entries` lists the nodes of a document with their positions.  It holds
each node once (`mem_entries_iff`) and in the lexicographic order of positions
(`pairwise_entries`), which is pre-order.

The layout of the arena goes through the same nodes in the same order
(`forall₂_slots`).  So the states of an arena can be compared with the nodes of
the document without a word on indices.
-/

namespace Statechart

/-- The child numbers on the way down from the root. -/
abbrev Position := List Nat

namespace Position

/-- `p` lies properly inside of `q`. -/
def Inside (p q : Position) : Prop := q <+: p ∧ q ≠ p

instance (p q : Position) : Decidable (p.Inside q) :=
  inferInstanceAs (Decidable (q <+: p ∧ q ≠ p))

variable {p q : Position}

/-- What lies inside of `q` lies in `q`, taken one step up. -/
theorem Inside.prefix_dropLast (h : p.Inside q) : q <+: p.dropLast := by
  obtain ⟨⟨rest, rfl⟩, hne⟩ := h
  have hrest : rest ≠ [] := by
    rintro rfl
    exact hne (List.append_nil q).symm
  rw [List.dropLast_append_of_ne_nil hrest]
  exact List.prefix_append q _

theorem inside_of_prefix_dropLast (h : q <+: p.dropLast) (hp : p ≠ []) : p.Inside q := by
  refine ⟨h.trans (List.dropLast_prefix p), ?_⟩
  rintro rfl
  have hlength := h.length_le
  have hpos := List.length_pos_of_ne_nil hp
  rw [List.length_dropLast] at hlength
  omega

end Position

namespace Node

/-- The trees right below the top of a tree. -/
def children : Node → List Node
  | exit _ => []
  | state _ children => children

/-- The tree that a position leads to. -/
def descend (node : Node) : Position → Option Node
  | [] => some node
  | n :: rest => node.children[n]?.bind fun child => child.descend rest

/-- What the layout puts at the top of a tree. -/
def occupant : Node → Layout.Occupant
  | exit definition => .exit definition
  | state definition _ => .state definition

/-- Holds of exits. -/
def isExit : Node → Bool
  | exit _ => true
  | state _ _ => false

mutual

/-- The nodes of a tree in pre-order with their positions; the tree is number
`n` at the position `base`. -/
def entries (base : Position) (n : Nat) : Node → List (Position × Node)
  | exit definition => [(base ++ [n], exit definition)]
  | state definition children =>
    (base ++ [n], state definition children) :: entriesOfAll (base ++ [n]) 0 children

/-- The nodes of some trees in pre-order with their positions; the trees are
numbered from `n` on at the position `base`. -/
def entriesOfAll (base : Position) (n : Nat) : List Node → List (Position × Node)
  | [] => []
  | node :: rest => node.entries base n ++ entriesOfAll base (n + 1) rest

end

end Node

namespace Document

/-- The nodes of a document in pre-order with their positions. -/
def entries (doc : Document) : List (Position × Node) := Node.entriesOfAll [] 0 doc.states

/-- The positions in a document, that of the root first. -/
def positions (doc : Document) : List Position := [] :: doc.entries.map Prod.fst

/-- The node at a position.  There is no node for the root. -/
def nodeAt? (doc : Document) : Position → Option Node
  | [] => none
  | n :: rest => doc.states[n]?.bind fun node => node.descend rest

end Document

namespace Node

theorem descend_append (node : Node) (p q : Position) :
    node.descend (p ++ q) = (node.descend p).bind fun inner => inner.descend q := by
  induction p generalizing node with
  | nil => rfl
  | cons n p ih =>
      rw [List.cons_append, descend, descend, Option.bind_assoc]
      congr 1
      funext child
      exact ih child

/-! ## Pre-order -/

mutual

theorem mem_entries_iff {base : Position} {n : Nat} (node : Node) {p : Position} {m : Node} :
    (p, m) ∈ node.entries base n ↔ ∃ rest, p = base ++ n :: rest ∧ node.descend rest = some m := by
  cases node with
  | exit definition =>
      rw [entries, List.mem_singleton, Prod.mk.injEq]
      constructor
      · rintro ⟨rfl, rfl⟩
        exact ⟨[], rfl, rfl⟩
      · rintro ⟨rest, rfl, h⟩
        cases rest with
        | nil => exact ⟨rfl, (Option.some.inj h).symm⟩
        | cons k rest => cases h
  | state definition children =>
      rw [entries, List.mem_cons, Prod.mk.injEq, mem_entriesOfAll_iff children]
      constructor
      · rintro (⟨rfl, rfl⟩ | ⟨k, rest, rfl, h⟩)
        · exact ⟨[], rfl, rfl⟩
        · exact ⟨k :: rest, by simp, h⟩
      · rintro ⟨rest, rfl, h⟩
        cases rest with
        | nil => exact .inl ⟨rfl, (Option.some.inj h).symm⟩
        | cons k rest => exact .inr ⟨k, rest, by simp, h⟩

theorem mem_entriesOfAll_iff {base : Position} {n : Nat} (nodes : List Node) {p : Position}
    {m : Node} : (p, m) ∈ entriesOfAll base n nodes ↔ ∃ k rest, p = base ++ (n + k) :: rest ∧
      (nodes[k]?.bind fun node => node.descend rest) = some m := by
  cases nodes with
  | nil => simp [entriesOfAll]
  | cons node others =>
      rw [entriesOfAll, List.mem_append, mem_entries_iff node, mem_entriesOfAll_iff others]
      constructor
      · rintro (⟨rest, rfl, h⟩ | ⟨k, rest, rfl, h⟩)
        · exact ⟨0, rest, rfl, h⟩
        · exact ⟨k + 1, rest, by rw [Nat.add_assoc, Nat.add_comm 1 k], h⟩
      · rintro ⟨k, rest, rfl, h⟩
        cases k with
        | zero => exact .inl ⟨rest, rfl, h⟩
        | succ k => exact .inr ⟨k, rest, by rw [Nat.add_assoc, Nat.add_comm 1 k], h⟩

end

mutual

theorem pairwise_entries {base : Position} {n : Nat} (node : Node) :
    (node.entries base n).Pairwise fun a b => a.1 < b.1 := by
  cases node with
  | exit definition => exact List.pairwise_singleton _ _
  | state definition children =>
      refine List.pairwise_cons.2 ⟨?_, pairwise_entriesOfAll children⟩
      rintro ⟨p, m⟩ hm
      obtain ⟨k, rest, rfl, -⟩ := (mem_entriesOfAll_iff children).1 hm
      have hlt : (base ++ [n]) ++ [] < (base ++ [n]) ++ (0 + k) :: rest :=
        List.append_left_lt (List.nil_lt_cons _ _)
      rwa [List.append_nil] at hlt

theorem pairwise_entriesOfAll {base : Position} {n : Nat} (nodes : List Node) :
    (entriesOfAll base n nodes).Pairwise fun a b => a.1 < b.1 := by
  cases nodes with
  | nil => exact List.Pairwise.nil
  | cons node others =>
      refine List.pairwise_append.2 ⟨pairwise_entries node, pairwise_entriesOfAll others, ?_⟩
      rintro ⟨p, m⟩ hm ⟨q, m'⟩ hm'
      obtain ⟨rest, rfl, -⟩ := (mem_entries_iff node).1 hm
      obtain ⟨k, rest', rfl, -⟩ := (mem_entriesOfAll_iff others).1 hm'
      have hlt : n < n + 1 + k := by omega
      exact List.append_left_lt (List.cons_lt_cons_iff.2 (.inl hlt))

end

mutual

theorem length_entries {base : Position} {n : Nat} (node : Node) :
    (node.entries base n).length = node.size := by
  cases node with
  | exit definition => rfl
  | state definition children =>
      rw [entries, List.length_cons, length_entriesOfAll children, size]

theorem length_entriesOfAll {base : Position} {n : Nat} (nodes : List Node) :
    (entriesOfAll base n nodes).length = sizes nodes := by
  cases nodes with
  | nil => rfl
  | cons node others =>
      rw [entriesOfAll, List.length_append, length_entries node, length_entriesOfAll others, sizes]

end

end Node

namespace Document

variable {doc : Document} {p : Position} {node : Node}

theorem mem_entries_iff : (p, node) ∈ doc.entries ↔ doc.nodeAt? p = some node := by
  rw [entries, Node.mem_entriesOfAll_iff]
  constructor
  · rintro ⟨k, rest, rfl, h⟩
    rwa [List.nil_append, Nat.zero_add]
  · intro h
    cases p with
    | nil => cases h
    | cons k rest => exact ⟨k, rest, by rw [List.nil_append, Nat.zero_add], h⟩

theorem pairwise_entries : doc.entries.Pairwise fun a b => a.1 < b.1 :=
  Node.pairwise_entriesOfAll doc.states

theorem ne_nil_of_mem_entries (h : (p, node) ∈ doc.entries) : p ≠ [] := by
  rintro rfl
  have hnone := mem_entries_iff.1 h
  cases hnone

/-- A node inside of another one is reached through a child of that. -/
theorem children_ne_nil_of_inside {outer inner : Node} {q : Position}
    (houter : doc.nodeAt? p = some outer) (hinner : doc.nodeAt? q = some inner)
    (h : q.Inside p) : outer.children ≠ [] := by
  obtain ⟨⟨rest, rfl⟩, hne⟩ := h
  cases p with
  | nil => cases houter
  | cons n p =>
      simp only [nodeAt?, List.cons_append, Option.bind_eq_some_iff] at houter hinner
      obtain ⟨top, htop, houter⟩ := houter
      obtain ⟨top', htop', hinner⟩ := hinner
      obtain rfl := Option.some.inj (htop.symm.trans htop')
      rw [Node.descend_append, houter, Option.bind_some] at hinner
      cases rest with
      | nil => simp at hne
      | cons k rest =>
          intro hnil
          simp [Node.descend, hnil] at hinner

theorem pairwise_positions : doc.positions.Pairwise (· < ·) := by
  refine List.pairwise_cons.2 ⟨fun p hp => ?_, ?_⟩
  · obtain ⟨⟨p, node⟩, hmem, rfl⟩ := List.mem_map.1 hp
    obtain ⟨k, rest, rfl⟩ := List.exists_cons_of_ne_nil (ne_nil_of_mem_entries hmem)
    exact List.nil_lt_cons _ _
  · exact List.pairwise_map.2 pairwise_entries

end Document

/-! ## The layout -/

namespace Layout

open Node

/-- A slot was made of a node at a position: it holds the same, and the position
of its parent is one step up.  `position` gives the positions of states. -/
structure MadeOf (position : Nat → Position) (slot : Slot) (entry : Position × Node) : Prop where
  occupant_eq : slot.occupant = entry.2.occupant
  children_eq_nil_iff : slot.children = [] ↔ entry.2.children = []
  parent_eq : position slot.parent = entry.1.dropLast

/-- Positions are those of some entries from `next` on. -/
abbrev Stands (position : Nat → Position) : Nat → List (Position × Node) → Prop :=
  Consecutive fun s entry => position s = entry.1

variable {position : Nat → Position} {next : Nat}

theorem tops_eq_nil_iff (nodes : List Node) : tops next nodes = [] ↔ nodes = [] := by
  cases nodes <;> simp [tops]

mutual

theorem forall₂_slots {parent next n : Nat} {base : Position} (node : Node)
    (hparent : position parent = base)
    (h : Stands position next (node.entries base n)) :
    List.Forall₂ (MadeOf position) (slots parent next node) (node.entries base n) := by
  cases node with
  | exit definition =>
      exact .cons ⟨rfl, ⟨fun _ => rfl, fun _ => rfl⟩, by rw [hparent, List.dropLast_concat]⟩ .nil
  | state definition children =>
      refine .cons ⟨rfl, tops_eq_nil_iff children, by rw [hparent, List.dropLast_concat]⟩ ?_
      exact forall₂_slotsOfAll children h.head h.tail

theorem forall₂_slotsOfAll {parent next n : Nat} {base : Position} (nodes : List Node)
    (hparent : position parent = base)
    (h : Stands position next (entriesOfAll base n nodes)) :
    List.Forall₂ (MadeOf position) (slotsOfAll parent next nodes)
      (entriesOfAll base n nodes) := by
  cases nodes with
  | nil => exact .nil
  | cons node others =>
      have hright := h.right
      rw [length_entries] at hright
      exact List.rel_append (forall₂_slots node hparent h.left)
        (forall₂_slotsOfAll others hparent hright)

end

end Layout

namespace Document

variable {doc : Document} {a b s : Nat} {p : Position} {node : Node}

/-- The position of a state. -/
def position (doc : Document) (s : Nat) : Position := doc.positions[s]?.getD []

theorem position_eq_getElem (hs : s < doc.positions.length) :
    doc.position s = doc.positions[s] := by
  rw [position, List.getElem?_eq_getElem hs, Option.getD_some]

theorem position_lt (hab : a < b) (hb : b < doc.positions.length) :
    doc.position a < doc.position b := by
  rw [position_eq_getElem (Nat.lt_trans hab hb), position_eq_getElem hb]
  exact List.pairwise_iff_getElem.1 pairwise_positions a b (Nat.lt_trans hab hb) hb hab

theorem position_lt_iff (ha : a < doc.positions.length) (hb : b < doc.positions.length) :
    doc.position a < doc.position b ↔ a < b := by
  refine ⟨fun h => ?_, fun hab => position_lt hab hb⟩
  rcases Nat.lt_trichotomy a b with hab | rfl | hba
  · exact hab
  · exact absurd h (List.lt_irrefl _)
  · exact absurd (List.lt_trans h (position_lt hba ha)) (List.lt_irrefl _)

theorem position_inj (ha : a < doc.positions.length) (hb : b < doc.positions.length)
    (h : doc.position a = doc.position b) : a = b := by
  have hab : ¬ a < b := fun hlt => List.lt_irrefl _ (h ▸ position_lt hlt hb)
  have hba : ¬ b < a := fun hlt => List.lt_irrefl _ (h ▸ position_lt hlt ha)
  omega

theorem position_ne_nil (h0 : Arena.root < s) (hs : s < doc.positions.length) :
    doc.position s ≠ [] := fun hnil => by
  have hroot := position_inj hs (Nat.lt_of_le_of_lt (Nat.zero_le s) hs) (b := 0) hnil
  exact Nat.ne_of_gt h0 hroot

/-- The state behind the root and `k` others belongs to entry `k`. -/
theorem position_succ {k : Nat} {entry : Position × Node} (hk : doc.entries[k]? = some entry) :
    doc.position (k + 1) = entry.1 := by
  have hget : doc.positions[k + 1]? = some entry.1 := by
    rw [positions, List.getElem?_cons_succ, List.getElem?_map]
    exact congrArg (Option.map Prod.fst) hk
  rw [position, hget, Option.getD_some]

/-- Every node of a document has a state. -/
theorem exists_position_eq (h : doc.nodeAt? p = some node) :
    ∃ s, Arena.root < s ∧ s < doc.positions.length ∧ doc.position s = p := by
  obtain ⟨k, hk⟩ := List.mem_iff_getElem?.1 (mem_entries_iff.2 h)
  have hlt := (List.getElem?_eq_some_iff.1 hk).1
  refine ⟨k + 1, Nat.succ_pos k, ?_, position_succ hk⟩
  rw [positions, List.length_cons, List.length_map]
  exact Nat.succ_lt_succ hlt

/-- The slots of a document belong to its nodes, one after the other. -/
theorem forall₂_entries :
    List.Forall₂ (Layout.MadeOf doc.position) (Layout.slotsOfAll Arena.root 1 doc.states)
      doc.entries := by
  refine Layout.forall₂_slotsOfAll doc.states rfl fun k entry hk => ?_
  rw [Nat.add_comm 1 k]
  exact position_succ hk

end Document
end Statechart
