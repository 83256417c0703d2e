import Statechart.Proofs.Arena.Built
import Statechart.Proofs.Document.Identifiers

/-!
# Where the states of an arena stand in the document

In a located arena the parent of a state stands one step above it in the
document.  Nothing more is needed to read the hierarchy off the document: one
state is a descendant of another one if and only if its node lies inside of the
other node (`Located.below_iff`).

The arena is located as soon as the states are laid out (`Drafted.located`), so
this is there for the passes that look up initial states and targets.  They find
a state by the name of its node (`Drafted.find?_eq_some_iff`).
-/

namespace Statechart

open Layout

namespace Arena

/-- The states stand where the nodes of a document stand. -/
structure Located (arena : Arena) (doc : Document) : Prop where
  size_eq : arena.size = doc.positions.length
  root_parent : ∀ p, ¬ arena.Parent root p
  parent : ∀ s, root < s → s < arena.size →
    ∃ p, p < s ∧ arena.Parent s p ∧ doc.position p = (doc.position s).dropLast

variable {arena : Arena} {doc : Document} {a b s p : Nat}

namespace Located

variable (h : arena.Located doc)
include h

theorem root_lt_of_parent (hp : arena.Parent s p) : root < s := by
  refine Nat.pos_of_ne_zero ?_
  rintro rfl
  exact h.root_parent p hp

theorem parent_lt (s p : Nat) (hp : arena.Parent s p) : p < s := by
  obtain ⟨q, hqs, hq, -⟩ := h.parent s (h.root_lt_of_parent hp) (lt_size_of_parent hp)
  obtain rfl : q = p := parent_unique hq hp
  exact hqs

theorem parent_iff (hs : s < arena.size) (hp : p < arena.size) :
    arena.Parent s p ↔ s ≠ root ∧ doc.position p = (doc.position s).dropLast := by
  constructor
  · intro hsp
    have h0 := h.root_lt_of_parent hsp
    obtain ⟨q, -, hq, hposition⟩ := h.parent s h0 hs
    obtain rfl : q = p := parent_unique hq hsp
    exact ⟨Nat.ne_of_gt h0, hposition⟩
  · rintro ⟨hne, hposition⟩
    obtain ⟨q, hqs, hq, hposition'⟩ := h.parent s (Nat.pos_of_ne_zero hne) hs
    have hqp : q = p := by
      rw [h.size_eq] at hp hs
      exact Document.position_inj (Nat.lt_trans hqs hs) hp (hposition'.trans hposition.symm)
    exact hqp ▸ hq

/-- Descendants are the states whose nodes lie inside. -/
theorem below_iff (ha : a < arena.size) (hb : b < arena.size) :
    arena.Below a b ↔ (doc.position a).Inside (doc.position b) := by
  induction a using Nat.strongRecOn with
  | ind a ih =>
      rw [below_iff_of_parent_lt h.parent_lt]
      rcases Nat.eq_zero_or_pos a with rfl | h0
      · -- nothing is around the root
        refine ⟨fun ⟨p, hp, _⟩ => absurd hp (h.root_parent p), fun hin => ?_⟩
        exact absurd (List.prefix_nil.1 hin.1) hin.2
      obtain ⟨p, hpa, hp, hposition⟩ := h.parent a h0 ha
      have hsize : p < arena.size := Nat.lt_trans hpa ha
      -- both sides go one step up from `a` to its parent `p`
      constructor
      · rintro ⟨q, hq, hqb⟩
        obtain rfl : q = p := parent_unique hq hp
        refine Position.inside_of_prefix_dropLast ?_ (Document.position_ne_nil h0 (h.size_eq ▸ ha))
        rw [← hposition]
        rcases hqb with rfl | hqb
        · exact List.prefix_refl _
        · exact ((ih q hpa hsize).1 hqb).1
      · intro hin
        refine ⟨p, hp, ?_⟩
        have hup := hin.prefix_dropLast
        rw [← hposition] at hup
        by_cases hpb : p = b
        · exact .inl hpb
        · refine .inr ((ih p hpa hsize).2 ⟨hup, fun heq => hpb ?_⟩)
          rw [h.size_eq] at hb hsize
          exact (Document.position_inj hb hsize heq).symm

end Located

end Arena

namespace Model

variable {doc : Document} {registry : Registry} {model : Model} {pre : Arena} {a b s : Nat}

namespace Drafted

variable (h : Drafted doc registry pre)
include h

/-- Where a state behind the root comes from, and what was made of it. -/
theorem exists_origin (h0 : Arena.root < s) (hs : s < pre.size) :
    ∃ k id slot node, s = k + 1 ∧ doc.Origin k id slot node ∧
      stateAt registry id slot = .ok (pre.state s) := by
  obtain ⟨k, rfl⟩ : ∃ k, s = k + 1 := ⟨s - 1, (Nat.succ_pred_eq_of_pos h0).symm⟩
  have hk : k < (ofDocument doc).length := by
    have hsize := h.pre_size
    omega
  obtain ⟨id, slot, node, horigin⟩ := Document.exists_origin hk
  exact ⟨k, id, slot, node, rfl, horigin, h.pre_state k id slot horigin.get⟩

theorem located : pre.Located doc where
  size_eq := by rw [h.pre_size, Document.length_ofDocument]
  root_parent := h.root_parent
  parent s h0 hs := by
    obtain ⟨k, id, slot, node, rfl, horigin, hstate⟩ := h.exists_origin h0 hs
    have hp : pre.Parent (k + 1) slot.parent := (fits_of_stateAt hstate).parent_eq
    exact ⟨slot.parent, h.parent_lt _ _ hp, hp, horigin.made.parent_eq⟩

/-- A state has the name of its node. -/
theorem named (h0 : Arena.root < s) (hs : s < pre.size) :
    doc.Names (pre.state s).id (doc.position s) := by
  obtain ⟨k, id, slot, node, rfl, horigin, hstate⟩ := h.exists_origin h0 hs
  rw [(fits_of_stateAt hstate).id_eq]
  exact horigin.named

/-- No two states behind the root have the same identifier. -/
theorem id_inj (ha0 : Arena.root < a) (ha : a < pre.size) (hb0 : Arena.root < b)
    (hb : b < pre.size) (hid : (pre.state a).id = (pre.state b).id) : a = b := by
  obtain ⟨j, id, slot, _, rfl, ho, hstate⟩ := h.exists_origin ha0 ha
  obtain ⟨k, id', slot', _, rfl, ho', hstate'⟩ := h.exists_origin hb0 hb
  rw [(fits_of_stateAt hstate).id_eq, (fits_of_stateAt hstate').id_eq] at hid
  -- both are entries of the list of identifiers, which has no duplicates
  have hget : ((ofDocument doc).map Prod.fst)[j]? = some id := by simp [ho.get]
  have hget' : ((ofDocument doc).map Prod.fst)[k]? = some id := by simp [ho'.get, hid]
  have hlt := (List.getElem?_eq_some_iff.1 hget).1
  have hjk := (List.getElem?_inj hlt h.fresh.nodup).1 (hget.trans hget'.symm)
  rw [hjk]

/-- Looking up an identifier finds the state of the node with that name. -/
theorem find?_eq_some_iff {id : String} : pre.find? id = some s ↔
    Arena.root < s ∧ s < pre.size ∧ doc.Names id (doc.position s) := by
  rw [Arena.find?_eq_some_iff fun _ _ => h.id_inj]
  refine and_congr_right fun h0 => and_congr_right fun hs => ?_
  constructor
  · rintro rfl
    exact h.named h0 hs
  · exact fun hnames => (h.named h0 hs).id_eq hnames

/-- The name of a node leads to its state. -/
theorem find?_of_names {id : String} {p : Position} (hp : doc.Names id p) :
    ∃ s, pre.find? id = some s ∧ doc.position s = p := by
  obtain ⟨node, hnode⟩ := hp.exists_node
  obtain ⟨s, h0, hs, rfl⟩ := Document.exists_position_eq hnode
  exact ⟨s, h.find?_eq_some_iff.2 ⟨h0, h.located.size_eq ▸ hs, hp⟩, rfl⟩

end Drafted

namespace Stages

variable (h : Stages doc registry model pre)
include h

theorem located : model.arena.Located doc where
  size_eq := h.size_eq.trans h.toDrafted.located.size_eq
  root_parent p hp := h.root_parent p (h.parent_iff.1 hp)
  parent s h0 hs := by
    rw [h.parent_eq]
    exact h.toDrafted.located.parent s h0 (h.size_eq ▸ hs)

/-- Looking up an identifier does not depend on the later passes. -/
theorem find?_eq (id : String) : model.arena.find? id = pre.find? id := by
  simp only [Arena.find?, h.size_eq, h.id_eq]

end Stages

end Model
end Statechart
