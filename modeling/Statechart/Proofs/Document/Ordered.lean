import Statechart.Proofs.Document.RoundTrip
import Statechart.Proofs.Outcome

/-!
# Ordered documents

A document that is read from a sorted value has sorted maps, as each of them is a part of
that value.  So sorted values and ordered documents are closed under reading and writing, and
writing loses nothing that was read.
-/

namespace Statechart

theorem eq_obj_of_decodeFields {v : Value} {fields : Fields Value}
    (h : decodeFields v = .ok fields) : v = .obj fields := by
  cases v <;> cases h
  rfl

/-- The maps list their fields in increasing order, at every depth. -/
def AllSorted (maps : List (Fields Value)) : Prop :=
  ∀ fields ∈ maps, (Value.obj fields).Sorted

theorem allSorted_append {maps more : List (Fields Value)} :
    AllSorted (maps ++ more) ↔ AllSorted maps ∧ AllSorted more :=
  List.forall_mem_append

/-- What holds at first, and is kept by each member that is read from a sorted value, holds of
a record that is read from one. -/
theorem holds_of_decodeRecord {σ : Type} {member : σ → String → Value → Decoded σ}
    {names : List String} {P : σ → Prop}
    (hmember : ∀ s name v next, v.Sorted → P s → member s name v = .ok next → P next)
    {start last : σ} (hstart : P start) {v : Value} (hv : v.Sorted)
    (h : decodeRecord member names start v = .ok last) : P last := by
  cases v with
  | obj fields =>
      have hfield := hv.field
      clear hv
      rw [decodeRecord] at h
      induction fields generalizing start with
      | nil => cases h; exact hstart
      | cons field rest ih =>
          obtain ⟨hfirst, hrest⟩ := List.forall_mem_cons.1 hfield
          obtain ⟨next, hnext, h⟩ := bind_eq_ok.1 h
          exact ih (hmember _ _ _ _ hfirst hstart hnext) h hrest
  | arr items =>
      have hitem := hv.item
      clear hv
      rw [decodeRecord] at h
      induction items generalizing start names with
      | nil => cases names <;> cases h <;> exact hstart
      | cons item rest ih =>
          obtain ⟨hfirst, hrest⟩ := List.forall_mem_cons.1 hitem
          cases names with
          | nil => cases h
          | cons name names =>
              obtain ⟨next, hnext, h⟩ := bind_eq_ok.1 h
              exact ih (hmember _ _ _ _ hfirst hstart hnext) h hrest
  | _ => cases h

namespace Content

/-- The maps of values of a draft. -/
def Draft.maps (draft : Draft) : List (Fields Value) :=
  draft.attributes :: (mapsOfAll draft.actions ++ mapsOfAll draft.otherwise)

theorem Draft.maps_content {draft : Draft} {type : String} {content : Content}
    (h : draft.content type = .ok content) : content.maps ⊆ draft.maps := by
  unfold Draft.content at h
  split at h
  · cases h
    exact List.nil_subset _
  · obtain ⟨_, -, h⟩ := bind_eq_ok.1 h
    obtain ⟨_, -, h⟩ := bind_eq_ok.1 h
    cases h
    exact List.nil_subset _
  · obtain ⟨_, -, h⟩ := bind_eq_ok.1 h
    cases h
    exact List.nil_subset _
  · obtain ⟨_, -, h⟩ := bind_eq_ok.1 h
    cases h
    exact List.nil_subset _
  · obtain ⟨_, -, h⟩ := bind_eq_ok.1 h
    cases h
    exact List.subset_cons_self _ _
  · obtain ⟨_, -, h⟩ := bind_eq_ok.1 h
    obtain ⟨_, -, h⟩ := bind_eq_ok.1 h
    cases h
    exact List.cons_subset_cons _ (List.nil_subset _)
  · cases h

theorem Draft.allSorted_of_decodeMember {type name : String} {draft next : Draft} {v : Value}
    {block : Decoded (List Content)} (hv : v.Sorted)
    (hblock : ∀ content, block = .ok content → AllSorted (mapsOfAll content))
    (hdraft : AllSorted draft.maps) (h : draft.decodeMember type name v block = .ok next) :
    AllSorted next.maps := by
  obtain ⟨hattributes, hblocks⟩ := List.forall_mem_cons.1 hdraft
  obtain ⟨hactions, hotherwise⟩ := allSorted_append.1 hblocks
  unfold decodeMember at h
  split at h
  all_goals first
    | (cases h; exact hdraft)
    | obtain ⟨_, hread, h⟩ := bind_eq_ok.1 h
      cases h
  -- only three members hold maps: the two blocks of a branch, and the attributes
  all_goals first
    | exact hdraft
    | exact List.forall_mem_cons.2
        ⟨hattributes, allSorted_append.2 ⟨hblock _ hread, hotherwise⟩⟩
    | exact List.forall_mem_cons.2
        ⟨hattributes, allSorted_append.2 ⟨hactions, hblock _ hread⟩⟩
    | exact List.forall_mem_cons.2 ⟨eq_obj_of_decodeFields hread ▸ hv, hblocks⟩

theorem Draft.allSorted_maps_empty : AllSorted (Draft.maps {}) :=
  List.forall_mem_singleton.2 rfl

mutual

/-- The maps of content that is read from a sorted value are sorted. -/
theorem allSorted_of_decode (v : Value) (hv : v.Sorted) {content : Content}
    (h : decode v = .ok content) : AllSorted content.maps := by
  cases v with
  | obj fields =>
      rw [decode] at h
      split at h
      · obtain ⟨draft, hdraft, h⟩ := bind_eq_ok.1 h
        have hmaps := allSorted_of_decodeMembers fields hv.field Draft.allSorted_maps_empty hdraft
        exact fun fields hf => hmaps fields (Draft.maps_content h hf)
      · cases h
  | arr items =>
      cases items with
      | nil => rw [decode] at h <;> cases h
      | cons first items =>
          cases first with
          | str type =>
              rw [decode] at h
              obtain ⟨draft, hdraft, h⟩ := bind_eq_ok.1 h
              have hitems := (List.forall_mem_cons.1 hv.item).2
              have hmaps :=
                allSorted_of_decodePositions items hitems Draft.allSorted_maps_empty hdraft
              exact fun fields hf => hmaps fields (Draft.maps_content h hf)
          | _ => rw [decode] at h <;> cases h
  | _ => rw [decode] at h <;> cases h

theorem allSorted_of_decodeMembers (fields : List (String × Value))
    (hv : ∀ field ∈ fields, field.2.Sorted) {type : String} {draft last : Draft}
    (hdraft : AllSorted draft.maps) (h : decodeMembers type draft fields = .ok last) :
    AllSorted last.maps := by
  match fields with
  | [] =>
      rw [decodeMembers] at h
      cases h
      exact hdraft
  | (name, v) :: rest =>
      obtain ⟨hfirst, hrest⟩ := List.forall_mem_cons.1 hv
      rw [decodeMembers] at h
      obtain ⟨next, hnext, h⟩ := bind_eq_ok.1 h
      have hblock : ∀ block, decodeBlock v = .ok block → AllSorted (mapsOfAll block) :=
        fun block => allSorted_of_decodeBlock v hfirst
      exact allSorted_of_decodeMembers rest hrest
        (Draft.allSorted_of_decodeMember hfirst hblock hdraft hnext) h

theorem allSorted_of_decodePositions (items : List Value) (hv : ∀ v ∈ items, v.Sorted)
    {type : String} {names : List String} {draft last : Draft} (hdraft : AllSorted draft.maps)
    (h : decodePositions type draft names items = .ok last) : AllSorted last.maps := by
  match items, names with
  | [], _ =>
      rw [decodePositions] at h
      cases h
      exact hdraft
  | v :: rest, [] =>
      rw [decodePositions] at h
      cases h
  | v :: rest, name :: names =>
      obtain ⟨hfirst, hrest⟩ := List.forall_mem_cons.1 hv
      rw [decodePositions] at h
      obtain ⟨next, hnext, h⟩ := bind_eq_ok.1 h
      have hblock : ∀ block, decodeBlock v = .ok block → AllSorted (mapsOfAll block) :=
        fun block => allSorted_of_decodeBlock v hfirst
      exact allSorted_of_decodePositions rest hrest
        (Draft.allSorted_of_decodeMember hfirst hblock hdraft hnext) h

theorem allSorted_of_decodeBlock (v : Value) (hv : v.Sorted) {block : List Content}
    (h : decodeBlock v = .ok block) : AllSorted (mapsOfAll block) := by
  cases v with
  | arr items =>
      rw [decodeBlock] at h
      exact allSorted_of_decodeItems items hv.item h
  | _ => rw [decodeBlock] at h <;> cases h

theorem allSorted_of_decodeItems (items : List Value) (hv : ∀ v ∈ items, v.Sorted)
    {block : List Content} (h : decodeItems items = .ok block) : AllSorted (mapsOfAll block) := by
  match items with
  | [] =>
      rw [decodeItems] at h
      cases h
      exact List.forall_mem_nil _
  | v :: rest =>
      obtain ⟨hfirst, hrest⟩ := List.forall_mem_cons.1 hv
      rw [decodeItems] at h
      obtain ⟨content, hcontent, h⟩ := bind_eq_ok.1 h
      obtain ⟨contents, hcontents, h⟩ := bind_eq_ok.1 h
      cases h
      exact allSorted_append.2 ⟨allSorted_of_decode v hfirst hcontent,
        allSorted_of_decodeItems rest hrest hcontents⟩

end
end Content

namespace TransitionDef

theorem allSorted_of_decodeMember {t next : TransitionDef} {name : String} {v : Value}
    (hv : v.Sorted) (ht : AllSorted t.maps) (h : t.decodeMember name v = .ok next) :
    AllSorted next.maps := by
  unfold decodeMember at h
  split at h
  case h_6 => cases h; exact ht
  all_goals obtain ⟨_, hread, h⟩ := bind_eq_ok.1 h; cases h
  case h_5 => exact Content.allSorted_of_decodeBlock v hv hread
  all_goals exact ht

theorem allSorted_of_decode {v : Value} (hv : v.Sorted) {t : TransitionDef}
    (h : decode v = .ok t) : AllSorted t.maps := by
  have hempty : AllSorted (maps {}) := List.forall_mem_nil _
  exact holds_of_decodeRecord (fun _ _ _ _ => allSorted_of_decodeMember) hempty hv h

theorem allSorted_of_decodeList {v : Value} (hv : v.Sorted) {ts : List TransitionDef}
    (h : decodeList v = .ok ts) : AllSorted (ts.flatMap (·.maps)) := by
  cases v with
  | arr items =>
      have hitem := hv.item
      clear hv
      rw [decodeList] at h
      induction items generalizing ts with
      | nil => cases h; exact List.forall_mem_nil _
      | cons v rest ih =>
          obtain ⟨hfirst, hrest⟩ := List.forall_mem_cons.1 hitem
          obtain ⟨t, ht, h⟩ := bind_eq_ok.1 h
          obtain ⟨ts, hts, h⟩ := bind_eq_ok.1 h
          cases h
          rw [List.flatMap_cons]
          exact allSorted_append.2 ⟨allSorted_of_decode hfirst ht, ih hts hrest⟩
  | _ => cases h

end TransitionDef

theorem StateDef.allSorted_of_decodeMember {s next : StateDef} {name : String} {v : Value}
    (hv : v.Sorted) (hs : AllSorted s.maps) (h : s.decodeMember name v = .ok next) :
    AllSorted next.maps := by
  obtain ⟨hcontent, htransitions⟩ := allSorted_append.1 hs
  obtain ⟨hentry, hexit⟩ := allSorted_append.1 hcontent
  unfold decodeMember at h
  split at h
  case h_8 => cases h; exact hs
  all_goals obtain ⟨_, hread, h⟩ := bind_eq_ok.1 h; cases h
  case h_5 =>
    have hblock := Content.allSorted_of_decodeBlock v hv hread
    exact allSorted_append.2 ⟨allSorted_append.2 ⟨hblock, hexit⟩, htransitions⟩
  case h_6 =>
    have hblock := Content.allSorted_of_decodeBlock v hv hread
    exact allSorted_append.2 ⟨allSorted_append.2 ⟨hentry, hblock⟩, htransitions⟩
  case h_7 =>
    have hlist := TransitionDef.allSorted_of_decodeList hv hread
    exact allSorted_append.2 ⟨hcontent, hlist⟩
  all_goals exact hs

namespace Node

/-- The maps of values of a draft. -/
def Draft.maps (draft : Draft) : List (Fields Value) :=
  draft.definition.maps ++ mapsOfAll draft.children

/-- A member that is read changes one part of a draft. -/
theorem exists_next_of_decodeMembers {name : String} {draft last : Draft} {v : Value}
    {rest : List (String × Value)} (h : decodeMembers draft ((name, v) :: rest) = .ok last) :
    ∃ next : Draft, decodeMembers next rest = .ok last ∧
      (next.definition = draft.definition ∨
        draft.definition.decodeMember name v = .ok next.definition) ∧
      (next.children = draft.children ∨ decodeList v = .ok next.children) := by
  rw [decodeMembers.eq_def] at h
  dsimp only at h
  split at h
  all_goals
    obtain ⟨_, hread, h⟩ := bind_eq_ok.1 h
    refine ⟨_, h, ?_⟩
    first
      | exact ⟨.inl rfl, .inl rfl⟩
      | exact ⟨.inl rfl, .inr hread⟩
      | exact ⟨.inr hread, .inl rfl⟩

mutual

/-- The maps of a tree of states that is read from a sorted value are sorted. -/
theorem allSorted_of_decode (v : Value) (hv : v.Sorted) {node : Node}
    (h : decode v = .ok node) : AllSorted node.maps := by
  cases v with
  | obj fields =>
      rw [decode] at h
      split at h
      · dsimp only at h
        split at h
        · obtain ⟨_, -, h⟩ := bind_eq_ok.1 h
          cases h
          exact List.forall_mem_nil _
        · cases h
      · obtain ⟨draft, hdraft, h⟩ := bind_eq_ok.1 h
        obtain ⟨id, -, h⟩ := bind_eq_ok.1 h
        cases h
        have hempty : AllSorted (Draft.maps {}) := List.forall_mem_nil _
        exact allSorted_of_decodeMembers fields hv.field hempty hdraft
  | _ => rw [decode] at h <;> cases h

theorem allSorted_of_decodeMembers (fields : List (String × Value))
    (hv : ∀ field ∈ fields, field.2.Sorted) {draft last : Draft} (hdraft : AllSorted draft.maps)
    (h : decodeMembers draft fields = .ok last) : AllSorted last.maps := by
  match fields with
  | [] =>
      rw [decodeMembers] at h
      cases h
      exact hdraft
  | (name, v) :: rest =>
      obtain ⟨hfirst, hrest⟩ := List.forall_mem_cons.1 hv
      obtain ⟨next, hnext, hdefinition, hchildren⟩ := exists_next_of_decodeMembers h
      obtain ⟨hold, hother⟩ := allSorted_append.1 hdraft
      refine allSorted_of_decodeMembers rest hrest (allSorted_append.2 ⟨?_, ?_⟩) hnext
      · rcases hdefinition with heq | hread
        · exact heq ▸ hold
        · exact StateDef.allSorted_of_decodeMember hfirst hold hread
      · rcases hchildren with heq | hread
        · exact heq ▸ hother
        · exact allSorted_of_decodeList v hfirst hread

theorem allSorted_of_decodeList (v : Value) (hv : v.Sorted) {nodes : List Node}
    (h : decodeList v = .ok nodes) : AllSorted (mapsOfAll nodes) := by
  cases v with
  | arr items =>
      rw [decodeList] at h
      exact allSorted_of_decodeItems items hv.item h
  | _ => rw [decodeList] at h <;> cases h

theorem allSorted_of_decodeItems (items : List Value) (hv : ∀ v ∈ items, v.Sorted)
    {nodes : List Node} (h : decodeItems items = .ok nodes) : AllSorted (mapsOfAll nodes) := by
  match items with
  | [] =>
      rw [decodeItems] at h
      cases h
      exact List.forall_mem_nil _
  | v :: rest =>
      obtain ⟨hfirst, hrest⟩ := List.forall_mem_cons.1 hv
      rw [decodeItems] at h
      obtain ⟨node, hnode, h⟩ := bind_eq_ok.1 h
      obtain ⟨nodes, hnodes, h⟩ := bind_eq_ok.1 h
      cases h
      exact allSorted_append.2 ⟨allSorted_of_decode v hfirst hnode,
        allSorted_of_decodeItems rest hrest hnodes⟩

end
end Node

namespace Document

theorem allSorted_of_decodeMember {doc next : Document} {name : String} {v : Value}
    (hv : v.Sorted) (hdoc : AllSorted doc.maps) (h : doc.decodeMember name v = .ok next) :
    AllSorted next.maps := by
  obtain ⟨hdatamodel, hstates⟩ := List.forall_mem_cons.1 hdoc
  unfold decodeMember at h
  split at h
  case h_5 => cases h; exact hdoc
  all_goals obtain ⟨_, hread, h⟩ := bind_eq_ok.1 h; cases h
  case h_3 => exact List.forall_mem_cons.2 ⟨eq_obj_of_decodeFields hread ▸ hv, hstates⟩
  case h_4 => exact List.forall_mem_cons.2 ⟨hdatamodel, Node.allSorted_of_decodeList v hv hread⟩
  all_goals exact hdoc

/-- The maps of a document that is read from a sorted value are sorted. -/
theorem allSorted_of_decode {v : Value} (hv : v.Sorted) {doc : Document}
    (h : decode v = .ok doc) : AllSorted doc.maps := by
  have hempty : AllSorted (maps {}) := List.forall_mem_singleton.2 rfl
  exact holds_of_decodeRecord (fun _ _ _ _ => allSorted_of_decodeMember) hempty hv h

/-- The maps of the document are in increasing order, those inside their values included. -/
def Ordered (doc : Document) : Prop :=
  AllSorted doc.maps

theorem decode_sorted_encode {doc : Document} (h : doc.Ordered) :
    decode doc.encode.sorted = .ok doc :=
  @decode_list Listing.increasing doc h

/-- Documents are read back from what is written of them, so different documents are written
differently and reading what was written of a value gives nothing new.  The same holds if
objects keep their members in increasing order, for documents whose maps do so as well. -/
theorem document_round_trip :
    (∀ doc : Document, decode doc.encode = .ok doc) ∧
      Function.Injective encode ∧
      (∀ v w, (decode v).map encode = .ok w → (decode w).map encode = .ok w) ∧
      (∀ doc : Document, doc.Ordered → decode doc.encode.sorted = .ok doc) ∧
      (∀ doc other : Document, doc.Ordered → other.Ordered →
        doc.encode.sorted = other.encode.sorted → doc = other) ∧
      ∀ v w, v.Sorted → (decode v).map (fun doc => doc.encode.sorted) = .ok w →
        (decode w).map (fun doc => doc.encode.sorted) = .ok w := by
  refine ⟨decode_encode, ?_, ?_, fun doc => decode_sorted_encode, ?_, ?_⟩
  · intro doc other heq
    have hdoc := decode_encode doc
    rw [heq, decode_encode] at hdoc
    exact (Except.ok.inj hdoc).symm
  · intro v w h
    cases hv : decode v with
    | error fault => rw [hv] at h; cases h
    | ok doc =>
        rw [hv] at h
        cases h
        rw [decode_encode]
        rfl
  · intro doc other hdoc hother heq
    have hread := decode_sorted_encode hdoc
    rw [heq, decode_sorted_encode hother] at hread
    exact (Except.ok.inj hread).symm
  · intro v w hsorted h
    cases hv : decode v with
    | error fault => rw [hv] at h; cases h
    | ok doc =>
        rw [hv] at h
        cases h
        have hdoc : doc.Ordered := allSorted_of_decode hsorted hv
        rw [decode_sorted_encode hdoc]
        rfl

/-- A document in which everything occurs that is left out by default. -/
def everything : Document where
  name := some "call"
  initial := some "busy"
  datamodel := [("attempts", .int 0), ("log", .obj [("first", .null), ("last", .str "")])]
  states :=
    [.state
      { id := "busy", initial := some "talking", isParallel := true, isFinal := true,
        src := some "more.json",
        onEntry := [.log none none, .branch "a" [] [.custom "x" "y" [("k", .arr [])]]],
        onExit := [.send "e" (some "1"), .raise "f"],
        transitions := [{ event := some "g", cond := some "true", target := some "busy",
                          isInternal := true, actions := [.assign "a" "2"] }, {}] }
      [.state { id := "talking" } [.exit { expr := some "a", namelist := some "a log" }],
        .exit {}]]

theorem document_round_trip_everything : everything.Ordered ∧
    decode everything.encode = .ok everything ∧
    decode everything.encode.sorted = .ok everything := by
  have hordered : everything.Ordered :=
    List.forall_mem_cons.2 ⟨by rfl, List.forall_mem_singleton.2 rfl⟩
  exact ⟨hordered, document_round_trip.1 everything, document_round_trip.2.2.2.1 _ hordered⟩

end Document

end Statechart
