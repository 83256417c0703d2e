import Statechart.Proofs.Document.Listing

/-!
# Documents are read back from their encoding

A listed encoding is read back to what was encoded, by induction along content and along the
trees of states.  The listing may reorder the members that the encoding writes, but not the
maps of values inside the document: a document carries these as they are, so a listing has to
keep them.
-/

namespace Statechart

/-! ## Content -/

namespace Content

mutual

/-- The maps of values in content, which are written as they are. -/
def maps : Content → List (Fields Value)
  | branch _ actions otherwise => mapsOfAll actions ++ mapsOfAll otherwise
  | custom _ _ attributes => [attributes]
  | _ => []

/-- The maps of values in a block of content. -/
def mapsOfAll : List Content → List (Fields Value)
  | [] => []
  | content :: rest => content.maps ++ mapsOfAll rest

end

/-- The part of a draft whose members were seen. -/
def Draft.upTo (goal : Draft) (seen : List String) : Draft where
  label := if "label" ∈ seen then goal.label else none
  expr := if "expr" ∈ seen then goal.expr else none
  location := if "location" ∈ seen then goal.location else none
  event := if "event" ∈ seen then goal.event else none
  cond := if "cond" ∈ seen then goal.cond else none
  space := if "namespace" ∈ seen then goal.space else none
  name := if "name" ∈ seen then goal.name else none
  attributes := if "attributes" ∈ seen then goal.attributes else []
  actions := if "actions" ∈ seen then goal.actions else []
  otherwise := if "otherwise" ∈ seen then goal.otherwise else []

variable {order : Listing}

/-- Content of a type is read back if each member is and nothing is missing. -/
theorem decode_list_members {type : String} {g : Draft} {content : Content}
    {members : List (String × Value)} (hnodup : (Fields.names members).Nodup)
    (htype : ("type", .str type) ∈ members)
    (hstep : ∀ member ∈ members, ∀ seen,
      (g.upTo seen).decodeMember type member.1 (order.list member.2)
        (decodeBlock (order.list member.2)) = .ok (g.upTo (member.1 :: seen)))
    (hcontent : ∀ seen, (∀ name ∈ Fields.names members, name ∈ seen) →
      (g.upTo seen).content type = .ok content) :
    decode (order.list (.obj members)) = .ok content := by
  have hread : ∀ member ∈ members, ∀ seen rest,
      decodeMembers type (g.upTo seen) ((member.1, order.list member.2) :: rest) =
        decodeMembers type (g.upTo (member.1 :: seen)) rest := by
    intro member hmember seen rest
    rw [decodeMembers, hstep member hmember seen]
    rfl
  obtain ⟨others, seen, hlist, -, hget, hread, hseen⟩ :=
    order.read_list (decodeMembers type) g.upTo hnodup (fun draft => by rw [decodeMembers]) hread
  have hempty : g.upTo [] = {} := by simp [Draft.upTo]
  rw [hlist, decode, hget _ htype, order.text]
  dsimp only
  rw [← hempty, hread]
  exact hcontent _ hseen

theorem eq_nil_of_encodeAll {block : List Content} (h : encodeAll block = []) : block = [] := by
  cases block with
  | nil => rfl
  | cons _ _ => cases h

theorem decode_list_log (label expr : Option String) :
    decode (order.list (log label expr).encode) = .ok (log label expr) := by
  have hnames : (Fields.names (("type", .str "log") :: textMember "label" label ++
      textMember "expr" expr)).Sublist ["type", "label", "expr"] := by
    rw [Fields.names_append, Fields.names_cons]
    exact ((names_textMember _).cons_cons _).append (names_textMember _)
  refine decode_list_members (g := { label, expr }) (hnames.nodup (by decide))
    List.mem_cons_self ?_ ?_
  · intro member hmember seen
    simp only [List.mem_append, List.mem_cons, mem_textMember] at hmember
    rcases hmember with (rfl | ⟨s, rfl, rfl⟩) | ⟨s, rfl, rfl⟩ <;>
      simp [Draft.decodeMember, order.text, decodeOptionalText, Draft.upTo, ok_bind, pure_def]
  · intro seen hseen
    simp only [Fields.names_append, Fields.names_cons, List.forall_mem_append,
      List.forall_mem_cons] at hseen
    obtain ⟨⟨-, hlabel⟩, hexpr⟩ := hseen
    simp only [Draft.upTo, Draft.content, text_of_seen hlabel, text_of_seen hexpr]

theorem decode_list_assign (location expr : String) :
    decode (order.list (assign location expr).encode) = .ok (assign location expr) := by
  have hnodup : ["type", "location", "expr"].Nodup := by decide
  refine decode_list_members (g := { location, expr }) hnodup List.mem_cons_self ?_ ?_
  · intro member hmember seen
    simp only [List.mem_cons, List.not_mem_nil, or_false] at hmember
    rcases hmember with rfl | rfl | rfl <;>
      simp [Draft.decodeMember, order.text, decodeText, Draft.upTo, ok_bind, pure_def]
  · intro seen hseen
    simp only [Fields.names_cons, List.forall_mem_cons] at hseen
    obtain ⟨-, hlocation, hexpr, -⟩ := hseen
    simp only [Draft.upTo, if_pos hlocation, if_pos hexpr]
    rfl

theorem decode_list_raise (event : String) :
    decode (order.list (raise event).encode) = .ok (raise event) := by
  have hnodup : ["type", "event"].Nodup := by decide
  refine decode_list_members (g := { event }) hnodup List.mem_cons_self ?_ ?_
  · intro member hmember seen
    simp only [List.mem_cons, List.not_mem_nil, or_false] at hmember
    rcases hmember with rfl | rfl <;>
      simp [Draft.decodeMember, order.text, decodeText, Draft.upTo, ok_bind, pure_def]
  · intro seen hseen
    simp only [Fields.names_cons, List.forall_mem_cons] at hseen
    obtain ⟨-, hevent, -⟩ := hseen
    simp only [Draft.upTo, if_pos hevent]
    rfl

theorem decode_list_send (event : String) (expr : Option String) :
    decode (order.list (send event expr).encode) = .ok (send event expr) := by
  have hnames : (Fields.names (("type", .str "send") :: ("event", .str event) ::
      textMember "expr" expr)).Sublist ["type", "event", "expr"] :=
    ((names_textMember _).cons_cons _).cons_cons _
  refine decode_list_members (g := { event, expr }) (hnames.nodup (by decide))
    List.mem_cons_self ?_ ?_
  · intro member hmember seen
    simp only [List.mem_cons, mem_textMember] at hmember
    rcases hmember with rfl | rfl | ⟨s, rfl, rfl⟩ <;>
      simp [Draft.decodeMember, order.text, decodeText, decodeOptionalText, Draft.upTo, ok_bind,
        pure_def]
  · intro seen hseen
    simp only [Fields.names_cons, List.forall_mem_cons] at hseen
    obtain ⟨-, hevent, hexpr⟩ := hseen
    simp only [Draft.upTo, if_pos hevent, text_of_seen hexpr]
    rfl

theorem decode_list_branch (cond : String) {actions otherwise : List Content}
    (hactions : decodeItems ((encodeAll actions).map order.list) = .ok actions)
    (hotherwise : decodeItems ((encodeAll otherwise).map order.list) = .ok otherwise) :
    decode (order.list (branch cond actions otherwise).encode) =
      .ok (branch cond actions otherwise) := by
  have hnames : (Fields.names (("type", .str "if") :: ("cond", .str cond) ::
      ("actions", .arr (encodeAll actions)) ::
        listMember "otherwise" (encodeAll otherwise))).Sublist
          ["type", "cond", "actions", "otherwise"] :=
    (((names_listMember _).cons_cons _).cons_cons _).cons_cons _
  refine decode_list_members (g := { cond, actions, otherwise }) (hnames.nodup (by decide))
    List.mem_cons_self ?_ ?_
  · intro member hmember seen
    simp only [List.mem_cons, mem_listMember] at hmember
    rcases hmember with rfl | rfl | rfl | ⟨-, rfl⟩ <;>
      simp [Draft.decodeMember, order.text, order.items, decodeText, decodeBlock, hactions,
        hotherwise, Draft.upTo, ok_bind, pure_def]
  · intro seen hseen
    simp only [Fields.names_cons, List.forall_mem_cons] at hseen
    obtain ⟨-, hcond, hlist, hrest⟩ := hseen
    simp only [Draft.upTo, if_pos hcond, if_pos hlist, list_of_seen eq_nil_of_encodeAll hrest]
    rfl

theorem decode_list_custom (space name : String) {attributes : Fields Value}
    (hattributes : order.list (.obj attributes) = .obj attributes) :
    decode (order.list (custom space name attributes).encode) =
      .ok (custom space name attributes) := by
  have hnames : (Fields.names (("type", .str "custom") :: ("namespace", .str space) ::
      ("name", .str name) :: fieldsMember "attributes" attributes)).Sublist
        ["type", "namespace", "name", "attributes"] :=
    (((names_fieldsMember _).cons_cons _).cons_cons _).cons_cons _
  refine decode_list_members (g := { space, name, attributes }) (hnames.nodup (by decide))
    List.mem_cons_self ?_ ?_
  · intro member hmember seen
    simp only [List.mem_cons, mem_fieldsMember] at hmember
    rcases hmember with rfl | rfl | rfl | ⟨-, rfl⟩ <;>
      simp [Draft.decodeMember, order.text, hattributes, decodeText, decodeFields, Draft.upTo,
        ok_bind, pure_def]
  · intro seen hseen
    simp only [Fields.names_cons, List.forall_mem_cons] at hseen
    obtain ⟨-, hspace, hname, hrest⟩ := hseen
    simp only [Draft.upTo, if_pos hspace, if_pos hname, fields_of_seen hrest]
    rfl

mutual

/-- Content is read back from its listed encoding. -/
theorem decode_list (content : Content) (h : order.Keeps content.maps) :
    decode (order.list content.encode) = .ok content := by
  cases content with
  | log label expr => exact decode_list_log label expr
  | assign location expr => exact decode_list_assign location expr
  | raise event => exact decode_list_raise event
  | send event expr => exact decode_list_send event expr
  | branch cond actions otherwise =>
      have hactions := decodeItems_list actions fun fields hf =>
        h fields (List.mem_append_left _ hf)
      have hotherwise := decodeItems_list otherwise fun fields hf =>
        h fields (List.mem_append_right _ hf)
      exact decode_list_branch cond hactions hotherwise
  | custom space name attributes =>
      exact decode_list_custom space name (h attributes List.mem_cons_self)

/-- A block of content is read back. -/
theorem decodeItems_list (block : List Content) (h : order.Keeps (mapsOfAll block)) :
    decodeItems ((encodeAll block).map order.list) = .ok block := by
  cases block with
  | nil => simp [encodeAll, decodeItems]
  | cons content rest =>
      have hfirst := decode_list content fun fields hf => h fields (List.mem_append_left _ hf)
      have hrest := decodeItems_list rest fun fields hf => h fields (List.mem_append_right _ hf)
      simp [encodeAll, decodeItems, hfirst, hrest, ok_bind, pure_def]

end
end Content

/-! ## Transitions -/

namespace TransitionDef

/-- The maps of values in a transition. -/
def maps (t : TransitionDef) : List (Fields Value) :=
  Content.mapsOfAll t.actions

/-- The members that are written of a transition. -/
def members (t : TransitionDef) : List (String × Value) :=
  textMember "event" t.event ++ textMember "cond" t.cond ++ textMember "target" t.target ++
    textMember "type" (if t.isInternal then some "internal" else none) ++
    listMember "actions" (Content.encodeAll t.actions)

/-- The part of a transition whose members were seen. -/
def upTo (goal : TransitionDef) (seen : List String) : TransitionDef where
  event := if "event" ∈ seen then goal.event else none
  cond := if "cond" ∈ seen then goal.cond else none
  target := if "target" ∈ seen then goal.target else none
  isInternal := if "type" ∈ seen then goal.isInternal else false
  actions := if "actions" ∈ seen then goal.actions else []

variable {order : Listing}

theorem nodup_members (t : TransitionDef) : (Fields.names t.members).Nodup := by
  have hnames : (Fields.names t.members).Sublist
      ["event", "cond", "target", "type", "actions"] := by
    simp only [members, Fields.names_append]
    exact ((((names_textMember _).append (names_textMember _)).append (names_textMember _)).append
      (names_textMember _)).append (names_listMember _)
  exact hnames.nodup (by decide)

theorem internal_of_seen {b : Bool} {seen : List String}
    (h : ∀ n ∈ Fields.names (textMember "type" (if b then some "internal" else none)), n ∈ seen) :
    (if "type" ∈ seen then b else false) = b := by
  cases b with
  | false => exact ite_self false
  | true => exact if_pos (h "type" List.mem_cons_self)

theorem upTo_of_seen {t : TransitionDef} {seen : List String}
    (h : ∀ name ∈ Fields.names t.members, name ∈ seen) : t.upTo seen = t := by
  simp only [members, Fields.names_append, List.forall_mem_append] at h
  obtain ⟨⟨⟨⟨hevent, hcond⟩, htarget⟩, htype⟩, hactions⟩ := h
  simp only [upTo, text_of_seen hevent, text_of_seen hcond, text_of_seen htarget,
    internal_of_seen htype, list_of_seen Content.eq_nil_of_encodeAll hactions]

/-- Each member of a transition is read as its own part of the transition. -/
theorem decodeMember_upTo {t : TransitionDef} (h : order.Keeps t.maps) {field : String × Value}
    (hfield : field ∈ t.members) (seen : List String) :
    (t.upTo seen).decodeMember field.1 (order.list field.2) = .ok (t.upTo (field.1 :: seen)) := by
  have hactions := Content.decodeItems_list t.actions h
  simp only [members, List.mem_append, mem_textMember, mem_listMember] at hfield
  rcases hfield with (((⟨s, hs, rfl⟩ | ⟨s, hs, rfl⟩) | ⟨s, hs, rfl⟩) | ⟨s, hs, rfl⟩) | ⟨-, rfl⟩
  case inl.inr =>
    obtain ⟨hinternal, rfl⟩ : t.isInternal = true ∧ "internal" = s := by simpa using hs
    simp [decodeMember, order.text, decodeTransitionType, upTo, hinternal, ok_bind, pure_def]
  case inr =>
    simp [decodeMember, order.items, Content.decodeBlock, hactions, upTo, ok_bind, pure_def]
  all_goals
    simp [decodeMember, order.text, decodeOptionalText, upTo, hs, ok_bind, pure_def]

/-- A transition is read back from its listed encoding. -/
theorem decode_list (t : TransitionDef) (h : order.Keeps t.maps) :
    decode (order.list t.encode) = .ok t := by
  obtain ⟨seen, hseen, hread⟩ :=
    order.exists_decodeRecord memberNames t.nodup_members fun _ => decodeMember_upTo h
  have hempty : t.upTo [] = {} := by simp [upTo]
  have hencode : t.encode = .obj t.members := rfl
  rw [hencode, decode, ← hempty, hread, upTo_of_seen hseen]

theorem decodeAll_list (ts : List TransitionDef) (h : ∀ t ∈ ts, order.Keeps t.maps) :
    decodeAll ((ts.map encode).map order.list) = .ok ts := by
  induction ts with
  | nil => rfl
  | cons t rest ih =>
      obtain ⟨hfirst, hrest⟩ := List.forall_mem_cons.1 h
      simp only [List.map_cons, decodeAll, decode_list t hfirst, ih hrest]
      rfl

end TransitionDef

/-! ## Exits and states -/

namespace ExitDef

/-- The members that are written of an exit. -/
def members (e : ExitDef) : List (String × Value) :=
  textMember "expr" e.expr ++ textMember "namelist" e.namelist

/-- The part of an exit whose members were seen. -/
def upTo (goal : ExitDef) (seen : List String) : ExitDef where
  expr := if "expr" ∈ seen then goal.expr else none
  namelist := if "namelist" ∈ seen then goal.namelist else none

variable {order : Listing}

theorem nodup_members (e : ExitDef) : (Fields.names e.members).Nodup := by
  have hnames : (Fields.names e.members).Sublist ["expr", "namelist"] := by
    rw [members, Fields.names_append]
    exact (names_textMember _).append (names_textMember _)
  exact hnames.nodup (by decide)

theorem upTo_of_seen {e : ExitDef} {seen : List String}
    (h : ∀ name ∈ Fields.names e.members, name ∈ seen) : e.upTo seen = e := by
  rw [members, Fields.names_append, List.forall_mem_append] at h
  simp only [upTo, text_of_seen h.1, text_of_seen h.2]

/-- Each member of an exit is read as its own part of the exit. -/
theorem decodeMember_upTo {e : ExitDef} {field : String × Value} (hfield : field ∈ e.members)
    (seen : List String) :
    (e.upTo seen).decodeMember field.1 (order.list field.2) = .ok (e.upTo (field.1 :: seen)) := by
  simp only [members, List.mem_append, mem_textMember] at hfield
  rcases hfield with ⟨s, hs, rfl⟩ | ⟨s, hs, rfl⟩ <;>
    simp [decodeMember, order.text, decodeOptionalText, upTo, hs, ok_bind, pure_def]

/-- An exit is read back from its listed encoding. -/
theorem decode_list (e : ExitDef) : decode (order.list e.encode) = .ok e := by
  obtain ⟨seen, hseen, hread⟩ :=
    order.exists_decodeRecord memberNames e.nodup_members fun _ => decodeMember_upTo
  have hempty : e.upTo [] = {} := by simp [upTo]
  have hencode : e.encode = .obj e.members := rfl
  rw [hencode, decode, ← hempty, hread, upTo_of_seen hseen]

end ExitDef

namespace StateDef

/-- The maps of values in a state. -/
def maps (s : StateDef) : List (Fields Value) :=
  Content.mapsOfAll s.onEntry ++ Content.mapsOfAll s.onExit ++ s.transitions.flatMap (·.maps)

/-- The part of a state whose members were seen, without its identifier. -/
def upTo (goal : StateDef) (seen : List String) : StateDef where
  id := ""
  initial := if "initial" ∈ seen then goal.initial else none
  isParallel := if "parallel" ∈ seen then goal.isParallel else false
  isFinal := if "final" ∈ seen then goal.isFinal else false
  src := if "src" ∈ seen then goal.src else none
  onEntry := if "on_entry" ∈ seen then goal.onEntry else []
  onExit := if "on_exit" ∈ seen then goal.onExit else []
  transitions := if "transitions" ∈ seen then goal.transitions else []

variable {order : Listing}

theorem names_members (s : StateDef) : (Fields.names s.members).Sublist
    ["id", "initial", "parallel", "final", "src", "on_entry", "on_exit", "transitions"] := by
  simp only [members, Fields.names_append, Fields.names_cons]
  exact ((((((((names_textMember _).cons_cons _).append (names_flagMember _)).append
    (names_flagMember _)).append (names_textMember _)).append (names_listMember _)).append
    (names_listMember _)).append (names_listMember _))

theorem upTo_of_seen {s : StateDef} {seen : List String}
    (h : ∀ name ∈ Fields.names s.members, name ∈ seen) :
    { s.upTo seen with id := s.id } = s := by
  simp only [members, Fields.names_append, Fields.names_cons, List.forall_mem_append,
    List.forall_mem_cons] at h
  obtain ⟨⟨⟨⟨⟨⟨⟨-, hinitial⟩, hparallel⟩, hfinal⟩, hsrc⟩, hentry⟩, hexit⟩, htransitions⟩ := h
  simp only [upTo, text_of_seen hinitial, flag_of_seen hparallel, flag_of_seen hfinal,
    text_of_seen hsrc, list_of_seen Content.eq_nil_of_encodeAll hentry,
    list_of_seen Content.eq_nil_of_encodeAll hexit, list_of_seen List.map_eq_nil_iff.1 htransitions]

theorem eq_id_of_mem_members {s : StateDef} {field : String × Value} (hfield : field ∈ s.members)
    (hid : field.1 = "id") : field = ("id", .str s.id) := by
  have hnodup : (Fields.names s.members).Nodup := s.names_members.nodup (by decide)
  exact List.inj_on_of_nodup_map hnodup hfield List.mem_cons_self hid

/-- Each member of a state is read as its own part of the state. -/
theorem decodeMember_upTo {s : StateDef} (h : order.Keeps s.maps) {field : String × Value}
    (hfield : field ∈ s.members) (seen : List String) :
    (s.upTo seen).decodeMember field.1 (order.list field.2) = .ok (s.upTo (field.1 :: seen)) := by
  have hentry := Content.decodeItems_list s.onEntry fun fields hf =>
    h fields (List.mem_append_left _ (List.mem_append_left _ hf))
  have hexit := Content.decodeItems_list s.onExit fun fields hf =>
    h fields (List.mem_append_left _ (List.mem_append_right _ hf))
  have htransitions := TransitionDef.decodeAll_list s.transitions fun t ht fields hf =>
    h fields (List.mem_append_right _ (List.mem_flatMap.2 ⟨t, ht, hf⟩))
  simp only [members, List.cons_append, List.mem_cons, List.mem_append, mem_textMember,
    mem_flagMember, mem_listMember] at hfield
  rcases hfield with rfl | ((((((⟨text, hs, rfl⟩ | ⟨hs, rfl⟩) | ⟨hs, rfl⟩) | ⟨text, hs, rfl⟩) |
    ⟨-, rfl⟩) | ⟨-, rfl⟩) | ⟨-, rfl⟩)
  all_goals
    simp [decodeMember, order.text, order.flag, order.items, decodeOptionalText, decodeFlag,
      Content.decodeBlock, TransitionDef.decodeList, upTo, -List.map_map, *, ok_bind, pure_def]

end StateDef

namespace Node

mutual

/-- The maps of values in a tree of states. -/
def maps : Node → List (Fields Value)
  | exit _ => []
  | state definition children => definition.maps ++ mapsOfAll children

/-- The maps of values in some trees of states. -/
def mapsOfAll : List Node → List (Fields Value)
  | [] => []
  | node :: rest => node.maps ++ mapsOfAll rest

end

/-- The part of a state whose members were seen. -/
def draftUpTo (s : StateDef) (children : List Node) (seen : List String) : Draft where
  id := if "id" ∈ seen then some s.id else none
  definition := s.upTo seen
  children := if "states" ∈ seen then children else []

variable {order : Listing}

theorem eq_nil_of_encodeAll {nodes : List Node} (h : encodeAll nodes = []) : nodes = [] := by
  cases nodes with
  | nil => rfl
  | cons _ _ => cases h

/-- The members that a state shares with no other part of a tree are read by themselves. -/
theorem decodeMembers_cons {draft : Draft} {name : String} {v : Value}
    {rest : List (String × Value)} (hid : name ≠ "id") (hstates : name ≠ "states") :
    decodeMembers draft ((name, v) :: rest) = (draft.definition.decodeMember name v).bind
      fun definition => decodeMembers { draft with definition } rest := by
  rw [decodeMembers]
  · rfl
  · exact hid
  · exact hstates

theorem exit_not_mem_names (s : StateDef) (written : List Value) :
    "exit" ∉ Fields.names (s.members ++ listMember "states" written) := by
  intro hmem
  rw [Fields.names_append] at hmem
  have hknown := (s.names_members.append (names_listMember _)).subset hmem
  revert hknown
  decide

theorem nodup_members (s : StateDef) (written : List Value) :
    (Fields.names (s.members ++ listMember "states" written)).Nodup := by
  rw [Fields.names_append]
  exact (s.names_members.append (names_listMember _)).nodup (by decide)

/-- A listed exit is read back. -/
theorem decode_list_exit (e : ExitDef) : decode (order.list (exit e).encode) = .ok (.exit e) := by
  have hnodup : (Fields.names [("exit", e.encode)]).Nodup := List.nodup_singleton _
  obtain ⟨others, hlist, hnames, hget, -⟩ := order.exists_members hnodup
  have hexit := hget _ List.mem_cons_self
  have hothers : Fields.names (Fields.erase "exit" others) = [] := by
    refine List.eq_nil_iff_forall_not_mem.2 fun name hname => ?_
    obtain ⟨field, hfield, rfl⟩ := List.mem_map.1 hname
    obtain ⟨hfield, hne⟩ := List.mem_filter.1 hfield
    have hname : field.1 = "exit" :=
      List.mem_singleton.1 ((hnames field.1).1 (List.mem_map_of_mem hfield))
    simp [hname] at hne
  rw [encode, hlist, decode, hexit]
  simp [hothers, ExitDef.decode_list, ok_bind, pure_def]

/-- Each member of a state and of its children is read as its own part. -/
theorem decodeMembers_draftUpTo {s : StateDef} {children : List Node} (h : order.Keeps s.maps)
    (hchildren : decodeItems ((encodeAll children).map order.list) = .ok children)
    {field : String × Value}
    (hfield : field ∈ s.members ++ listMember "states" (encodeAll children)) (seen : List String)
    (rest : List (String × Value)) :
    decodeMembers (draftUpTo s children seen) ((field.1, order.list field.2) :: rest) =
      decodeMembers (draftUpTo s children (field.1 :: seen)) rest := by
  rcases List.mem_append.1 hfield with hfield | hfield
  · by_cases hid : field.1 = "id"
    · obtain rfl := StateDef.eq_id_of_mem_members hfield hid
      simp [decodeMembers, order.text, decodeText, draftUpTo, StateDef.upTo, ok_bind]
    · have hstates : field.1 ≠ "states" := by
        intro hname
        have hknown := s.names_members.subset (List.mem_map_of_mem hfield)
        rw [hname] at hknown
        revert hknown
        decide
      have hread := StateDef.decodeMember_upTo h hfield seen
      simp only [draftUpTo, decodeMembers_cons hid hstates, hread, Except.bind, List.mem_cons,
        Ne.symm hid, Ne.symm hstates, false_or]
  · obtain ⟨-, rfl⟩ := mem_listMember.1 hfield
    simp [decodeMembers, order.items, decodeList, hchildren, draftUpTo, StateDef.upTo, ok_bind]

theorem decode_list_state {s : StateDef} {children : List Node} (h : order.Keeps s.maps)
    (hchildren : decodeItems ((encodeAll children).map order.list) = .ok children) :
    decode (order.list (state s children).encode) = .ok (.state s children) := by
  obtain ⟨others, seen, hlist, hnames, -, hread, hseen⟩ :=
    order.read_list decodeMembers (draftUpTo s children) (nodup_members s _)
      (fun draft => by rw [decodeMembers])
      fun field hfield => decodeMembers_draftUpTo h hchildren hfield
  have hempty : draftUpTo s children [] = {} := by simp [draftUpTo, StateDef.upTo]
  -- A state has no member that would make it an exit.
  have hexit : Fields.get? "exit" others = none :=
    Fields.get?_eq_none_of_not_mem fun hmem => exit_not_mem_names s _ ((hnames _).1 hmem)
  rw [Fields.names_append, List.forall_mem_append] at hseen
  obtain ⟨hmembers, hlisted⟩ := hseen
  have hid : "id" ∈ seen := hmembers "id" List.mem_cons_self
  rw [encode, hlist, decode, hexit]
  dsimp only
  rw [← hempty, hread]
  simp only [Draft.node, draftUpTo, if_pos hid, list_of_seen eq_nil_of_encodeAll hlisted]
  exact congrArg (fun definition => Except.ok (state definition children))
    (StateDef.upTo_of_seen hmembers)

mutual

/-- A tree of states is read back from its listed encoding. -/
theorem decode_list (node : Node) (h : order.Keeps node.maps) :
    decode (order.list node.encode) = .ok node := by
  cases node with
  | exit e => exact decode_list_exit e
  | state s children =>
      have hchildren := decodeItems_list children fun fields hf =>
        h fields (List.mem_append_right _ hf)
      exact decode_list_state (fun fields hf => h fields (List.mem_append_left _ hf)) hchildren

/-- Trees of states are read back. -/
theorem decodeItems_list (nodes : List Node) (h : order.Keeps (mapsOfAll nodes)) :
    decodeItems ((encodeAll nodes).map order.list) = .ok nodes := by
  cases nodes with
  | nil => simp [encodeAll, decodeItems]
  | cons node rest =>
      have hfirst := decode_list node fun fields hf => h fields (List.mem_append_left _ hf)
      have hrest := decodeItems_list rest fun fields hf => h fields (List.mem_append_right _ hf)
      simp [encodeAll, decodeItems, hfirst, hrest, ok_bind, pure_def]

end
end Node

/-! ## Documents -/

namespace Document

/-- The maps of values in a document. -/
def maps (doc : Document) : List (Fields Value) :=
  doc.datamodel :: Node.mapsOfAll doc.states

/-- The members that are written of a document. -/
def members (doc : Document) : List (String × Value) :=
  textMember "name" doc.name ++ textMember "initial" doc.initial ++
    fieldsMember "datamodel" doc.datamodel ++ [("states", .arr (Node.encodeAll doc.states))]

/-- The part of a document whose members were seen. -/
def upTo (goal : Document) (seen : List String) : Document where
  name := if "name" ∈ seen then goal.name else none
  initial := if "initial" ∈ seen then goal.initial else none
  datamodel := if "datamodel" ∈ seen then goal.datamodel else []
  states := if "states" ∈ seen then goal.states else []

variable {order : Listing}

theorem nodup_members (doc : Document) : (Fields.names doc.members).Nodup := by
  have hnames : (Fields.names doc.members).Sublist ["name", "initial", "datamodel", "states"] := by
    simp only [members, Fields.names_append]
    exact (((names_textMember _).append (names_textMember _)).append
      (names_fieldsMember _)).append (List.Sublist.refl ["states"])
  exact hnames.nodup (by decide)

theorem upTo_of_seen {doc : Document} {seen : List String}
    (h : ∀ name ∈ Fields.names doc.members, name ∈ seen) : doc.upTo seen = doc := by
  simp only [members, Fields.names_append, List.forall_mem_append] at h
  obtain ⟨⟨⟨hname, hinitial⟩, hdatamodel⟩, hstates⟩ := h
  have hstates : "states" ∈ seen := hstates _ List.mem_cons_self
  simp only [upTo, text_of_seen hname, text_of_seen hinitial, fields_of_seen hdatamodel,
    if_pos hstates]

/-- Each member of a document is read as its own part of the document. -/
theorem decodeMember_upTo {doc : Document} (h : order.Keeps doc.maps) {field : String × Value}
    (hfield : field ∈ doc.members) (seen : List String) :
    (doc.upTo seen).decodeMember field.1 (order.list field.2) =
      .ok (doc.upTo (field.1 :: seen)) := by
  have hdatamodel := h _ List.mem_cons_self
  have hstates := Node.decodeItems_list doc.states fun fields hf =>
    h fields (List.mem_cons_of_mem _ hf)
  simp only [members, List.mem_append, mem_textMember, mem_fieldsMember, List.mem_singleton]
    at hfield
  rcases hfield with ((⟨text, hs, rfl⟩ | ⟨text, hs, rfl⟩) | ⟨-, rfl⟩) | rfl <;>
    simp [decodeMember, order.text, order.items, decodeOptionalText, decodeFields,
      Node.decodeList, upTo, *, ok_bind, pure_def]

/-- A document is read back from its listed encoding if the listing keeps its maps. -/
theorem decode_list (doc : Document) (h : order.Keeps doc.maps) :
    decode (order.list doc.encode) = .ok doc := by
  obtain ⟨seen, hseen, hread⟩ :=
    order.exists_decodeRecord memberNames doc.nodup_members fun _ => decodeMember_upTo h
  have hempty : doc.upTo [] = {} := by simp [upTo]
  have hencode : doc.encode = .obj doc.members := rfl
  rw [hencode, decode, ← hempty, hread, upTo_of_seen hseen]

theorem decode_encode (doc : Document) : decode doc.encode = .ok doc :=
  @decode_list Listing.asGiven doc fun _ _ => rfl

end Document

end Statechart
