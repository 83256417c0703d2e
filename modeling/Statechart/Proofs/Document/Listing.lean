import Statechart.Document.Decoding
import Statechart.Document.Encoding
import Statechart.Proofs.Fields
import Statechart.Proofs.Outcome

/-!
# The members of an object in any order

A listing is an order in which the members of the objects of a value may come.  Members as
they are given and members in increasing order of their names are the two that matter: the
first is how documents are written, the second is how values are kept.  What is proved of
the readers of objects holds for every listing, because of a listed object it is known only
which members it has.

An object is read from its members one after the other.  A reader is described by `upTo`,
the part of its goal that is there once some names were seen; if each member adds its own
part then the whole object is read, and the members that were left out are the defaults.
-/

namespace Statechart

/-! ## Listings -/

/-- A way to list the members of the objects of a value. -/
structure Listing where
  list : Value → Value
  text : ∀ s, list (.str s) = .str s
  flag : ∀ b, list (.bool b) = .bool b
  items : ∀ vs, list (.arr vs) = .arr (vs.map list)
  members : ∀ fields, (Fields.names fields).Nodup → ∃ others, list (.obj fields) = .obj others ∧
    ∀ member, member ∈ others ↔ ∃ field ∈ fields, (field.1, list field.2) = member

namespace Value

mutual

/-- The value with the members of all objects in increasing order of their names. -/
def sorted : Value → Value
  | arr items => arr (sortedItems items)
  | obj fields => obj (Fields.ofList (sortedFields fields))
  | v => v

/-- The items of an array, each one sorted. -/
def sortedItems : List Value → List Value
  | [] => []
  | v :: rest => v.sorted :: sortedItems rest

/-- The members of an object, each one sorted. -/
def sortedFields : List (String × Value) → List (String × Value)
  | [] => []
  | (name, v) :: rest => (name, v.sorted) :: sortedFields rest

end

theorem sortedItems_eq (items : List Value) : sortedItems items = items.map sorted := by
  induction items with
  | nil => rfl
  | cons v rest ih => rw [sortedItems, ih]; rfl

theorem sortedFields_eq (fields : List (String × Value)) :
    sortedFields fields = fields.map fun field => (field.1, field.2.sorted) := by
  induction fields with
  | nil => rfl
  | cons field rest ih => rw [sortedFields, ih]; rfl

theorem names_sortedFields (fields : Fields Value) :
    Fields.names (sortedFields fields) = Fields.names fields := by
  rw [sortedFields_eq, Fields.names, List.map_map]
  rfl

theorem mem_ofList_sortedFields {fields : Fields Value} {member : String × Value}
    (h : (Fields.names fields).Nodup) : member ∈ Fields.ofList (sortedFields fields) ↔
      ∃ field ∈ fields, (field.1, field.2.sorted) = member := by
  rw [Fields.mem_ofList_iff (names_sortedFields fields ▸ h), sortedFields_eq, List.mem_map]

/-- The members of all objects are in increasing order of their names. -/
def Sorted (v : Value) : Prop :=
  v.sorted = v

theorem Sorted.item {items : List Value} (h : (arr items).Sorted) : ∀ v ∈ items, v.Sorted := by
  rw [Sorted, sorted, sortedItems_eq, arr.injEq] at h
  exact List.map_inj_left.1 (h.trans (List.map_id items).symm)

theorem Sorted.ordered {fields : Fields Value} (h : (obj fields).Sorted) :
    Fields.Ordered fields := by
  rw [Sorted, sorted, obj.injEq] at h
  exact h ▸ Fields.ordered_ofList _

theorem Sorted.field {fields : Fields Value} (h : (obj fields).Sorted) :
    ∀ field ∈ fields, field.2.Sorted := by
  intro field hfield
  have hnodup := Fields.nodup_names_of_ordered h.ordered
  rw [Sorted, sorted, obj.injEq] at h
  obtain ⟨other, hother, heq⟩ := (mem_ofList_sortedFields hnodup).1 (h.symm ▸ hfield)
  obtain rfl : other = field :=
    List.inj_on_of_nodup_map hnodup hother hfield (congrArg (fun pair => pair.1) heq)
  exact congrArg (fun pair => pair.2) heq

end Value

namespace Listing

/-- Members are listed as they come. -/
def asGiven : Listing where
  list := id
  text _ := rfl
  flag _ := rfl
  items vs := by rw [List.map_id]; rfl
  members fields _ := ⟨fields, rfl, fun member => by simp⟩

/-- Members are listed in increasing order of their names. -/
def increasing : Listing where
  list := Value.sorted
  text _ := rfl
  flag _ := rfl
  items vs := by rw [Value.sorted, Value.sortedItems_eq]
  members _ h := ⟨_, rfl, fun _ => Value.mem_ofList_sortedFields h⟩

variable {order : Listing} {members : List (String × Value)}

/-- The listing keeps some maps as they are. -/
def Keeps (order : Listing) (maps : List (Fields Value)) : Prop :=
  ∀ fields ∈ maps, order.list (.obj fields) = .obj fields

/-- What a listed object shows of its members, whatever their order is. -/
theorem exists_members (hnodup : (Fields.names members).Nodup) :
    ∃ others, order.list (.obj members) = .obj others ∧
      (∀ name, name ∈ Fields.names others ↔ name ∈ Fields.names members) ∧
      (∀ field ∈ members, Fields.get? field.1 others = some (order.list field.2)) ∧
      ∀ member ∈ others, ∃ field ∈ members, (field.1, order.list field.2) = member := by
  obtain ⟨others, hlist, hothers⟩ := order.members members hnodup
  have hnames : ∀ name, name ∈ Fields.names others ↔ name ∈ Fields.names members := by
    intro name
    simp only [Fields.names, List.mem_map, hothers]
    constructor
    · rintro ⟨_, ⟨field, hfield, rfl⟩, rfl⟩
      exact ⟨field, hfield, rfl⟩
    · rintro ⟨field, hfield, rfl⟩
      exact ⟨_, ⟨field, hfield, rfl⟩, rfl⟩
  refine ⟨others, hlist, hnames, fun field hfield => ?_, fun member => (hothers member).1⟩
  refine Fields.get?_eq_some_of_forall_mem ((hnames _).2 (List.mem_map_of_mem hfield)) ?_
  rintro _ hmember hname
  obtain ⟨other, hother, rfl⟩ := (hothers _).1 hmember
  rw [List.inj_on_of_nodup_map hnodup hother hfield hname]

end Listing

/-! ## Members

Of each kind of member it is said which names it can add, what it looks like if it is
there, and that it is there unless it is the default. -/

section Members

variable {α : Type} {name : String} {member : String × Value} {seen : List String}

theorem mem_textMember {text : Option String} :
    member ∈ textMember name text ↔ ∃ s, text = some s ∧ member = (name, .str s) := by
  cases text <;> simp [textMember]

theorem mem_flagMember {b : Bool} :
    member ∈ flagMember name b ↔ b = true ∧ member = (name, .bool true) := by
  cases b <;> simp [flagMember]

theorem mem_listMember {items : List Value} :
    member ∈ listMember name items ↔ items ≠ [] ∧ member = (name, .arr items) := by
  cases items <;> simp [listMember]

theorem mem_fieldsMember {fields : Fields Value} :
    member ∈ fieldsMember name fields ↔ fields ≠ [] ∧ member = (name, .obj fields) := by
  cases fields <;> simp [fieldsMember]

theorem Fields.names_cons (field : String × α) (fields : Fields α) :
    Fields.names (field :: fields) = field.1 :: Fields.names fields := rfl

theorem Fields.names_append (fields more : Fields α) :
    Fields.names (fields ++ more) = Fields.names fields ++ Fields.names more :=
  List.map_append

theorem names_textMember (text : Option String) :
    (Fields.names (textMember name text)).Sublist [name] := by
  cases text <;> simp [textMember, Fields.names]

theorem names_flagMember (b : Bool) : (Fields.names (flagMember name b)).Sublist [name] := by
  cases b <;> simp [flagMember, Fields.names]

theorem names_listMember (items : List Value) :
    (Fields.names (listMember name items)).Sublist [name] := by
  cases items <;> simp [listMember, Fields.names]

theorem names_fieldsMember (fields : Fields Value) :
    (Fields.names (fieldsMember name fields)).Sublist [name] := by
  cases fields <;> simp [fieldsMember, Fields.names]

theorem text_of_seen {text : Option String}
    (h : ∀ n ∈ Fields.names (textMember name text), n ∈ seen) :
    (if name ∈ seen then text else none) = text := by
  cases text with
  | none => exact ite_self none
  | some s => exact if_pos (h name List.mem_cons_self)

theorem flag_of_seen {b : Bool} (h : ∀ n ∈ Fields.names (flagMember name b), n ∈ seen) :
    (if name ∈ seen then b else false) = b := by
  cases b with
  | false => exact ite_self false
  | true => exact if_pos (h name List.mem_cons_self)

theorem list_of_seen {items : List α} {written : List Value} (hwritten : written = [] → items = [])
    (h : ∀ n ∈ Fields.names (listMember name written), n ∈ seen) :
    (if name ∈ seen then items else []) = items := by
  cases written with
  | nil => rw [hwritten rfl, ite_self]
  | cons _ _ => exact if_pos (h name List.mem_cons_self)

theorem fields_of_seen {fields : Fields Value}
    (h : ∀ n ∈ Fields.names (fieldsMember name fields), n ∈ seen) :
    (if name ∈ seen then fields else []) = fields := by
  cases fields with
  | nil => exact ite_self []
  | cons _ _ => exact if_pos (h name List.mem_cons_self)

/-- Members are read one after the other; `upTo` is what has been read when some names
were seen. -/
theorem read_all {σ : Type} {read : σ → List (String × Value) → Decoded σ}
    {upTo : List String → σ} {fields : List (String × Value)}
    (hnil : ∀ draft, read draft [] = .ok draft)
    (hstep : ∀ member ∈ fields, ∀ seen rest,
      read (upTo seen) (member :: rest) = read (upTo (member.1 :: seen)) rest)
    (seen : List String) :
    read (upTo seen) fields = .ok (upTo ((Fields.names fields).reverse ++ seen)) := by
  induction fields generalizing seen with
  | nil => exact hnil _
  | cons member rest ih =>
      obtain ⟨hfirst, hrest⟩ := List.forall_mem_cons.1 hstep
      rw [hfirst, ih hrest]
      simp [Fields.names]

/-- If each member is read well, then a listed object is read to its end. -/
theorem Listing.read_list {σ : Type} (order : Listing)
    (read : σ → List (String × Value) → Decoded σ) (upTo : List String → σ)
    {members : List (String × Value)} (hnodup : (Fields.names members).Nodup)
    (hnil : ∀ draft, read draft [] = .ok draft)
    (hstep : ∀ member ∈ members, ∀ seen rest,
      read (upTo seen) ((member.1, order.list member.2) :: rest) =
        read (upTo (member.1 :: seen)) rest) :
    ∃ others seen, order.list (.obj members) = .obj others ∧
      (∀ name, name ∈ Fields.names others ↔ name ∈ Fields.names members) ∧
      (∀ field ∈ members, Fields.get? field.1 others = some (order.list field.2)) ∧
      read (upTo []) others = .ok (upTo seen) ∧ ∀ name ∈ Fields.names members, name ∈ seen := by
  obtain ⟨others, hlist, hnames, hget, hothers⟩ := order.exists_members hnodup
  refine ⟨others, (Fields.names others).reverse ++ [], hlist, hnames, hget, ?_, ?_⟩
  · refine read_all hnil ?_ []
    rintro _ hmember seen rest
    obtain ⟨field, hfield, rfl⟩ := hothers _ hmember
    exact hstep field hfield seen rest
  · intro name hname
    simpa using (hnames name).2 hname

/-- If each member is read as its own part, then a listed record is read. -/
theorem Listing.exists_decodeRecord {σ : Type} (order : Listing)
    {member : σ → String → Value → Decoded σ} (names : List String) {upTo : List String → σ}
    {members : List (String × Value)} (hnodup : (Fields.names members).Nodup)
    (hstep : ∀ field ∈ members, ∀ seen,
      member (upTo seen) field.1 (order.list field.2) = .ok (upTo (field.1 :: seen))) :
    ∃ seen, (∀ name ∈ Fields.names members, name ∈ seen) ∧
      decodeRecord member names (upTo []) (order.list (.obj members)) = .ok (upTo seen) := by
  have hread : ∀ field ∈ members, ∀ seen rest,
      decodeMembers member (upTo seen) ((field.1, order.list field.2) :: rest) =
        decodeMembers member (upTo (field.1 :: seen)) rest := by
    intro field hfield seen rest
    rw [decodeMembers, hstep field hfield seen]
    rfl
  obtain ⟨others, seen, hlist, -, -, hread, hseen⟩ :=
    order.read_list (decodeMembers member) upTo hnodup (fun _ => rfl) hread
  refine ⟨seen, hseen, ?_⟩
  rw [hlist]
  exact hread

/-- An array is read like the object that has its items as the members of the given names, and
never if it has more items than there are names. -/
theorem decodeRecord_arr_eq_ok_iff {σ : Type} {member : σ → String → Value → Decoded σ}
    {names : List String} {start last : σ} {items : List Value} :
    decodeRecord member names start (.arr items) = .ok last ↔
      items.length ≤ names.length ∧
        decodeRecord member names start (.obj (names.zip items)) = .ok last := by
  simp only [decodeRecord]
  induction items generalizing names start with
  | nil => cases names <;> simp [decodePositions, decodeMembers]
  | cons v rest ih =>
      cases names with
      | nil => simp [decodePositions]
      | cons name names =>
          rw [decodePositions, List.zip_cons_cons, decodeMembers, bind_eq_ok, bind_eq_ok]
          simp only [ih, List.length_cons, Nat.add_le_add_iff_right]
          constructor
          · rintro ⟨next, hnext, hlength, hrest⟩
            exact ⟨hlength, next, hnext, hrest⟩
          · rintro ⟨hlength, next, hnext, hrest⟩
            exact ⟨next, hnext, hlength, hrest⟩

end Members

end Statechart
