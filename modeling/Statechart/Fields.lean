/-!
# Fields

A collection of named fields is a list of pairs in which `put` keeps the names
in increasing order, so a collection built by `put` has one form whatever the
order of the writes.  Names are compared by code point.

Most laws below hold of every list of pairs, sorted or not: a read sees the last
write of its name and no other, a second write of a name replaces the first, and
writes of different names commute.  Only that writing a value back changes
nothing needs the names to be in order.
-/

namespace Statechart

/-- Named fields; see `Fields.put` for their order. -/
abbrev Fields (α : Type) := List (String × α)

namespace Fields

variable {α : Type}

/-- The value of the field `name`, if there is one. -/
def get? (name : String) : Fields α → Option α
  | [] => none
  | (key, value) :: rest => if key = name then some value else get? name rest

/-- Holds if there is a field `name`. -/
def has (name : String) (fields : Fields α) : Bool :=
  (get? name fields).isSome

/-- Writes the field `name`: it replaces the value of a field of that name, or
goes in front of the first greater name. -/
def put (name : String) (value : α) : Fields α → Fields α
  | [] => [(name, value)]
  | (key, old) :: rest =>
    if name < key then (name, value) :: (key, old) :: rest
    else if key = name then (name, value) :: rest
    else (key, old) :: put name value rest

/-- Writes the field `name` unless there is one already. -/
def putNew (name : String) (value : α) (fields : Fields α) : Fields α :=
  if has name fields then fields else put name value fields

/-- Removes the field `name`. -/
def erase (name : String) (fields : Fields α) : Fields α :=
  fields.filter fun field => field.1 != name

/-- The names, in order. -/
def names (fields : Fields α) : List String :=
  fields.map (·.1)

/-- Collects pairs in any order; of two with one name the later one counts. -/
def ofList (pairs : List (String × α)) : Fields α :=
  pairs.foldl (fun fields pair => put pair.1 pair.2 fields) []

/-- Holds if the names are in increasing order. -/
def Ordered (fields : Fields α) : Prop :=
  fields.Pairwise fun field other => field.1 < other.1

/-- Adds the fields of `more` whose names `fields` lacks. -/
def complete (fields more : Fields α) : Fields α :=
  more.foldl (fun fields pair => putNew pair.1 pair.2 fields) fields

theorem put_cons_of_lt {name key : String} (h : name < key) (value old : α) (rest : Fields α) :
    put name value ((key, old) :: rest) = (name, value) :: (key, old) :: rest := if_pos h

theorem put_cons_of_not_lt {name key : String} (h : ¬ name < key) (hne : key ≠ name)
    (value old : α) (rest : Fields α) :
    put name value ((key, old) :: rest) = (key, old) :: put name value rest :=
  (if_neg h).trans (if_neg hne)

theorem put_cons_self (name : String) (value old : α) (rest : Fields α) :
    put name value ((name, old) :: rest) = (name, value) :: rest :=
  (if_neg (String.lt_irrefl name)).trans (if_pos rfl)

@[simp] theorem get?_nil (name : String) : get? name ([] : Fields α) = none := rfl

/-- A read sees the write of its name. -/
@[simp] theorem get?_put_self (name : String) (value : α) (fields : Fields α) :
    get? name (put name value fields) = some value := by
  induction fields with
  | nil => simp [put, get?]
  | cons field rest ih =>
    obtain ⟨key, old⟩ := field
    unfold put
    split
    · simp [get?]
    · split
      · simp [get?]
      · next hne => simp [get?, hne, ih]

/-- A read sees no write of another name. -/
theorem get?_put_of_ne {name other : String} (h : name ≠ other) (value : α)
    (fields : Fields α) :
    get? other (put name value fields) = get? other fields := by
  induction fields with
  | nil => simp [put, get?, h]
  | cons field rest ih =>
    obtain ⟨key, old⟩ := field
    unfold put
    split
    · simp [get?, h]
    · split
      · next heq => subst heq; simp [get?, h]
      · simp [get?, ih]

/-- Of two writes of one name the second counts. -/
@[simp] theorem put_put (name : String) (first second : α) (fields : Fields α) :
    put name second (put name first fields) = put name second fields := by
  induction fields with
  | nil => exact put_cons_self name second first []
  | cons field rest ih =>
    obtain ⟨key, old⟩ := field
    by_cases hlt : name < key
    · rw [put_cons_of_lt hlt, put_cons_of_lt hlt, put_cons_self]
    · by_cases heq : key = name
      · subst heq
        rw [put_cons_self, put_cons_self, put_cons_self]
      · simp [put, hlt, heq, ih]

/-- The larger of two names is written behind the smaller one. -/
private theorem put_comm_of_lt {low high : String} (h : low < high) (a b : α)
    (fields : Fields α) :
    put low a (put high b fields) = put high b (put low a fields) := by
  have hne : low ≠ high := fun heq => String.lt_irrefl low (heq ▸ h)
  have hge : ¬ high < low := String.lt_asymm h
  induction fields with
  | nil => simp [put, h, hge, hne]
  | cons field rest ih =>
    obtain ⟨key, old⟩ := field
    by_cases hhigh : high < key
    · have hlow : low < key := String.lt_trans h hhigh
      simp [put, hhigh, hlow, h, hge, hne]
    · by_cases hkey : key = high
      · subst hkey
        rw [put_cons_self, put_cons_of_lt h, put_cons_of_lt h, put_cons_of_not_lt hge hne,
          put_cons_self]
      · by_cases hlow : low < key
        · simp [put, hhigh, hkey, hlow, hge, hne]
        · by_cases hkeylow : key = low
          · subst hkeylow
            rw [put_cons_self, put_cons_of_not_lt hge hne, put_cons_of_not_lt hge hne,
              put_cons_self]
          · simp [put, hhigh, hkey, hlow, hkeylow, ih]

/-- Writes of different names commute. -/
theorem put_comm {name other : String} (h : name ≠ other) (a b : α)
    (fields : Fields α) :
    put name a (put other b fields) = put other b (put name a fields) := by
  by_cases hlt : name < other
  · exact put_comm_of_lt hlt a b fields
  · have hgt : other < name := by
      have hle : other ≤ name := String.not_lt.1 hlt
      exact String.not_le.1 fun hge => h (String.le_antisymm hge hle)
    exact (put_comm_of_lt hgt b a fields).symm

/-- A field that is read is there. -/
theorem exists_mem_of_get?_eq_some {name : String} {value : α} {fields : Fields α}
    (h : get? name fields = some value) : ∃ field ∈ fields, field.1 = name := by
  induction fields with
  | nil => simp at h
  | cons first rest ih =>
    by_cases heq : first.1 = name
    · exact ⟨first, List.mem_cons_self, heq⟩
    · obtain ⟨field, hfield, hname⟩ := ih (by simpa [get?, heq] using h)
      exact ⟨field, List.mem_cons_of_mem _ hfield, hname⟩

/-- The names after a write are the names before it and the written one. -/
theorem fst_of_mem_put {name : String} {value : α} {fields : Fields α} {field : String × α}
    (h : field ∈ put name value fields) : field.1 = name ∨ field ∈ fields := by
  induction fields with
  | nil => simp_all [put]
  | cons first rest ih =>
    obtain ⟨key, old⟩ := first
    unfold put at h
    split at h
    · rcases List.mem_cons.1 h with rfl | h
      · exact .inl rfl
      · exact .inr h
    · split at h
      · rcases List.mem_cons.1 h with rfl | h
        · exact .inl rfl
        · exact .inr (List.mem_cons_of_mem _ h)
      · rcases List.mem_cons.1 h with rfl | h
        · exact .inr List.mem_cons_self
        · exact (ih h).imp_right (List.mem_cons_of_mem _)

/-- A write keeps the order of the names. -/
theorem ordered_put {fields : Fields α} (h : Ordered fields) (name : String) (value : α) :
    Ordered (put name value fields) := by
  induction fields with
  | nil => exact List.pairwise_singleton _ _
  | cons first rest ih =>
    obtain ⟨key, old⟩ := first
    obtain ⟨hfirst, hrest⟩ := List.pairwise_cons.1 h
    unfold put
    split
    · next hlt =>
      refine List.pairwise_cons.2 ⟨?_, h⟩
      intro field hfield
      rcases List.mem_cons.1 hfield with rfl | hfield
      · exact hlt
      · exact String.lt_trans hlt (hfirst field hfield)
    · next hge =>
      split
      · next heq => subst heq; exact List.pairwise_cons.2 ⟨hfirst, hrest⟩
      · next hne =>
        have hlt : key < name := by
          have hle : key ≤ name := String.not_lt.1 hge
          exact String.not_le.1 fun hle' => hne (String.le_antisymm hle hle')
        refine List.pairwise_cons.2 ⟨?_, ih hrest⟩
        intro field hfield
        rcases fst_of_mem_put hfield with heq | hfield
        · exact heq ▸ hlt
        · exact hfirst field hfield

/-- Collected pairs are in order. -/
theorem ordered_ofList (pairs : List (String × α)) : Ordered (ofList pairs) := by
  suffices h : ∀ fields : Fields α, Ordered fields →
      Ordered (pairs.foldl (fun fields pair => put pair.1 pair.2 fields) fields) from
    h [] List.Pairwise.nil
  induction pairs with
  | nil => exact fun _ h => h
  | cons pair rest ih => exact fun _ h => ih _ (ordered_put h _ _)

/-- In ordered fields, a write of the value that is there changes nothing. -/
theorem put_get?_self {name : String} {value : α} {fields : Fields α}
    (h : Ordered fields) (hvalue : get? name fields = some value) :
    put name value fields = fields := by
  induction fields with
  | nil => simp at hvalue
  | cons first rest ih =>
    obtain ⟨key, old⟩ := first
    obtain ⟨hfirst, hrest⟩ := List.pairwise_cons.1 h
    by_cases heq : key = name
    · subst heq
      have hold : old = value := by simpa [get?] using hvalue
      rw [put_cons_self, hold]
    · have hrestValue : get? name rest = some value := by simpa [get?, heq] using hvalue
      have hlt : key < name := by
        obtain ⟨field, hfield, hname⟩ := exists_mem_of_get?_eq_some hrestValue
        exact hname ▸ hfirst field hfield
      simp [put, heq, String.lt_asymm hlt, ih hrest hrestValue]

/-- A new field is read where there was none of its name. -/
theorem get?_putNew (name other : String) (value : α) (fields : Fields α) :
    get? other (putNew name value fields) =
      if name = other then (get? other fields).or (some value) else get? other fields := by
  unfold putNew has
  by_cases heq : name = other
  · subst heq
    cases hget : get? name fields <;> simp [hget]
  · cases hget : get? name fields <;> simp [heq, get?_put_of_ne heq]

/-- A field is read in the first of two collections that has it. -/
theorem get?_complete (name : String) (fields more : Fields α) :
    get? name (complete fields more) = (get? name fields).or (get? name more) := by
  induction more generalizing fields with
  | nil => simp [complete]
  | cons field rest ih =>
    obtain ⟨key, value⟩ := field
    have hstep : complete fields ((key, value) :: rest) = complete (putNew key value fields) rest :=
      rfl
    rw [hstep, ih, get?_putNew, get?]
    split
    · rw [Option.or_assoc, Option.some_or]
    · rfl

theorem has_eq_true_iff {name : String} {fields : Fields α} :
    has name fields = true ↔ ∃ value, get? name fields = some value := by
  simp [has, Option.isSome_iff_exists]

end Fields
end Statechart
