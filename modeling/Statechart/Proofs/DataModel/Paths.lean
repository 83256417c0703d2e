import Mathlib.Data.List.Infix
import Statechart.Action.Block

/-!
# Reads and writes at paths

The whole data model is one object, and the segments of a dotted path lead from it to a
place inside.  So a data model is read and written as the value `toValue` is
(`lookup_eq`, `toValue_of_assign`), and the laws are proved of values.

A write makes objects where it meets none, and a read of what is no object gives `null`.
The two conventions fit together: a write changes nothing for a path that diverges from
its own, also where it put an object in the place of something else
(`lookup_assign_of_diverge`).
-/

namespace Statechart

/-- Two paths diverge: neither of them leads to a place on the other one. -/
def Diverge (path other : List String) : Prop := ¬ path <+: other ∧ ¬ other <+: path

namespace Diverge

variable {path other : List String} {name name' : String}

theorem not_nil_left : ¬ Diverge [] other := fun h => h.1 List.nil_prefix

theorem not_nil_right : ¬ Diverge path [] := fun h => h.2 List.nil_prefix

theorem cons_iff :
    Diverge (name :: path) (name' :: other) ↔ name = name' → Diverge path other := by
  by_cases h : name = name'
  · subst h
    simp [Diverge, List.cons_prefix_cons]
  · simp [Diverge, List.cons_prefix_cons, h, Ne.symm h]

end Diverge

namespace Value

/-- Names lead from a value to a member of a member, each of them in an object. -/
inductive Leads : Value → List String → Value → Prop where
  | here (v : Value) : Leads v [] v
  | member {fields : Fields Value} {name : String} {inner v : Value} {rest : List String} :
    Fields.get? name fields = some inner → Leads inner rest v → Leads (obj fields) (name :: rest) v

/-- The members of a value, none if it is no object. -/
def fields : Value → Fields Value
  | obj fields => fields
  | _ => []

variable {v new other : Value} {name name' : String} {path path' rest : List String}

/-! ## Reading -/

theorem member_eq : v.member name = (Fields.get? name v.fields).getD null := by
  cases v <;> rfl

theorem lookup_null : null.lookup path = null := by
  induction path with
  | nil => rfl
  | cons name rest ih => exact ih

theorem lookup_append : v.lookup (path ++ rest) = (v.lookup path).lookup rest := by
  induction path generalizing v with
  | nil => rfl
  | cons name path ih => exact ih

theorem lookup_of_leads (h : v.Leads path other) : v.lookup path = other := by
  induction h with
  | here v => rfl
  | member hget _ ih => rw [lookup, member_obj, hget, Option.getD_some, ih]

theorem lookup_of_not_leads (h : ∀ other, ¬ v.Leads path other) : v.lookup path = null := by
  induction path generalizing v with
  | nil => exact absurd (.here v) (h v)
  | cons name rest ih =>
      rw [lookup, member_eq]
      cases hget : Fields.get? name v.fields with
      | none => exact lookup_null
      | some inner =>
          refine ih fun other hleads => ?_
          cases v with
          | obj fields => exact h other (.member hget hleads)
          | _ => cases hget

/-! ## Writing -/

theorem assign_cons :
    v.assign (name :: rest) new =
      obj (Fields.put name ((v.member name).assign rest new) v.fields) := by
  cases v <;> rfl

theorem fields_assign_cons :
    (v.assign (name :: rest) new).fields =
      Fields.put name ((v.member name).assign rest new) v.fields := by
  rw [assign_cons, fields]

theorem assign_assign_cons :
    (v.assign (name :: path) new).assign (name' :: path') other =
      obj (Fields.put name' (((v.assign (name :: path) new).member name').assign path' other)
        (Fields.put name ((v.member name).assign path new) v.fields)) := by
  rw [assign_cons (v := v.assign (name :: path) new), fields_assign_cons]

theorem member_assign_self :
    (v.assign (name :: rest) new).member name = (v.member name).assign rest new := by
  rw [member_eq, fields_assign_cons, Fields.get?_put_self, Option.getD_some]

theorem member_assign_of_ne (h : name ≠ name') :
    (v.assign (name :: rest) new).member name' = v.member name' := by
  rw [member_eq, fields_assign_cons, Fields.get?_put_of_ne h, member_eq]

/-- Inside the written place, the written value is read. -/
theorem lookup_assign_append :
    (v.assign path new).lookup (path ++ rest) = new.lookup rest := by
  rw [lookup_append, lookup_assign]

/-- A write is not seen on a path that diverges from its own. -/
theorem lookup_assign_of_diverge (h : Diverge path path') :
    (v.assign path new).lookup path' = v.lookup path' := by
  induction path generalizing v path' with
  | nil => exact absurd h Diverge.not_nil_left
  | cons name path ih =>
      cases path' with
      | nil => exact absurd h Diverge.not_nil_right
      | cons name' path' =>
          rw [lookup, lookup]
          by_cases heq : name = name'
          · subst heq
            rw [member_assign_self, ih (Diverge.cons_iff.1 h rfl)]
          · rw [member_assign_of_ne heq]

/-- Writes at paths that diverge commute. -/
theorem assign_comm (h : Diverge path path') :
    (v.assign path new).assign path' other = (v.assign path' other).assign path new := by
  induction path generalizing v path' with
  | nil => exact absurd h Diverge.not_nil_left
  | cons name path ih =>
      cases path' with
      | nil => exact absurd h Diverge.not_nil_right
      | cons name' path' =>
          rw [assign_assign_cons, assign_assign_cons]
          by_cases heq : name = name'
          · -- both go on inside the same member
            subst heq
            rw [Fields.put_put, Fields.put_put, member_assign_self, member_assign_self,
              ih (Diverge.cons_iff.1 h rfl)]
          · rw [member_assign_of_ne heq, member_assign_of_ne (Ne.symm heq),
              Fields.put_comm (Ne.symm heq)]

end Value

namespace DataModel

variable {data after : DataModel} {path : String} {v : Value} {error : ExpressionError}

/-! ## The data model as one object -/

theorem segments_eq (path : String) :
    Text.segments path = (splitPath path).1 :: (splitPath path).2 := by
  unfold splitPath
  cases h : Text.segments path with
  | nil => exact absurd (List.map_eq_nil_iff.1 h) (Text.splitOn_ne_nil _ _)
  | cons head rest => rfl

theorem toValue_inj (h : data.toValue = after.toValue) : data = after := by
  cases data
  cases after
  cases Value.obj.inj h
  rfl

theorem isDeclared_iff {name : String} :
    data.isDeclared name = true ↔ ∃ v, data.get? name = some v :=
  Fields.has_eq_true_iff

theorem member_toValue {name : String} (h : data.get? name = some v) :
    data.toValue.member name = v := by
  have hget : Fields.get? name data.bindings = some v := h
  rw [toValue, Value.member_obj, hget, Option.getD_some]

/-- A path of a declared variable is read in the object of all variables. -/
theorem lookup_eq (data : DataModel) (path : String) :
    data.lookup path =
      if data.isDeclared (splitPath path).1 then .ok (data.toValue.lookup (Text.segments path))
      else .error (.undefined (splitPath path).1) := by
  unfold lookup
  dsimp only
  split
  · next v hget =>
    rw [if_pos (isDeclared_iff.2 ⟨v, hget⟩), segments_eq, Value.lookup, member_toValue hget]
  · next hget =>
    have hnot : ¬ data.isDeclared (splitPath path).1 = true := fun h => by
      obtain ⟨v, hv⟩ := isDeclared_iff.1 h
      cases hget.symm.trans hv
    rw [if_neg hnot]

theorem assign_eq_ok_iff :
    data.assign path v = .ok after ↔ ∃ old, data.get? (splitPath path).1 = some old ∧
      data.declare (splitPath path).1 (old.assign (splitPath path).2 v) = after := by
  unfold assign
  dsimp only
  split
  · next old hget => simp [hget]
  · next hget => simp [hget]

theorem assign_eq_error_iff :
    data.assign path v = .error error ↔
      data.isDeclared (splitPath path).1 = false ∧ error = .undefined (splitPath path).1 := by
  unfold assign
  dsimp only
  split
  · next old hget =>
    rw [isDeclared_iff.2 ⟨old, hget⟩]
    simp
  · next hget =>
    have hnot : data.isDeclared (splitPath path).1 = false := by
      rw [isDeclared, Fields.has]
      exact congrArg Option.isSome hget
    simp [hnot, eq_comm]

theorem exists_assign_iff :
    (∃ after, data.assign path v = .ok after) ↔ data.isDeclared (splitPath path).1 = true := by
  simp only [assign_eq_ok_iff, isDeclared_iff]
  exact ⟨fun ⟨_, old, hget, _⟩ => ⟨old, hget⟩, fun ⟨old, hget⟩ => ⟨_, old, hget, rfl⟩⟩

theorem isDeclared_of_assign (h : data.assign path v = .ok after) :
    data.isDeclared (splitPath path).1 = true :=
  exists_assign_iff.1 ⟨after, h⟩

/-- A write at a path is one into the object of all variables. -/
theorem toValue_of_assign (h : data.assign path v = .ok after) :
    after.toValue = data.toValue.assign (Text.segments path) v := by
  obtain ⟨old, hget, rfl⟩ := assign_eq_ok_iff.1 h
  rw [segments_eq, Value.assign_cons, member_toValue hget]
  rfl

/-- A declared variable that is declared again changes nothing for the others. -/
theorem isDeclared_declare_eq {name : String} (h : data.isDeclared name = true) (v : Value)
    (other : String) : (data.declare name v).isDeclared other = data.isDeclared other := by
  by_cases heq : name = other
  · subst heq
    rw [h, isDeclared_declare_self]
  · rw [isDeclared, declare, Fields.has, Fields.get?_put_of_ne heq]
    rfl

/-- A write declares nothing and takes no variable away. -/
theorem isDeclared_assign_eq (h : data.assign path v = .ok after) (name : String) :
    after.isDeclared name = data.isDeclared name := by
  have hhead := isDeclared_of_assign h
  obtain ⟨old, -, rfl⟩ := assign_eq_ok_iff.1 h
  exact isDeclared_declare_eq hhead _ name

/-! ## The laws of writes -/

/-- What writes at dotted paths do to a data model, as far as reads can tell. -/
structure WritesWell (data : DataModel) : Prop where
  /-- A write fails exactly if the variable that its path begins with is not declared. -/
  error_iff : ∀ path v error, data.assign path v = .error error ↔
    data.isDeclared (splitPath path).1 = false ∧ error = .undefined (splitPath path).1
  /-- Content that fails to write has done nothing. -/
  unchanged : ∀ (evaluate : Evaluator) state path expr v error, evaluate expr data = .ok v →
    data.assign path v = .error error →
      Action.run ⟨data, evaluate, state⟩ (.assign path expr) = .misvalued data error
  read : ∀ path v after, data.assign path v = .ok after → after.lookup path = .ok v
  /-- On a longer path the members of the written value are read. -/
  inside : ∀ path rest v inner after, data.assign path v = .ok after →
    v.Leads (Text.segments rest) inner → after.lookup (path ++ "." ++ rest) = .ok inner
  absent : ∀ path rest v after, data.assign path v = .ok after →
    (∀ inner, ¬ v.Leads (Text.segments rest) inner) →
      after.lookup (path ++ "." ++ rest) = .ok .null
  /-- On a path that diverges from the written one the same is read as before. -/
  frame : ∀ path other v after, data.assign path v = .ok after →
    Diverge (Text.segments path) (Text.segments other) → after.lookup other = data.lookup other
  overwrite : ∀ path v w after, data.assign path v = .ok after →
    after.assign path w = data.assign path w
  comm : ∀ path other v w first second,
    Diverge (Text.segments path) (Text.segments other) → data.assign path v = .ok first →
      data.assign other w = .ok second →
        ∃ both, first.assign other w = .ok both ∧ second.assign path v = .ok both

theorem lookup_of_assign (h : data.assign path v = .ok after) : after.lookup path = .ok v := by
  have hdeclared : after.isDeclared (splitPath path).1 = true := by
    rw [isDeclared_assign_eq h, isDeclared_of_assign h]
  rw [lookup_eq, if_pos hdeclared, toValue_of_assign h, Value.lookup_assign]

/-- The variable of a longer path is that of the path. -/
theorem splitPath_append (path rest : String) :
    (splitPath (path ++ "." ++ rest)).1 = (splitPath path).1 := by
  have hsegments := Text.segments_append path rest
  rw [segments_eq, segments_eq path, List.cons_append] at hsegments
  exact (List.cons.inj hsegments).1

/-- After a write, the place inside it at the end of a longer path is read in the written
value. -/
theorem lookup_append_of_assign (h : data.assign path v = .ok after) (rest : String) :
    after.lookup (path ++ "." ++ rest) = .ok (v.lookup (Text.segments rest)) := by
  have hdeclared : after.isDeclared (splitPath (path ++ "." ++ rest)).1 = true := by
    rw [splitPath_append, isDeclared_assign_eq h, isDeclared_of_assign h]
  rw [lookup_eq, if_pos hdeclared, toValue_of_assign h, Text.segments_append,
    Value.lookup_assign_append]

theorem lookup_of_assign_of_diverge (h : data.assign path v = .ok after) {other : String}
    (hdiverge : Diverge (Text.segments path) (Text.segments other)) :
    after.lookup other = data.lookup other := by
  rw [lookup_eq, lookup_eq, isDeclared_assign_eq h, toValue_of_assign h,
    Value.lookup_assign_of_diverge hdiverge]

/-- Of two writes at one path the second one counts. -/
theorem assign_of_assign (h : data.assign path v = .ok after) (w : Value) :
    after.assign path w = data.assign path w := by
  have hdata := isDeclared_of_assign h
  have hafter : after.isDeclared (splitPath path).1 = true := by
    rw [isDeclared_assign_eq h, hdata]
  obtain ⟨twice, htwice⟩ := exists_assign_iff (v := w).2 hafter
  obtain ⟨once, honce⟩ := exists_assign_iff (v := w).2 hdata
  have heq : twice = once := toValue_inj (by
    rw [toValue_of_assign htwice, toValue_of_assign h, toValue_of_assign honce,
      Value.assign_assign])
  rw [htwice, honce, heq]

/-- Writes at paths that diverge can be made in either order. -/
theorem exists_assign_comm {other : String} {w : Value} {first second : DataModel}
    (hdiverge : Diverge (Text.segments path) (Text.segments other))
    (hfirst : data.assign path v = .ok first) (hsecond : data.assign other w = .ok second) :
    ∃ both, first.assign other w = .ok both ∧ second.assign path v = .ok both := by
  have hother : first.isDeclared (splitPath other).1 = true := by
    rw [isDeclared_assign_eq hfirst, isDeclared_of_assign hsecond]
  have hpath : second.isDeclared (splitPath path).1 = true := by
    rw [isDeclared_assign_eq hsecond, isDeclared_of_assign hfirst]
  obtain ⟨both, hboth⟩ := exists_assign_iff (v := w).2 hother
  obtain ⟨both', hboth'⟩ := exists_assign_iff (v := v).2 hpath
  have heq : both = both' := toValue_inj (by
    rw [toValue_of_assign hboth, toValue_of_assign hfirst, toValue_of_assign hboth',
      toValue_of_assign hsecond, Value.assign_comm hdiverge])
  exact ⟨both, hboth, heq ▸ hboth'⟩

/-- Writing at dotted paths is well-behaved in every data model, whatever stands in the way
of a path. -/
theorem writesWell (data : DataModel) : WritesWell data where
  error_iff path v error := assign_eq_error_iff
  unchanged evaluate state path expr v error hvalue hassign := by
    have hview : View.value ⟨data, evaluate, state⟩ expr = .ok v := hvalue
    rw [Action.run, Action.runAssign, hview]
    dsimp only
    rw [hassign]
  read path v after := lookup_of_assign
  inside path rest v inner after h hleads := by
    rw [lookup_append_of_assign h, Value.lookup_of_leads hleads]
  absent path rest v after h hnone := by
    rw [lookup_append_of_assign h, Value.lookup_of_not_leads hnone]
  frame path other v after h hdiverge := lookup_of_assign_of_diverge h hdiverge
  overwrite path v w after h := assign_of_assign h w
  comm path other v w first second := exists_assign_comm

/-- A number gives way to an object, and a member beside the written one is as absent as it
was before. -/
example :
    let data := mk [("count", .int 1)]
    let after := (data.assign "count.inner" (.int 5)).toOption.getD .empty
    after.toValue = .obj [("count", .obj [("inner", .int 5)])] ∧
      data.lookup "count.other" = .ok .null ∧ after.lookup "count.other" = .ok .null :=
  ⟨rfl, rfl, rfl⟩

end DataModel
end Statechart
