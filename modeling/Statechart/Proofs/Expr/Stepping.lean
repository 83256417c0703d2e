import Mathlib.Data.List.Basic
import Statechart.Proofs.Expr.Cursor

/-!
# Runs of the machine

A moment is sound if the cursor stands between two characters and every procedure that is active
twice was called further behind the second time (`Moment.Sound`).  `Ends` says of a moment that
the run from it stops with a result and is sound all the way.  There is one rule for each kind of
code, which says what has to hold for that step; a procedure may be called if `Frames.Free` holds
for its rank, and this is kept from caller to callee (`Frames.Free.entered`).
-/

namespace Statechart
namespace Expr

open Text

/-! ## Bytes -/

theorem foldl_utf8Size (n : Nat) (cs : List Char) :
    cs.foldl (fun n c => n + c.utf8Size) n = n + byteLength cs := by
  induction cs generalizing n with
  | nil => rfl
  | cons c cs ih =>
      rw [byteLength, List.foldl_cons, List.foldl_cons, ih, ih, Nat.zero_add, Nat.add_assoc]

@[simp] theorem byteLength_nil : byteLength [] = 0 := rfl

@[simp] theorem byteLength_cons (c : Char) (cs : List Char) :
    byteLength (c :: cs) = c.utf8Size + byteLength cs := by
  rw [byteLength, List.foldl_cons, foldl_utf8Size, Nat.zero_add]

@[simp] theorem byteLength_append (cs ds : List Char) :
    byteLength (cs ++ ds) = byteLength cs + byteLength ds := by
  rw [byteLength, List.foldl_append, foldl_utf8Size]
  rfl

theorem byteLength_eq_zero_iff {cs : List Char} : byteLength cs = 0 ↔ cs = [] := by
  cases cs with
  | nil => simp
  | cons c cs => simp [Nat.ne_of_gt (Char.utf8Size_pos c)]

theorem byteLength_pos {cs : List Char} (h : cs ≠ []) : 0 < byteLength cs :=
  Nat.pos_of_ne_zero (mt byteLength_eq_zero_iff.1 h)

theorem utf8ByteSize_ofList (cs : List Char) : (String.ofList cs).utf8ByteSize = byteLength cs := by
  induction cs with
  | nil => rfl
  | cons c cs ih =>
      rw [String.ofList_cons, String.utf8ByteSize_append, String.utf8ByteSize_singleton, ih,
        byteLength_cons]

namespace Cursor

variable {text : String} {i j start : Nat} {c : Char} {cs front behind found : List Char}

theorem cut?_append (front behind : List Char) :
    cut? (byteLength front) (front ++ behind) = some (front, behind) := by
  induction front with
  | nil => cases behind <;> rfl
  | cons c front ih =>
      obtain ⟨n, hn⟩ : ∃ n, c.utf8Size + byteLength front = n + 1 :=
        Nat.exists_eq_succ_of_ne_zero (by have := c.utf8Size_pos; omega)
      have hrest : n + 1 - c.utf8Size = byteLength front := by omega
      rw [byteLength_cons, List.cons_append, hn, cut?, if_pos (by omega), hrest, ih]
      rfl

/-- A text can be cut exactly at the bytes between its characters. -/
theorem cut?_eq_some_iff :
    cut? i cs = some (front, behind) ↔ cs = front ++ behind ∧ byteLength front = i := by
  constructor
  · intro h
    induction i, cs using cut?.induct generalizing front behind with
    | case1 cs =>
        rw [cut?] at h
        cases h
        exact ⟨rfl, rfl⟩
    | case2 n => cases h
    | case3 n c cs hle ih =>
        rw [cut?, if_pos hle] at h
        obtain ⟨⟨front', behind'⟩, hcut, heq⟩ := Option.map_eq_some_iff.1 h
        cases heq
        obtain ⟨rfl, hlength⟩ := ih hcut
        refine ⟨rfl, ?_⟩
        rw [byteLength_cons]
        omega
    | case4 n c cs hlt =>
        rw [cut?, if_neg hlt] at h
        cases h
  · rintro ⟨rfl, rfl⟩
    exact cut?_append front behind

example : cut? 1 ['\u00E9', 'a'] = none := by decide

/-- Some characters stand behind the cursor. -/
def At (text : String) (i : Nat) (cs : List Char) : Prop :=
  ∃ front, input text = front ++ cs ∧ byteLength front = i

theorem at_zero (text : String) : At text 0 (input text) := ⟨[], rfl, rfl⟩

theorem At.append (h : At text i (front ++ cs)) : At text (i + byteLength front) cs := by
  obtain ⟨before, htext, rfl⟩ := h
  exact ⟨before ++ front, by rw [htext, List.append_assoc], byteLength_append _ _⟩

theorem At.byteLength_eq (h : At text i cs) : byteLength (input text) = i + byteLength cs := by
  obtain ⟨front, htext, rfl⟩ := h
  rw [htext, byteLength_append]

/-- What stands behind the cursor says where it is. -/
theorem At.unique (h : At text i cs) (h' : At text j cs) : i = j := by
  have hsame := h.byteLength_eq.symm.trans h'.byteLength_eq
  omega

theorem At.isValid (h : At text i cs) :
    (String.Pos.Raw.mk i).IsValid (String.ofList (input text)) := by
  obtain ⟨front, htext, rfl⟩ := h
  refine String.Pos.Raw.isValid_iff_exists_append.2
    ⟨String.ofList front, String.ofList cs, by rw [htext, String.ofList_append], ?_⟩
  rw [String.rawEndPos, utf8ByteSize_ofList]

theorem At.exists_cut? (h : At text i cs) : ∃ front, cut? i (input text) = some (front, cs) := by
  obtain ⟨front, hfront⟩ := h
  exact ⟨front, cut?_eq_some_iff.2 hfront⟩

theorem At.between?_eq_some (h : At text start (found ++ cs)) :
    between? start (start + byteLength found) (input text) = some found := by
  obtain ⟨before, htext, rfl⟩ := h
  have hstop : cut? (byteLength before + byteLength found) (input text) =
      some (before ++ found, cs) :=
    cut?_eq_some_iff.2 ⟨by rw [htext, List.append_assoc], byteLength_append _ _⟩
  have hstart : cut? (byteLength before) (before ++ found) = some (before, found) :=
    cut?_eq_some_iff.2 ⟨rfl, rfl⟩
  rw [between?, if_pos (Nat.le_add_right _ _), hstop, Option.bind_some]
  dsimp only
  rw [hstart]
  rfl

/-! ## Active calls -/

/-- A procedure that is active twice was called further behind the second time. -/
def Frames.Advancing {p : Procedure} (frames : Frames p) : Prop :=
  frames.calls.Pairwise fun inner outer => inner.1.rank = outer.1.rank → outer.2 < inner.2

/-- A procedure of a rank may be called at a place: those that are active were called before it,
or have a greater rank. -/
structure Frames.Free {p : Procedure} (frames : Frames p) (i rank : Nat) : Prop where
  advancing : frames.Advancing
  before : ∀ call ∈ frames.calls, call.2 < i ∨ call.2 ≤ i ∧ rank < call.1.rank

/-- The innermost procedure was called at a place: behind it, it may call all procedures, and at
it those of a smaller rank. -/
def Frames.Entered {p : Procedure} (frames : Frames p) (i : Nat) : Prop :=
  ∀ j rank, i ≤ j → i < j ∨ rank < p.rank → frames.Free j rank

section Frames

variable {p q : Procedure} {frames : Frames q} {f : p.Answer → Code q.Answer}

theorem Frames.Free.advancing_inner (h : frames.Free i p.rank) :
    (Frames.inner p i f frames).Advancing := by
  refine List.Pairwise.cons (fun call hcall hsame => ?_) h.advancing
  exact (h.before call hcall).resolve_right fun hlater => Nat.ne_of_lt hlater.2 hsame

theorem Frames.Free.entered (h : frames.Free i p.rank) : (Frames.inner p i f frames).Entered i := by
  intro j rank hle hlater
  refine ⟨h.advancing_inner, List.forall_mem_cons.2 ⟨?_, fun call hcall => ?_⟩⟩
  · exact hlater.imp_right fun hrank => ⟨hle, hrank⟩
  · have hbefore := h.before call hcall
    omega

theorem Frames.Entered.advancing (h : frames.Entered i) : frames.Advancing :=
  (h (i + 1) 0 (Nat.le_succ i) (.inl (Nat.lt_succ_self i))).advancing

theorem Frames.Entered.free_of_lt {rank : Nat} (h : frames.Entered i) (hlt : i < j) :
    frames.Free j rank :=
  h j rank (Nat.le_of_lt hlt) (.inl hlt)

theorem Frames.Entered.free_of_le {rank : Nat} (h : frames.Entered i) (hle : i ≤ j)
    (hrank : rank < q.rank) : frames.Free j rank :=
  h j rank hle (.inr hrank)

theorem Frames.entered_outermost : Frames.outermost.Entered 0 := by
  intro j rank _ hlater
  refine ⟨List.pairwise_singleton _ _, fun call hcall => ?_⟩
  obtain rfl := List.mem_singleton.1 hcall
  exact hlater.imp_right fun hrank => ⟨Nat.zero_le j, hrank⟩

end Frames

/-! ## Sound runs -/

/-- What holds at every moment of a run. -/
def Moment.Sound (text : String) : Moment → Prop
  | .running i _ frames => i ≤ byteLength (input text) ∧
      (String.Pos.Raw.mk i).IsValid (String.ofList (input text)) ∧ frames.Advancing
  | .stopped _ => True
  | .panicked => False

/-- From a moment on a run is sound and stops with a result. -/
inductive Ends (text : String) (result : Except ExpressionError Expr) : Moment → Prop where
  | stopped : Ends text result (.stopped result)
  | step {m : Moment} : m.Sound text → Ends text result (step text m) → Ends text result m

variable {result : Except ExpressionError Expr} {m : Moment}

theorem Ends.sound (h : Ends text result m) : m.Sound text := by
  cases h with
  | stopped => trivial
  | step hsound _ => exact hsound

theorem Ends.next (h : Ends text result m) : Ends text result (Cursor.step text m) := by
  cases h with
  | stopped => exact .stopped
  | step _ hnext => exact hnext

theorem Ends.iterate (h : Ends text result m) (n : Nat) :
    Ends text result ((Cursor.step text)^[n] m) := by
  induction n generalizing m with
  | zero => exact h
  | succ n ih => exact ih h.next

theorem Ends.exists_stopped (h : Ends text result m) :
    ∃ n, (Cursor.step text)^[n] m = .stopped result := by
  induction h with
  | stopped => exact ⟨0, rfl⟩
  | step _ _ ih =>
      obtain ⟨n, hn⟩ := ih
      exact ⟨n + 1, hn⟩

/-! ## Rules -/

section Rules

variable {p q : Procedure} {frames : Frames q}

theorem At.sound (hat : At text i cs) (hframes : frames.Advancing) (code : Code q.Answer) :
    (Moment.running i code frames).Sound text :=
  ⟨by rw [hat.byteLength_eq]; exact Nat.le_add_right _ _, hat.isValid, hframes⟩

theorem Ends.peek {f : Option Char → Code q.Answer} (hat : At text i cs)
    (hframes : frames.Advancing) (h : Ends text result (.running i (f cs.head?) frames)) :
    Ends text result (.running i (Cursor.peek >>= f) frames) := by
  obtain ⟨front, hcut⟩ := hat.exists_cut?
  refine .step (hat.sound hframes _) ?_
  change Ends text result (.look (cut? i (input text)) _)
  rw [hcut]
  exact h

theorem Ends.looksAt {symbol : List Char} {f : Bool → Code q.Answer} (hat : At text i cs)
    (hframes : frames.Advancing)
    (h : Ends text result (.running i (f (symbol.isPrefixOf cs)) frames)) :
    Ends text result (.running i (Cursor.looksAt symbol >>= f) frames) := by
  obtain ⟨front, hcut⟩ := hat.exists_cut?
  refine .step (hat.sound hframes _) ?_
  change Ends text result (.look (cut? i (input text)) _)
  rw [hcut]
  exact h

theorem Ends.taken {f : List Char → Code q.Answer} (hfrom : At text start (found ++ cs))
    (hat : At text i cs) (hframes : frames.Advancing)
    (h : Ends text result (.running i (f found) frames)) :
    Ends text result (.running i (Cursor.taken start >>= f) frames) := by
  obtain rfl := hat.unique hfrom.append
  refine .step (hat.sound hframes _) ?_
  change Ends text result (.look (between? start _ (input text)) _)
  rw [hfrom.between?_eq_some]
  exact h

theorem Ends.cursor {f : Nat → Code q.Answer} (hat : At text i cs) (hframes : frames.Advancing)
    (h : Ends text result (.running i (f i) frames)) :
    Ends text result (.running i (Cursor.cursor >>= f) frames) :=
  .step (hat.sound hframes _) h

theorem Ends.advance {width : Nat} {f : Unit → Code q.Answer} (hat : At text i cs)
    (hframes : frames.Advancing) (h : Ends text result (.running (i + width) (f ()) frames)) :
    Ends text result (.running i (Cursor.advance width >>= f) frames) :=
  .step (hat.sound hframes _) h

/-- Moving over some characters leads to a place behind. -/
theorem Ends.over {width : Nat} {f : Unit → Code q.Answer} (hat : At text i (front ++ cs))
    (hwidth : width = byteLength front) (hfront : front ≠ []) (hframes : frames.Advancing)
    (h : ∀ j, i < j → At text j cs → Ends text result (.running j (f ()) frames)) :
    Ends text result (.running i (Cursor.advance width >>= f) frames) := by
  subst hwidth
  exact .advance hat hframes (h _ (Nat.lt_add_of_pos_right (byteLength_pos hfront)) hat.append)

theorem Ends.overChar {width : Nat} {f : Unit → Code q.Answer} (hat : At text i (c :: cs))
    (hwidth : width = c.utf8Size) (hframes : frames.Advancing)
    (h : ∀ j, i < j → At text j cs → Ends text result (.running j (f ()) frames)) :
    Ends text result (.running i (Cursor.advance width >>= f) frames) := by
  have hchar : At text i ([c] ++ cs) := hat
  exact .over hchar (by simp [hwidth]) (List.cons_ne_nil c []) hframes h

theorem Ends.call {f : p.Answer → Code q.Answer} (hat : At text i cs)
    (hframes : frames.Advancing)
    (h : Ends text result (.running i (code text p) (.inner p i f frames))) :
    Ends text result (.running i (.call p f) frames) :=
  .step (hat.sound hframes _) h

theorem Ends.fail {error : ExpressionError} (hat : At text i cs) (hframes : frames.Advancing)
    (h : result = .error error) : Ends text result (.running i (.fail error) frames) := by
  refine .step (hat.sound hframes _) ?_
  rw [h]
  exact .stopped

/-- A procedure gives its answer back to its caller. -/
theorem Ends.done {entered : Nat} {answer : p.Answer} {f : p.Answer → Code q.Answer}
    (hat : At text i cs) (hframes : (Frames.inner p entered f frames).Advancing)
    (h : Ends text result (.running i (f answer) frames)) :
    Ends text result (.running i (.done answer) (.inner p entered f frames)) :=
  .step (hat.sound hframes _) h

/-- The outermost procedure gives the result. -/
theorem Ends.whole {e : Expr} (hat : At text i cs) (h : result = .ok e) :
    Ends text result (@Moment.running (.rule .whole) i (.done e) .outermost) := by
  refine .step (hat.sound Frames.entered_outermost.advancing _) ?_
  rw [h]
  exact .stopped

end Rules

end Cursor
end Expr
end Statechart
