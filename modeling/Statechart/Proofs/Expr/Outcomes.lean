import Statechart.Proofs.Expr.Soundness
import Statechart.Proofs.Expr.Stepping

/-!
# Outcomes of procedures

`ComesTo` says that a procedure, wherever it is called before some characters, does what an
outcome of a parser says: it fails with the fault, or gives the expression to its caller.  The
cursor is then before the characters that the parser leaves, or behind blanks that these begin
with, because the machine moves over blanks earlier than the parser drops them.

A procedure comes to an outcome if its code does when the procedure was just called
(`ComesTo.of_code`); what its own calls come to is used there (`ComesTo.ends`).  This module
goes on to the operands.
-/

namespace Statechart
namespace Expr
namespace Cursor

open Text

/-! ## Loops over a class of characters -/

section Skip

variable {text : String} {result : Except ExpressionError Expr} {i : Nat} {cs : List Char}
  {q : Procedure} {frames : Frames q}

theorem Class.width_eq {kind : Class} {c : Char} (h : kind.holds c = true) :
    kind.width c = c.utf8Size := by
  cases kind with
  | blank | word => rfl
  | digit =>
      have hrange : 48 ≤ c.toNat ∧ c.toNat ≤ 57 := by
        simpa [Class.holds, Char.isDigit, UInt32.le_iff_toNat_le] using h
      have hle : c.val ≤ 127 := UInt32.le_iff_toNat_le.2 (hrange.2.trans (by decide))
      exact (Char.utf8Size_eq_one_iff.2 hle).symm

theorem Ends.skip {kind : Class} {f : Unit → Code q.Answer} (hat : At text i cs)
    (hfree : frames.Free i 0)
    (h : ∀ j, i ≤ j → At text j (cs.dropWhile kind.holds) →
      Ends text result (.running j (f ()) frames)) :
    Ends text result (.running i (Cursor.skip kind >>= f) frames) := by
  induction cs generalizing i q with
  | nil =>
      refine .call hat hfree.advancing ?_
      refine .peek hat hfree.advancing_inner ?_
      exact .done hat hfree.advancing_inner (h i le_rfl hat)
  | cons c cs ih =>
      have hentered : (Frames.inner (.skip kind) i f frames).Entered i := Frames.Free.entered hfree
      refine .call hat hfree.advancing ?_
      refine .peek hat hentered.advancing ?_
      dsimp only [List.head?]
      by_cases hc : kind.holds c = true
      · rw [if_pos hc]
        rw [List.dropWhile_cons_of_pos hc] at h
        refine .overChar hat (Class.width_eq hc) hentered.advancing fun j hlt hj => ?_
        refine ih (f := .done) hj (hentered.free_of_lt hlt) fun k hle hk => ?_
        exact .done hk hentered.advancing (h k (hlt.le.trans hle) hk)
      · rw [if_neg hc]
        rw [List.dropWhile_cons_of_neg hc] at h
        exact .done hat hentered.advancing (h i le_rfl hat)

end Skip

/-! ## Outcomes -/

/-- What a caller goes on with when a procedure comes to an outcome ends with a result.  The
machine may have moved over blanks behind the expression already. -/
def Resumes (text : String) (result : Except ExpressionError Expr) (i : Nat) {q : Procedure}
    (frames : Frames q) (f : Expr → Code q.Answer) : Except Fault (Expr × List Char) → Prop
  | .error fault => result = .error (.unreadable (String.ofList (input text)) fault)
  | .ok (e, rest) => ∀ j behind, i ≤ j → At text j behind → skipBlanks behind = skipBlanks rest →
      Ends text result (.running j (f e) frames)

/-- Wherever a procedure is called before some characters, it comes to an outcome. -/
def ComesTo (text : String) (r : Rule) (cs : List Char)
    (outcome : Except Fault (Expr × List Char)) : Prop :=
  ∀ (result : Except ExpressionError Expr) (i : Nat) (q : Procedure) (frames : Frames q)
    (f : Expr → Code q.Answer), At text i cs → frames.Free i r.rank →
    Resumes text result i frames f outcome → Ends text result (.running i (read r >>= f) frames)

variable {text : String} {result : Except ExpressionError Expr} {i j : Nat}
  {cs rest : List Char} {r : Rule} {e : Expr} {outcome : Except Fault (Expr × List Char)}
  {q : Procedure} {frames : Frames q} {f : Expr → Code q.Answer} {inner : Parser Expr}

theorem Resumes.mono (h : Resumes text result i frames f outcome) (hle : i ≤ j) :
    Resumes text result j frames f outcome := by
  cases outcome with
  | error fault => exact h
  | ok done => exact fun k behind hk => h k behind (hle.trans hk)

theorem ComesTo.of_code
    (h : ∀ (result : Except ExpressionError Expr) (i : Nat) (frames : Frames (.rule r)),
      At text i cs → frames.Entered i → Resumes text result i frames .done outcome →
      Ends text result (.running i (code text (.rule r)) frames)) : ComesTo text r cs outcome := by
  intro result i q frames f hat hfree hresumes
  have hentered : (Frames.inner (.rule r) i f frames).Entered i := Frames.Free.entered hfree
  refine .call hat hfree.advancing (h _ _ _ hat hentered ?_)
  cases outcome with
  | error fault => exact hresumes
  | ok done =>
      intro j behind hle hj hsame
      exact .done hj hentered.advancing (hresumes j behind hle hj hsame)

theorem ComesTo.ends (h : ComesTo text r cs outcome) (hat : At text i cs)
    (hfree : frames.Free i r.rank) (hresumes : Resumes text result i frames f outcome) :
    Ends text result (.running i (read r >>= f) frames) :=
  h result i q frames f hat hfree hresumes

theorem ComesTo.last {s : Rule} {frames : Frames (.rule s)} (h : ComesTo text r cs outcome)
    (hat : At text i cs) (hfree : frames.Free i r.rank)
    (hresumes : Resumes text result i frames .done outcome) :
    Ends text result (@Moment.running (.rule s) i (read r) frames) :=
  h result i (.rule s) frames .done hat hfree hresumes

/-- Moving over blanks leads to the same place whether some were moved over already. -/
theorem Ends.overBlanks {behind : List Char} {f : Unit → Code q.Answer} (hat : At text i behind)
    (hfree : frames.Free i 0) (hsame : skipBlanks behind = skipBlanks rest)
    (h : ∀ j, i ≤ j → At text j (skipBlanks rest) →
      Ends text result (.running j (f ()) frames)) :
    Ends text result (.running i (Cursor.skip .blank >>= f) frames) := by
  refine .skip hat hfree fun j hle hj => h j hle ?_
  rw [← hsame]
  exact hj

/-- Reading an expression and moving over the blanks behind it. -/
theorem ComesTo.ends_skip (h : ComesTo text r cs outcome) (hat : At text i cs)
    (hfree : frames.Free i r.rank) (hskip : ∀ j, i ≤ j → frames.Free j 0)
    (herror : ∀ fault, outcome = .error fault →
      result = .error (.unreadable (String.ofList (input text)) fault))
    (hok : ∀ e rest, outcome = .ok (e, rest) → ∀ j, i ≤ j → At text j (skipBlanks rest) →
      Ends text result (.running j (f e) frames)) :
    Ends text result
      (.running i (read r >>= fun e => Cursor.skip .blank >>= fun _ => f e) frames) := by
  refine h.ends hat hfree ?_
  cases outcome with
  | error fault => exact herror fault rfl
  | ok done =>
      intro j behind hle hj hsame
      refine .overBlanks hj (hskip j hle) hsame fun k hle' hk => ?_
      exact hok done.1 done.2 rfl k (hle.trans hle') hk

/-! ## Operands -/

theorem comesTo_stringRest_nil (quote : Char) (done : List Char) :
    ComesTo text (.stringRest quote done) [] (.error .openString) := by
  refine .of_code fun result i frames hat hentered hresumes => ?_
  refine .peek hat hentered.advancing ?_
  exact .fail hat hentered.advancing hresumes

/-- Behind a character of a string, all procedures may be called. -/
theorem comesTo_stringRest_cons {quote c : Char} {done : List Char}
    (h : ∀ (result : Except ExpressionError Expr) (i : Nat)
      (frames : Frames (.rule (.stringRest quote done))),
      At text i rest → (∀ j rank, i ≤ j → frames.Free j rank) →
      Resumes text result i frames .done outcome →
      Ends text result (@Moment.running (.rule (.stringRest quote done)) i
        (stringChar quote done c) frames)) :
    ComesTo text (.stringRest quote done) (c :: rest) outcome := by
  refine .of_code fun result i frames hat hentered hresumes => ?_
  refine .peek hat hentered.advancing ?_
  refine .overChar hat rfl hentered.advancing fun j hlt hj => ?_
  exact h result j frames hj (fun k rank hle => hentered.free_of_lt (hlt.trans_le hle))
    (hresumes.mono hlt.le)

theorem comesTo_stringRest (quote : Char) (done cs : List Char) :
    ComesTo text (.stringRest quote done) cs (stringTail quote done cs) := by
  induction done, cs using stringTail.induct quote with
  | case1 done => exact comesTo_stringRest_nil quote done
  | case2 done rest =>
      refine comesTo_stringRest_cons fun result i frames hat hfree hresumes => ?_
      rw [stringChar, if_pos rfl]
      rw [stringTail_end] at hresumes
      exact hresumes i rest le_rfl hat rfl
  | case3 done hne =>
      refine comesTo_stringRest_cons fun result i frames hat hfree hresumes => ?_
      rw [stringChar, if_neg hne, if_pos rfl]
      have herror : stringTail quote done ['\\'] = .error .openString := by
        simp [stringTail, hne]
      rw [herror] at hresumes
      refine .peek hat (hfree i 0 le_rfl).advancing ?_
      exact (comesTo_stringRest_nil quote done).last hat (hfree i _ le_rfl) hresumes
  | case4 done c rest hne ih =>
      refine comesTo_stringRest_cons fun result i frames hat hfree hresumes => ?_
      rw [stringChar, if_neg hne, if_pos rfl]
      rw [stringTail_escaped (Ne.symm hne)] at hresumes
      have hframes := (hfree i 0 le_rfl).advancing
      refine .peek hat hframes ?_
      refine .overChar hat rfl hframes fun j hlt hj => ?_
      exact ih.last hj (hfree j _ hlt.le) (hresumes.mono hlt.le)
  | case5 done c rest hne hslash ih =>
      refine comesTo_stringRest_cons fun result i frames hat hfree hresumes => ?_
      rw [stringChar, if_neg hne, if_neg hslash]
      rw [stringTail_plain hne hslash] at hresumes
      exact ih.last hat (hfree i _ le_rfl) hresumes

theorem comesTo_string {c : Char} (hc : c.utf8Size = 1) (rest : List Char) :
    ComesTo text .string (c :: rest) (stringTail c [] rest) := by
  refine .of_code fun result i frames hat hentered hresumes => ?_
  refine .peek hat hentered.advancing ?_
  refine .overChar hat hc.symm hentered.advancing fun j hlt hj => ?_
  exact (comesTo_stringRest c [] rest).last hj (hentered.free_of_lt hlt) (hresumes.mono hlt.le)

theorem comesTo_word (cs : List Char) : ComesTo text .word cs (word cs) := by
  refine .of_code fun result i frames hat hentered hresumes => ?_
  refine .cursor hat hentered.advancing ?_
  refine .skip hat (hentered.free_of_le le_rfl (by decide)) fun j hle hj => ?_
  have hsplit : At text i (cs.takeWhile isWordChar ++ cs.dropWhile isWordChar) := by
    rwa [List.takeWhile_append_dropWhile]
  refine .taken hsplit hj hentered.advancing ?_
  cases hword : ofWord (cs.takeWhile isWordChar) with
  | error fault =>
      rw [word, hword] at hresumes
      exact .fail hj hentered.advancing hresumes
  | ok e =>
      rw [word, hword] at hresumes
      exact hresumes j _ hle hj rfl

theorem Ends.whenAt {c : Char} {body : Code Unit} {f : Unit → Code q.Answer} (hat : At text i cs)
    (hframes : frames.Advancing)
    (hbody : ∀ rest, cs = c :: rest → Ends text result (.running i (body >>= f) frames))
    (helse : Clear (· == c) cs → Ends text result (.running i (f ()) frames)) :
    Ends text result (.running i (Cursor.whenAt c body >>= f) frames) := by
  refine .peek hat hframes ?_
  change Ends text result (.running i (Code.bind (if cs.head? = some c then body else .done ()) f)
    frames)
  by_cases hhead : cs.head? = some c
  · obtain ⟨rest, hcs⟩ := List.head?_eq_some_iff.1 hhead
    rw [if_pos hhead]
    exact hbody rest hcs
  · rw [if_neg hhead]
    exact helse (clear_of_ne_cons fun rest hcs => hhead (by rw [hcs]; rfl))

theorem Ends.digits {negative : Bool} {f : Unit → Code q.Answer} (hat : At text i cs)
    (hfree : ∀ j, i ≤ j → frames.Free j 0)
    (h : ∀ j, i ≤ j → At text j (scanDigits negative cs).2.2.2 →
      Ends text result (.running j (f ()) frames)) :
    Ends text result (.running i (Cursor.skip .digit >>= fun _ => Cursor.whenAt '.' (do
      Cursor.advance 1
      Cursor.skip .digit) >>= f) frames) := by
  have hframes := (hfree i le_rfl).advancing
  refine .skip hat (hfree i le_rfl) fun j hle hj => ?_
  refine .whenAt hj hframes (fun rest hrest => ?_) fun hclear => ?_
  · have hpoint : cs.dropWhile Char.isDigit = '.' :: rest := hrest
    have hbehind : (scanDigits negative cs).2.2.2 = rest.dropWhile Char.isDigit := by
      simp [scanDigits, hpoint]
    rw [hbehind] at h
    rw [hrest] at hj
    change Ends text result (.running j (Cursor.advance 1 >>= fun _ => Cursor.skip .digit >>= f)
      frames)
    refine .overChar hj rfl hframes fun k hlt hk => ?_
    refine .skip hk (hfree k (hle.trans hlt.le)) fun l hle' hl => ?_
    exact h l (hle.trans (hlt.le.trans hle')) hl
  · have hpoint : Clear (· == '.') (cs.dropWhile Char.isDigit) := hclear
    have hbehind : (scanDigits negative cs).2.2.2 = cs.dropWhile Char.isDigit := by
      unfold scanDigits
      split
      · next hrest =>
        rw [hrest, clear_cons] at hpoint
        cases hpoint
      · rfl
    rw [hbehind] at h
    exact h j hle hj

theorem Ends.numeral {f : Unit → Code q.Answer} (hat : At text i cs)
    (hfree : ∀ j, i ≤ j → frames.Free j 0)
    (h : ∀ j, i ≤ j → At text j (scanNumber cs).2.2.2 →
      Ends text result (.running j (f ()) frames)) :
    Ends text result (.running i (Cursor.whenAt '-' (Cursor.advance 1) >>= fun _ =>
      Cursor.skip .digit >>= fun _ => Cursor.whenAt '.' (do
        Cursor.advance 1
        Cursor.skip .digit) >>= f) frames) := by
  have hframes := (hfree i le_rfl).advancing
  refine .whenAt hat hframes (fun rest hrest => ?_) fun hclear => ?_
  · subst hrest
    refine .overChar hat rfl hframes fun j hlt hj => ?_
    rw [scanNumber_minus] at h
    exact .digits hj (fun k hle => hfree k (hlt.le.trans hle))
      fun k hle hk => h k (hlt.le.trans hle) hk
  · rw [scanNumber_of_clear hclear] at h
    exact .digits hat hfree h

theorem ofNumeralText_text {n : Numeral} (hn : n.Written) :
    ofNumeralText n.text = ofNumeral n.negative n.whole n.fraction := by
  have hscan : scanNumber (n.text ++ []) = (n.negative, n.whole, n.fraction, []) :=
    scanNumber_complete hn (by simp [Clear])
  rw [List.append_nil] at hscan
  rw [ofNumeralText, hscan]

theorem comesTo_number (hcs : ∃ c tail, cs = c :: tail ∧ (c.isDigit = true ∨ c = '-')) :
    ComesTo text .number cs (number cs) := by
  obtain ⟨negative, whole, fraction, rest, hscan⟩ :
      ∃ negative whole fraction rest, scanNumber cs = (negative, whole, fraction, rest) :=
    ⟨_, _, _, _, rfl⟩
  obtain ⟨n, hn⟩ : ∃ n : Numeral, n = ⟨negative, whole, fraction⟩ := ⟨_, rfl⟩
  have hfound : scanNumber cs = (n.negative, n.whole, n.fraction, rest) := by rw [hn, hscan]
  obtain ⟨htext, hwritten, -⟩ := scanNumber_sound hfound hcs
  have htake : cs.take (cs.length - rest.length) = n.text := by simp [htext]
  refine .of_code fun result i frames hat hentered hresumes => ?_
  refine .cursor hat hentered.advancing ?_
  refine .numeral hat (fun j hle => hentered.free_of_le hle (by decide)) fun j hle hj => ?_
  rw [hfound] at hj
  refine .taken (htext ▸ hat) hj hentered.advancing ?_
  rw [ofNumeralText_text hwritten]
  simp only [number, hfound, htake] at hresumes
  cases hvalue : ofNumeral n.negative n.whole n.fraction with
  | none =>
      rw [hvalue] at hresumes
      exact .fail hj hentered.advancing hresumes
  | some e =>
      rw [hvalue] at hresumes
      exact hresumes j rest hle hj rfl

theorem Ends.closing {frames : Frames (.rule .operand)} (hat : At text i (skipBlanks rest))
    (hframes : frames.Advancing)
    (hresumes : Resumes text result i frames .done (match skipBlanks rest with
      | ')' :: rest => .ok (e, rest)
      | _ => .error .parenExpected)) :
    Ends text result (@Moment.running (.rule .operand) i (Cursor.closing text e) frames) := by
  refine .peek hat hframes ?_
  by_cases hclose : (skipBlanks rest).head? = some ')'
  · obtain ⟨rest', hrest⟩ := List.head?_eq_some_iff.1 hclose
    rw [if_pos hclose]
    rw [hrest] at hresumes hat
    refine .overChar hat rfl hframes fun j hlt hj => ?_
    exact hresumes j rest' hlt.le hj rfl
  · rw [if_neg hclose]
    split at hresumes
    · next hrest =>
      rw [hrest] at hclose
      exact absurd rfl hclose
    · exact .fail hat hframes hresumes

theorem comesTo_operand (hinner : ∀ rest, skipBlanks cs = '(' :: rest →
    ComesTo text (.joined .disjunction) rest (inner rest)) :
    ComesTo text .operand cs (operand inner cs) := by
  refine .of_code fun result i frames hat hentered hresumes => ?_
  refine .overBlanks hat (hentered.free_of_le le_rfl (by decide)) rfl fun j hle hj => ?_
  refine .peek hj hentered.advancing ?_
  have hlower : ∀ rank < Rule.operand.rank, frames.Free j rank :=
    fun rank hrank => hentered.free_of_le hle hrank
  replace hresumes := hresumes.mono hle
  rw [operand] at hresumes
  cases hskip : skipBlanks cs with
  | nil =>
      rw [hskip] at hj hresumes
      exact .fail hj hentered.advancing hresumes
  | cons c rest =>
      rw [hskip] at hj hresumes
      dsimp only [List.head?] at hresumes ⊢
      by_cases hparen : c = '('
      · subst hparen
        rw [if_pos rfl] at hresumes ⊢
        refine .overChar hj rfl hentered.advancing fun k hlt hk => ?_
        have hlater : ∀ l, k ≤ l → i < l := fun l hkl => (hle.trans_lt hlt).trans_le hkl
        refine (hinner rest hskip).ends_skip hk (hentered.free_of_lt (hlater k le_rfl))
          (fun l hkl => hentered.free_of_lt (hlater l hkl)) (fun fault hread => ?_)
          fun e rest' hread l hkl hl => ?_
        · rw [hread] at hresumes
          exact hresumes
        · rw [hread] at hresumes
          exact .closing hl hentered.advancing (hresumes.mono (hlt.le.trans hkl))
      rw [if_neg hparen] at hresumes ⊢
      by_cases hquote : (decide (c = '"') || decide (c = '\'')) = true
      · rw [if_pos hquote] at hresumes ⊢
        have hsize : c.utf8Size = 1 := by
          rcases (by simpa using hquote : c = '"' ∨ c = '\'') with rfl | rfl <;> rfl
        exact (comesTo_string hsize rest).last hj (hlower _ (by decide)) hresumes
      rw [if_neg hquote] at hresumes ⊢
      by_cases hnumber : (c.isDigit || decide (c = '-')) = true
      · rw [if_pos hnumber] at hresumes ⊢
        have hbegins : c.isDigit = true ∨ c = '-' := by simpa using hnumber
        exact (comesTo_number ⟨c, rest, rfl, hbegins⟩).last hj (hlower _ (by decide)) hresumes
      rw [if_neg hnumber] at hresumes ⊢
      by_cases hletter : (isLetter c || decide (c = '_')) = true
      · rw [if_pos hletter] at hresumes ⊢
        exact (comesTo_word (c :: rest)).last hj (hlower _ (by decide)) hresumes
      · rw [if_neg hletter] at hresumes ⊢
        exact .fail hj hentered.advancing hresumes

end Cursor
end Expr
end Statechart
