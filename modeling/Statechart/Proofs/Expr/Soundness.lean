import Statechart.Proofs.Expr.Tokens

/-!
# What is read as an expression is written for it

A parser is sound for a level if what it reads, behind blanks, is a rendering of that level
in front of the rest.  Each combinator keeps soundness, so it is enough that the parser for
the inside of parentheses is sound, and that follows by induction on the depth.
-/

namespace Statechart
namespace Expr

open Text

/-- What the parser reads is a rendering of a level, behind blanks. -/
def Sound (level : Level) (p : Parser Expr) : Prop :=
  ∀ cs e rest, p cs = .ok (e, rest) →
    ∃ bs text, cs = bs ++ text ++ rest ∧ Blank bs ∧ Renders level text e rest

/-- What stands for an operator at the front of a text joins a rendering of one level and
one of the next tighter level. -/
def Joins (operator : Operator) (level tighter : Level) : Prop :=
  ∀ cs build rest, operator cs = some (build, rest) → ∃ symbol, cs = symbol ++ rest ∧
    ∀ left bs bs' right next l r, Renders level left l (bs ++ symbol ++ bs' ++ right ++ next) →
      Blank bs → Blank bs' → Renders tighter right r next →
      Renders level (left ++ bs ++ symbol ++ bs' ++ right) (build l r) next

section Sound

variable {inner p : Parser Expr} {level tighter : Level} {operator : Operator}

theorem chainTail_sound (hjoins : Joins operator level tighter) (hp : Sound tighter p)
    {fuel : Nat} {left cs rest : List Char} {l e : Expr} (hleft : Renders level left l cs)
    (h : chainTail operator p fuel l cs = .ok (e, rest)) :
    ∃ text, cs = text ++ rest ∧ Renders level (left ++ text) e rest := by
  induction fuel generalizing left l cs with
  | zero =>
      cases h
      exact ⟨[], rfl, by rwa [List.append_nil]⟩
  | succ fuel ih =>
      rw [chainTail] at h
      split at h
      · cases h
        exact ⟨[], rfl, by rwa [List.append_nil]⟩
      · next build behind hoperator =>
        split at h
        · cases h
        · next r behind' hright =>
          obtain ⟨bs, hbs, hcs⟩ := exists_blank_append cs
          obtain ⟨symbol, hsymbol, hjoin⟩ := hjoins _ _ _ hoperator
          obtain ⟨bs', right, hbehind, hbs', hrenders⟩ := hp _ _ _ hright
          have hcs' : cs = bs ++ symbol ++ bs' ++ right ++ behind' := by
            rw [hcs, hsymbol, hbehind]
            simp only [List.append_assoc]
          have hjoined := hjoin left bs bs' right behind' l r (hcs' ▸ hleft) hbs hbs' hrenders
          obtain ⟨text, htext, hlast⟩ := ih hjoined h
          refine ⟨bs ++ symbol ++ bs' ++ right ++ text, ?_, ?_⟩
          · rw [hcs', htext]
            simp only [List.append_assoc]
          · simpa only [List.append_assoc] using hlast

theorem Sound.chain (hjoins : Joins operator level tighter) (hp : Sound tighter p)
    (hsingle : ∀ text e next, Renders tighter text e next → Renders level text e next) :
    Sound level (chain operator p) := by
  intro cs e rest h
  unfold Expr.chain at h
  split at h
  · cases h
  · next l behind hfirst =>
    obtain ⟨bs, left, rfl, hbs, hleft⟩ := hp _ _ _ hfirst
    obtain ⟨text, rfl, hlast⟩ := chainTail_sound hjoins hp (hsingle _ _ _ hleft) h
    exact ⟨bs, left ++ text, by simp only [List.append_assoc], hbs, hlast⟩

theorem Sound.operand (hinner : Sound .disjunction inner) : Sound .operand (operand inner) := by
  intro cs e rest h
  obtain ⟨bs, hbs, hcs⟩ := exists_blank_append cs
  unfold Expr.operand at h
  split at h
  · cases h
  next c tail hskip =>
  rw [hskip] at hcs
  split at h
  · next hparen =>
    subst hparen
    split at h
    · cases h
    next e' behind hread =>
    obtain ⟨bs₁, text, rfl, hbs₁, htext⟩ := hinner _ _ _ hread
    obtain ⟨bs₂, hbs₂, hbehind⟩ := exists_blank_append behind
    split at h
    · next rest' hclose =>
      cases h
      rw [hclose] at hbehind
      refine ⟨bs, ['('] ++ bs₁ ++ text ++ bs₂ ++ [')'], ?_, hbs, .parens hbs₁ hbs₂ ?_⟩
      · rw [hcs, hbehind]
        simp
      · rw [hbehind] at htext
        simpa using htext
    · cases h
  split at h
  · next hquote =>
    have hslash : c ≠ '\\' := by rintro rfl; simp at hquote
    obtain ⟨text, s, rfl, hquoted, rfl⟩ := stringTail_sound hslash h
    exact ⟨bs, [c] ++ text ++ [c], by simp [hcs], hbs, .string (by simpa using hquote) hquoted⟩
  split at h
  · next hnumber =>
    have hbegins : c.isDigit = true ∨ c = '-' := by simpa using hnumber
    obtain ⟨n, v, htext, hn, hv, hclear, rfl⟩ := number_sound h ⟨c, tail, rfl, hbegins⟩
    exact ⟨bs, n.text, by rw [hcs, htext, List.append_assoc], hbs, .number hn hv hclear⟩
  split at h
  · next hletter =>
    obtain ⟨text, htext, hword, hnames, hclear⟩ := word_sound h (by simpa using hletter)
    exact ⟨bs, text, by rw [hcs, htext, List.append_assoc], hbs, .word hword hnames hclear⟩
  · cases h

theorem joins_sum : Joins sumOperator .sum .operand := by
  intro cs build rest h
  unfold sumOperator at h
  split at h
  · cases h
    exact ⟨['+'], rfl, fun _ _ _ _ _ _ _ hl hbs hbs' hr => .arith .add hl hbs hbs' hr⟩
  · cases h
    exact ⟨['-'], rfl, fun _ _ _ _ _ _ _ hl hbs hbs' hr => .arith .sub hl hbs hbs' hr⟩
  · cases h

theorem joins_and : Joins andOperator .conjunction .negation := by
  intro cs build rest h
  unfold andOperator at h
  split at h
  · cases h
    exact ⟨['&', '&'], rfl, fun _ _ _ _ _ _ _ hl hbs hbs' hr => .and hl hbs hbs' hr⟩
  · cases h

theorem joins_or : Joins orOperator .disjunction .conjunction := by
  intro cs build rest h
  unfold orOperator at h
  split at h
  · cases h
    exact ⟨['|', '|'], rfl, fun _ _ _ _ _ _ _ hl hbs hbs' hr => .or hl hbs hbs' hr⟩
  · cases h

/-- A comparison sign at the front, the longest one. -/
theorem comparisonOperator_sound {cs rest : List Char} {build : Expr → Expr → Expr}
    (h : comparisonOperator cs = some (build, rest)) :
    ∃ op : Comparison, build = .compare op ∧ cs = op.symbol ++ rest ∧
      (op = .greater ∨ op = .less → Clear (· == '=') rest) := by
  unfold comparisonOperator at h
  split at h <;> cases h
  · exact ⟨.equal, rfl, rfl, by simp⟩
  · exact ⟨.unequal, rfl, rfl, by simp⟩
  · exact ⟨.atLeast, rfl, rfl, by simp⟩
  · exact ⟨.atMost, rfl, rfl, by simp⟩
  · next hlonger => exact ⟨.greater, rfl, rfl, fun _ => clear_of_ne_cons hlonger⟩
  · next hlonger => exact ⟨.less, rfl, rfl, fun _ => clear_of_ne_cons hlonger⟩

theorem Sound.sum (hinner : Sound .disjunction inner) : Sound .sum (sum inner) :=
  hinner.operand.chain joins_sum fun _ _ _ => .ofOperand

theorem Sound.comparison (hinner : Sound .disjunction inner) :
    Sound .comparison (comparison inner) := by
  intro cs e rest h
  unfold Expr.comparison at h
  split at h
  · cases h
  next l behind hleft =>
  obtain ⟨bs, left, rfl, hbs, hl⟩ := hinner.sum _ _ _ hleft
  split at h
  · cases h
    exact ⟨bs, left, rfl, hbs, .ofSum hl⟩
  next build behind' hoperator =>
  split at h
  · cases h
  next r rest' hright =>
  cases h
  obtain ⟨op, rfl, hsymbol, hlongest⟩ := comparisonOperator_sound hoperator
  obtain ⟨bs₁, hbs₁, hbehind⟩ := exists_blank_append behind
  obtain ⟨bs₂, right, rfl, hbs₂, hr⟩ := hinner.sum _ _ _ hright
  have hbehind' : behind = bs₁ ++ op.symbol ++ bs₂ ++ right ++ rest := by
    rw [hbehind, hsymbol]
    simp only [List.append_assoc]
  refine ⟨bs, left ++ bs₁ ++ op.symbol ++ bs₂ ++ right, ?_, hbs, ?_⟩
  · rw [hbehind']
    simp only [List.append_assoc]
  · exact .compare op (hbehind' ▸ hl) hbs₁ hbs₂ hr hlongest

theorem Sound.negationTail (hinner : Sound .disjunction inner) (fuel : Nat) :
    Sound .negation (negationTail inner fuel) := by
  have hcomparison : Sound .negation (Expr.comparison inner) := by
    intro cs e rest h
    obtain ⟨bs, text, hcs, hbs, htext⟩ := hinner.comparison _ _ _ h
    exact ⟨bs, text, hcs, hbs, .ofComparison htext⟩
  induction fuel with
  | zero => exact hcomparison
  | succ fuel ih =>
      intro cs e rest h
      obtain ⟨bs, hbs, hcs⟩ := exists_blank_append cs
      have hskipped : Expr.comparison inner (skipBlanks cs) = .ok (e, rest) →
          ∃ bs text, cs = bs ++ text ++ rest ∧ Blank bs ∧ Renders .negation text e rest := by
        intro h
        obtain ⟨bs', text, hskip, hbs', htext⟩ := hcomparison _ _ _ h
        refine ⟨bs ++ bs', text, ?_, List.forall_mem_append.2 ⟨hbs, hbs'⟩, htext⟩
        rw [hcs, hskip]
        simp only [List.append_assoc]
      rw [Expr.negationTail] at h
      split at h
      · next hskip =>
        rw [← hskip] at h
        exact hskipped h
      · next tail hlonger hskip =>
        cases hread : Expr.negationTail inner fuel tail with
        | error fault => rw [hread] at h; cases h
        | ok result =>
            obtain ⟨e', rest'⟩ := result
            rw [hread] at h
            cases h
            obtain ⟨bs', text, rfl, hbs', htext⟩ := ih _ _ _ hread
            refine ⟨bs, ['!'] ++ bs' ++ text, ?_, hbs, .not hbs' htext (clear_of_ne_cons hlonger)⟩
            rw [hcs, hskip]
            simp
      · exact hskipped h

theorem Sound.negation (hinner : Sound .disjunction inner) : Sound .negation (negation inner) :=
  fun cs => hinner.negationTail cs.length cs

theorem Sound.conjunction (hinner : Sound .disjunction inner) :
    Sound .conjunction (conjunction inner) :=
  hinner.negation.chain joins_and fun _ _ _ => .ofNegation

theorem Sound.nested (depth : Nat) : Sound .disjunction (nested depth) := by
  induction depth with
  | zero =>
      intro cs e rest h
      cases h
  | succ depth ih => exact ih.conjunction.chain joins_or fun _ _ _ => .ofConjunction

/-- What is left behind a rendering is no longer than the text. -/
theorem Sound.length_le (h : Sound level p) {cs rest : List Char} {e : Expr}
    (hread : p cs = .ok (e, rest)) : rest.length ≤ cs.length := by
  obtain ⟨bs, text, rfl, -, -⟩ := h cs e rest hread
  rw [List.length_append]
  exact Nat.le_add_left _ _

end Sound

end Expr
end Statechart
