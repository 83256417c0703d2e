import Statechart.Proofs.Expr.Soundness

/-!
# What is written for an expression is read

The induction is along the rendering.  What has to be known of the text behind it is that no
operator goes on with it: a rendering is put in front of a closing parenthesis, of an operator
of a looser level, or of nothing, and tokens end by themselves.

Two more things need care.  The grammar groups to the left by recursion on the left side and
the parser does so in a loop, so of a level with a loop it is proved that the loop gets to the
end of the rendering and has fuel left for what comes behind (`Reaches`).  And `!` and
parentheses are bounded by fuel and depth, for which the number of characters is enough.
-/

namespace Statechart
namespace Expr

open Text

/-- Holds of the characters with which a rendering of a level begins. -/
def Level.begins : Level → Char → Bool
  | operand, c | sum, c | comparison, c => startsOperand c
  | negation, c | conjunction, c | disjunction, c => startsOperand c || c == '!'

theorem Renders.head {level : Level} {text next : List Char} {e : Expr}
    (h : Renders level text e next) : ∃ c tail, text = c :: tail ∧ level.begins c = true := by
  induction h with
  | parens => exact ⟨'(', _, rfl, rfl⟩
  | string hquote =>
      refine ⟨_, _, rfl, ?_⟩
      rcases hquote with rfl | rfl <;> rfl
  | number hn =>
      obtain ⟨c, tail, htext, hc⟩ := hn.head
      refine ⟨c, tail, htext, ?_⟩
      rcases hc with hc | rfl
      · simp [Level.begins, startsOperand, hc]
      · rfl
  | word hword =>
      obtain ⟨⟨c, tail, rfl, hc⟩, -⟩ := hword
      refine ⟨c, tail, rfl, ?_⟩
      rcases hc with hc | rfl
      · simp [Level.begins, startsOperand, hc]
      · decide
  | not => exact ⟨'!', _, rfl, rfl⟩
  | ofOperand _ ih => exact ih
  | ofSum _ ih => exact ih
  | ofComparison _ ih =>
      obtain ⟨c, tail, rfl, hc⟩ := ih
      exact ⟨c, tail, rfl, Bool.or_eq_true_iff.2 (.inl hc)⟩
  | ofNegation _ ih => exact ih
  | ofConjunction _ ih => exact ih
  | arith _ _ _ _ _ ih | and _ _ _ _ ih | or _ _ _ _ ih =>
      obtain ⟨c, tail, rfl, hc⟩ := ih
      exact ⟨c, _, rfl, hc⟩
  | compare _ _ _ _ _ _ ih =>
      obtain ⟨c, tail, rfl, hc⟩ := ih
      exact ⟨c, _, rfl, hc⟩

/-- The parser reads a text behind any blanks and leaves what stands behind it. -/
def Reads (p : Parser Expr) (text : List Char) (e : Expr) (next : List Char) : Prop :=
  ∀ bs, Blank bs → p (bs ++ text ++ next) = .ok (e, next)

/-- Reading operands and operators in turn gets to the end of a text.  The steps that it takes
are paid for by the characters that they read. -/
def Reaches (operator : Operator) (p : Parser Expr) (text : List Char) (e : Expr)
    (next : List Char) : Prop :=
  ∀ bs, Blank bs → ∃ first rest steps, p (bs ++ text ++ next) = .ok (first, rest) ∧
    steps + next.length ≤ rest.length ∧
    ∀ fuel, chainTail operator p (steps + fuel) first rest = chainTail operator p fuel e next

section Complete

variable {operator : Operator} {p : Parser Expr} {text next : List Char} {e : Expr}

theorem Reads.reaches (h : Reads p text e next) : Reaches operator p text e next :=
  fun bs hbs => ⟨e, next, 0, h bs hbs, by simp, fun fuel => by rw [Nat.zero_add]⟩

theorem skipBlanks_symbol {bs symbol bs' right : List Char} (hbs : Blank bs)
    (hsymbol : Clear isBlank (symbol ++ (bs' ++ right ++ next))) :
    skipBlanks (bs ++ symbol ++ bs' ++ right ++ next) = symbol ++ (bs' ++ right ++ next) := by
  rw [← skipBlanks_append hbs hsymbol]
  simp only [List.append_assoc]

theorem Reaches.join {left symbol bs bs' right : List Char} {l r : Expr}
    {build : Expr → Expr → Expr}
    (hleft : Reaches operator p left l (bs ++ symbol ++ bs' ++ right ++ next))
    (hbs : Blank bs) (hbs' : Blank bs') (hright : Reads p right r next)
    (hsymbol : Clear isBlank (symbol ++ (bs' ++ right ++ next))) (hnonempty : symbol ≠ [])
    (hoperator : operator (symbol ++ (bs' ++ right ++ next)) =
      some (build, bs' ++ right ++ next)) :
    Reaches operator p (left ++ bs ++ symbol ++ bs' ++ right) (build l r) next := by
  intro bs₀ hbs₀
  obtain ⟨first, rest, steps, hfirst, hlength, hsteps⟩ := hleft bs₀ hbs₀
  have hpos : 0 < symbol.length := List.length_pos_of_ne_nil hnonempty
  refine ⟨first, rest, steps + 1, ?_, ?_, fun fuel => ?_⟩
  · simpa only [List.append_assoc] using hfirst
  · simp only [List.length_append] at hlength
    omega
  · rw [Nat.add_assoc, hsteps, Nat.add_comm 1 fuel, chainTail, skipBlanks_symbol hbs hsymbol,
      hoperator]
    dsimp only
    rw [hright bs' hbs']

theorem Reaches.reads (h : Reaches operator p text e next)
    (hstop : operator (skipBlanks next) = none) : Reads (chain operator p) text e next := by
  intro bs hbs
  obtain ⟨first, rest, steps, hfirst, hlength, hsteps⟩ := h bs hbs
  obtain ⟨fuel, hfuel⟩ : ∃ fuel, rest.length = steps + fuel := ⟨rest.length - steps, by omega⟩
  rw [chain, hfirst]
  dsimp only
  rw [hfuel, hsteps]
  cases fuel with
  | zero => rfl
  | succ fuel => rw [chainTail, hstop]

/-! ### Operands -/

variable {inner : Parser Expr} {bs : List Char} {c : Char} {tail : List Char}

theorem skipBlanks_begins (hbs : Blank bs) (hc : startsOperand c = true) :
    skipBlanks (bs ++ c :: tail) = c :: tail :=
  skipBlanks_append hbs (clear_cons.2 (isBlank_of_startsOperand hc))

theorem operand_parens (hbs : Blank bs) {next' : List Char}
    (hinner : inner tail = .ok (e, next)) (hclose : skipBlanks next = ')' :: next') :
    operand inner (bs ++ '(' :: tail) = .ok (e, next') := by
  rw [operand, skipBlanks_begins hbs rfl]
  dsimp only
  rw [if_pos rfl, hinner]
  dsimp only
  rw [hclose]
  rfl

theorem operand_string (hbs : Blank bs) (hc : c = '"' ∨ c = '\'') :
    operand inner (bs ++ c :: tail) = stringTail c [] tail := by
  rcases hc with rfl | rfl <;> rw [operand, skipBlanks_begins hbs rfl] <;> rfl

theorem operand_number (hbs : Blank bs) (hc : c.isDigit = true ∨ c = '-') :
    operand inner (bs ++ c :: tail) = number (c :: tail) := by
  have hparen : c ≠ '(' := by rintro rfl; simp at hc
  have hdouble : c ≠ '"' := by rintro rfl; simp at hc
  have hsingle : c ≠ '\'' := by rintro rfl; simp at hc
  have hbegins : startsOperand c = true := by rcases hc with hc | rfl <;> simp [startsOperand, *]
  rw [operand, skipBlanks_begins hbs hbegins]
  simp [hparen, hdouble, hsingle, hc]

theorem operand_word (hbs : Blank bs) (hc : isLetter c = true ∨ c = '_') :
    operand inner (bs ++ c :: tail) = word (c :: tail) := by
  have hfirst : (isLetter c || c == '_') = true := by simpa using hc
  have hparen : c ≠ '(' := by rintro rfl; cases hfirst
  have hdouble : c ≠ '"' := by rintro rfl; cases hfirst
  have hsingle : c ≠ '\'' := by rintro rfl; cases hfirst
  have hminus : c ≠ '-' := by rintro rfl; cases hfirst
  have hdigit : c.isDigit = false := by
    rcases hc with hc | rfl
    · exact isDigit_of_isLetter hc
    · rfl
  have hbegins : startsOperand c = true := by rcases hc with hc | rfl <;> simp [startsOperand, *]
  rw [operand, skipBlanks_begins hbs hbegins]
  simp [hparen, hdouble, hsingle, hminus, hdigit, hc]

end Complete

/-! ### Levels -/

/-- The operators with which a rendering of a level may go on. -/
def Level.operators : Level → List Operator
  | operand => []
  | sum => [sumOperator]
  | comparison | negation => [sumOperator, comparisonOperator]
  | conjunction => [sumOperator, comparisonOperator, andOperator]
  | disjunction => [sumOperator, comparisonOperator, andOperator, orOperator]

/-- No operator of a level stands at the front. -/
def Stops (level : Level) (cs : List Char) : Prop :=
  ∀ operator ∈ level.operators, operator cs = none

/-- How a rendering of a level is read, if parentheses may nest less than `depth` deep. -/
def Completes (depth : Nat) : Level → List Char → Expr → List Char → Prop
  | .operand, text, e, next => Reads (operand (nested depth)) text e next
  | .sum, text, e, next => Reaches sumOperator (operand (nested depth)) text e next
  | .comparison, text, e, next => Stops .comparison (skipBlanks next) →
      Reads (comparison (nested depth)) text e next
  | .negation, text, e, next => Stops .negation (skipBlanks next) →
      ∀ fuel, text.length ≤ fuel → Reads (negationTail (nested depth) fuel) text e next
  | .conjunction, text, e, next => Stops .negation (skipBlanks next) →
      Reaches andOperator (negation (nested depth)) text e next
  | .disjunction, text, e, next => Stops .conjunction (skipBlanks next) →
      Reaches orOperator (conjunction (nested depth)) text e next

theorem comparisonOperator_symbol (op : Comparison) {rest : List Char}
    (h : op = .greater ∨ op = .less → Clear (· == '=') rest) :
    comparisonOperator (op.symbol ++ rest) = some (.compare op, rest) := by
  have hne : op = .greater ∨ op = .less → ∀ tail, rest ≠ '=' :: tail := by
    rintro hop tail rfl
    simpa using clear_cons.1 (h hop)
  cases op <;> try rfl
  · exact comparisonOperator.eq_5 _ (fun tail heq => hne (.inl rfl) tail heq)
  · exact comparisonOperator.eq_6 _ (fun tail heq => hne (.inr rfl) tail heq)

theorem Stops.mono {level tighter : Level} {cs : List Char} (h : Stops level cs)
    (hsubset : tighter.operators ⊆ level.operators) : Stops tighter cs :=
  fun operator hoperator => h operator (hsubset hoperator)

theorem stops_parens (cs : List Char) : Stops .disjunction (')' :: cs) := by
  simp [Stops, Level.operators, sumOperator, comparisonOperator, andOperator, orOperator]

theorem stops_nil : Stops .disjunction [] := by
  simp [Stops, Level.operators, sumOperator, comparisonOperator, andOperator, orOperator]

theorem stops_or (cs : List Char) : Stops .conjunction (['|', '|'] ++ cs) := by
  simp [Stops, Level.operators, sumOperator, comparisonOperator, andOperator]

theorem stops_and (cs : List Char) : Stops .negation (['&', '&'] ++ cs) := by
  simp [Stops, Level.operators, sumOperator, comparisonOperator]

section Levels

variable {depth : Nat} {text next : List Char} {e : Expr}

theorem Completes.nested (h : Completes depth .disjunction text e next)
    (hstops : Stops .disjunction (skipBlanks next)) :
    Reads (nested (depth + 1)) text e next := by
  have hinside : Stops .conjunction (skipBlanks next) :=
    hstops.mono (by simp [Level.operators])
  exact (h hinside).reads (hstops orOperator (by simp [Level.operators]))

theorem Completes.negation (h : Completes depth .negation text e next)
    (hstops : Stops .negation (skipBlanks next)) :
    Reads (negation (Expr.nested depth)) text e next :=
  fun bs hbs => h hstops _ (by simp only [List.length_append]; omega) bs hbs

theorem Completes.conjunction (h : Completes depth .conjunction text e next)
    (hstops : Stops .conjunction (skipBlanks next)) :
    Reads (conjunction (Expr.nested depth)) text e next := by
  have hinside : Stops .negation (skipBlanks next) := hstops.mono (by simp [Level.operators])
  exact (h hinside).reads (hstops andOperator (by simp [Level.operators]))

theorem Completes.sum (h : Completes depth .sum text e next)
    (hstops : sumOperator (skipBlanks next) = none) :
    Reads (sum (Expr.nested depth)) text e next :=
  Reaches.reads h hstops

theorem completes_parens {bs bs' : List Char} (hbs : Blank bs) (hbs' : Blank bs')
    (h : Completes depth .disjunction text e (bs' ++ [')'] ++ next)) :
    Completes (depth + 1) .operand (['('] ++ bs ++ text ++ bs' ++ [')']) e next := by
  intro bs₀ hbs₀
  have hclose : skipBlanks (bs' ++ [')'] ++ next) = ')' :: next := by
    rw [List.append_assoc]
    exact skipBlanks_append hbs' (clear_cons.2 rfl)
  have hstops : Stops .disjunction (skipBlanks (bs' ++ [')'] ++ next)) :=
    hclose ▸ stops_parens next
  have hread := operand_parens hbs₀ (h.nested hstops bs hbs) hclose
  simpa using hread

theorem completes_string {quote : Char} {cs s : List Char} (hquote : quote = '"' ∨ quote = '\'')
    (hquoted : Quoted quote cs s) : Completes depth .operand ([quote] ++ cs ++ [quote])
      (literal (.str (String.ofList s))) next := by
  intro bs hbs
  have hslash : quote ≠ '\\' := by rintro rfl; simp at hquote
  have hread : operand (Expr.nested depth) (bs ++ quote :: (cs ++ [quote] ++ next)) =
      stringTail quote [] (cs ++ [quote] ++ next) := operand_string hbs hquote
  rw [stringTail_complete hslash hquoted] at hread
  simpa using hread

theorem completes_number {n : Numeral} {v : Value} (hn : n.Written) (hv : n.Means v)
    (hnext : Clear n.continues next) : Completes depth .operand n.text (literal v) next := by
  intro bs hbs
  obtain ⟨c, tail, htext, hc⟩ := hn.head
  have hread := number_complete hn hv hnext
  rw [htext] at hread ⊢
  rw [List.append_assoc]
  exact (operand_number hbs hc).trans hread

theorem completes_word (hword : IsWord text) (hnames : Names text e)
    (hnext : Clear isWordChar next) : Completes depth .operand text e next := by
  intro bs hbs
  have hread := word_complete hword hnames hnext
  obtain ⟨⟨c, tail, rfl, hc⟩, -⟩ := hword
  rw [List.append_assoc]
  exact (operand_word hbs hc).trans hread

theorem completes_compare {left bs bs' right : List Char} {l r : Expr} (op : Comparison)
    (hleft : Completes depth .sum left l (bs ++ op.symbol ++ bs' ++ right ++ next))
    (hbs : Blank bs) (hbs' : Blank bs') (hright : Completes depth .sum right r next)
    (hlongest : op = .greater ∨ op = .less → Clear (· == '=') (bs' ++ right ++ next)) :
    Completes depth .comparison (left ++ bs ++ op.symbol ++ bs' ++ right) (.compare op l r)
      next := by
  intro hstops bs₀ hbs₀
  have hsymbol : Clear isBlank (op.symbol ++ (bs' ++ right ++ next)) := by
    cases op <;> exact clear_cons.2 rfl
  have hskip := skipBlanks_symbol hbs hsymbol
  have hsum : sumOperator (skipBlanks (bs ++ op.symbol ++ bs' ++ right ++ next)) = none := by
    rw [hskip]
    cases op <;> rfl
  have hl := hleft.sum hsum bs₀ hbs₀
  have hr := hright.sum (hstops sumOperator (by simp [Level.operators])) bs' hbs'
  have happend : bs₀ ++ (left ++ bs ++ op.symbol ++ bs' ++ right) ++ next =
      bs₀ ++ left ++ (bs ++ op.symbol ++ bs' ++ right ++ next) := by
    simp only [List.append_assoc]
  rw [happend, comparison, hl]
  dsimp only
  rw [hskip, comparisonOperator_symbol op hlongest]
  dsimp only
  rw [hr]

theorem completes_ofSum (h : Completes depth .sum text e next) :
    Completes depth .comparison text e next := by
  intro hstops bs hbs
  rw [comparison, h.sum (hstops sumOperator (by simp [Level.operators])) bs hbs]
  dsimp only
  rw [hstops comparisonOperator (by simp [Level.operators])]

/-- A comparison does not begin with `!`, so it is read when no more of these are. -/
theorem completes_ofComparison (hbegins : ∃ c tail, text = c :: tail ∧ startsOperand c = true)
    (h : Completes depth .comparison text e next) : Completes depth .negation text e next := by
  intro hstops fuel _ bs hbs
  have hcomparison := h hstops
  cases fuel with
  | zero => exact hcomparison bs hbs
  | succ fuel =>
      have hread := hcomparison [] (List.forall_mem_nil _)
      obtain ⟨c, tail, rfl, hc⟩ := hbegins
      have hnot : c ≠ '!' := by rintro rfl; cases hc
      rw [negationTail, List.append_assoc, List.cons_append, skipBlanks_begins hbs hc]
      split
      · next heq => exact absurd (List.cons.inj heq).1 hnot
      · next heq => exact absurd (List.cons.inj heq).1 hnot
      · exact hread

theorem completes_not {bs : List Char} (hbs : Blank bs) (h : Completes depth .negation text e next)
    (hlongest : Clear (· == '=') (bs ++ text ++ next)) :
    Completes depth .negation (['!'] ++ bs ++ text) (.not e) next := by
  intro hstops fuel hfuel bs₀ hbs₀
  simp only [List.length_append, List.length_singleton] at hfuel
  obtain ⟨fuel, rfl⟩ : ∃ n, fuel = n + 1 := ⟨fuel - 1, by omega⟩
  have hread := h hstops fuel (by omega) bs hbs
  have hskip : skipBlanks (bs₀ ++ (['!'] ++ bs ++ text) ++ next) =
      '!' :: (bs ++ text ++ next) := by
    have happend : bs₀ ++ (['!'] ++ bs ++ text) ++ next = bs₀ ++ '!' :: (bs ++ text ++ next) := by
      simp
    rw [happend]
    exact skipBlanks_append hbs₀ (clear_cons.2 rfl)
  rw [negationTail, hskip]
  split
  · next rest heq =>
    rw [List.cons.injEq] at heq
    rw [heq.2] at hlongest
    simp [clear_cons] at hlongest
  · next rest _ heq =>
    cases heq
    rw [hread]
    rfl
  · next hne =>
    exact absurd rfl (hne _)

theorem completes_and {left bs bs' right : List Char} {l r : Expr}
    (hleft : Completes depth .conjunction left l (bs ++ ['&', '&'] ++ bs' ++ right ++ next))
    (hbs : Blank bs) (hbs' : Blank bs') (hright : Completes depth .negation right r next) :
    Completes depth .conjunction (left ++ bs ++ ['&', '&'] ++ bs' ++ right) (.and l r) next := by
  intro hstops
  have hsymbol : Clear isBlank (['&', '&'] ++ (bs' ++ right ++ next)) := clear_cons.2 rfl
  have hl := hleft (skipBlanks_symbol hbs hsymbol ▸ stops_and _)
  exact hl.join hbs hbs' (hright.negation hstops) hsymbol (List.cons_ne_nil _ _) rfl

theorem completes_or {left bs bs' right : List Char} {l r : Expr}
    (hleft : Completes depth .disjunction left l (bs ++ ['|', '|'] ++ bs' ++ right ++ next))
    (hbs : Blank bs) (hbs' : Blank bs') (hright : Completes depth .conjunction right r next) :
    Completes depth .disjunction (left ++ bs ++ ['|', '|'] ++ bs' ++ right) (.or l r) next := by
  intro hstops
  have hsymbol : Clear isBlank (['|', '|'] ++ (bs' ++ right ++ next)) := clear_cons.2 rfl
  have hl := hleft (skipBlanks_symbol hbs hsymbol ▸ stops_or _)
  exact hl.join hbs hbs' (hright.conjunction hstops) hsymbol (List.cons_ne_nil _ _) rfl

end Levels

theorem completes {level : Level} {text next : List Char} {e : Expr}
    (h : Renders level text e next) (depth : Nat) (hdepth : text.length ≤ depth) :
    Completes depth level text e next := by
  induction h generalizing depth with
  | parens hbs₁ hbs₂ _ ih =>
      simp only [List.length_append, List.length_singleton] at hdepth
      obtain ⟨depth, rfl⟩ : ∃ d, depth = d + 1 := ⟨depth - 1, by omega⟩
      exact completes_parens hbs₁ hbs₂ (ih depth (by omega))
  | string hquote hquoted => exact completes_string hquote hquoted
  | number hn hv hnext => exact completes_number hn hv hnext
  | word hword hnames hnext => exact completes_word hword hnames hnext
  | ofOperand _ ih => exact (ih depth hdepth).reaches
  | arith op _ hbs hbs' _ ihl ihr =>
      simp only [List.length_append] at hdepth
      refine (ihl depth (by omega)).join hbs hbs' (ihr depth (by omega)) ?_ ?_ ?_ <;> cases op
      exacts [clear_cons.2 rfl, clear_cons.2 rfl, List.cons_ne_nil _ _, List.cons_ne_nil _ _,
        rfl, rfl]
  | ofSum _ ih => exact completes_ofSum (ih depth hdepth)
  | compare op _ hbs hbs' _ hlongest ihl ihr =>
      simp only [List.length_append] at hdepth
      exact completes_compare op (ihl depth (by omega)) hbs hbs' (ihr depth (by omega)) hlongest
  | ofComparison hcomparison ih =>
      exact completes_ofComparison hcomparison.head (ih depth hdepth)
  | not hbs _ hlongest ih =>
      simp only [List.length_append] at hdepth
      exact completes_not hbs (ih depth (by omega)) hlongest
  | ofNegation _ ih => exact fun hstops => ((ih depth hdepth).negation hstops).reaches
  | and _ hbs hbs' _ ihl ihr =>
      simp only [List.length_append] at hdepth
      exact completes_and (ihl depth (by omega)) hbs hbs' (ihr depth (by omega))
  | ofConjunction _ ih => exact fun hstops => ((ih depth hdepth).conjunction hstops).reaches
  | or _ hbs hbs' _ ihl ihr =>
      simp only [List.length_append] at hdepth
      exact completes_or (ihl depth (by omega)) hbs hbs' (ihr depth (by omega))

/-! ## Whole texts -/

/-- A rendering is read with as much depth as it has characters. -/
theorem Renders.nested_eq_ok {text : List Char} {e : Expr} (h : Renders .disjunction text e []) :
    nested (text.length + 1) text = .ok (e, []) := by
  have hread := (completes h text.length le_rfl).nested stops_nil [] (List.forall_mem_nil _)
  rwa [List.nil_append, List.append_nil] at hread

/-- No text is written for two expressions. -/
theorem Renders.unique {text : List Char} {e e' : Expr} (h : Renders .disjunction text e [])
    (h' : Renders .disjunction text e' []) : e = e' := by
  have hread := h.nested_eq_ok
  rw [h'.nested_eq_ok] at hread
  cases hread
  rfl

end Expr
end Statechart
