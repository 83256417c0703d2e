import Statechart.Expr.Parser

/-!
# The grammar of expressions

`Renders level text e next` says that the text is written for the expression `e` by the
rule of a level when `next` stands behind it.  A text is put together from the texts of its
parts, with blanks between the tokens, so the rules say nothing about reading.  What stands
behind matters for one thing only: a token is the longest one at its place, that is, what
follows does not continue it.

Joined operands group to the left: the left side of `||` is a disjunction and its right side
a conjunction, and so on for `&&` and for `+` and `-`.  A comparison joins two sums, so
comparisons are not chained.
-/

namespace Statechart

/-- The characters of the sign of an arithmetic operator. -/
def Arithmetic.symbol : Arithmetic → List Char
  | add => ['+']
  | sub => ['-']

/-- The characters of the sign of a comparison operator. -/
def Comparison.symbol : Comparison → List Char
  | equal => ['=', '=']
  | unequal => ['!', '=']
  | greater => ['>']
  | atLeast => ['>', '=']
  | less => ['<']
  | atMost => ['<', '=']

namespace Expr

open Text

/-- Characters that may stand between tokens. -/
def Blank (cs : List Char) : Prop :=
  ∀ c ∈ cs, isBlank c = true

/-- No character of a class stands at the front. -/
def Clear (kind : Char → Bool) (cs : List Char) : Prop :=
  ∀ c ∈ cs.head?, kind c = false

/-! ## Tokens -/

/-- What stands between the quotes of a string, and the characters that are meant. -/
inductive Quoted (quote : Char) : List Char → List Char → Prop where
  | nil : Quoted quote [] []
  | plain {c : Char} {cs s : List Char} : c ≠ quote → c ≠ '\\' → Quoted quote cs s →
      Quoted quote (c :: cs) (c :: s)
  /-- A backslash stands before any character, which is meant as it is. -/
  | escaped {c : Char} {cs s : List Char} : Quoted quote cs s →
      Quoted quote ('\\' :: c :: cs) (c :: s)

/-- A number as it is written: a minus sign or none, the digits before the point, and those
behind it if there is a point. -/
structure Numeral where
  negative : Bool
  whole : List Char
  fraction : Option (List Char)

namespace Numeral

/-- The characters of a numeral. -/
def text (n : Numeral) : List Char :=
  (if n.negative then ['-'] else []) ++ n.whole ++
    match n.fraction with
    | none => []
    | some digits => '.' :: digits

/-- There are digits where digits belong, and the numeral begins with a minus sign or a
digit.  There may be no digit at all. -/
structure Written (n : Numeral) : Prop where
  whole : ∀ c ∈ n.whole, c.isDigit = true
  fraction : ∀ c ∈ n.fraction.getD [], c.isDigit = true
  begins : n.negative = true ∨ n.whole ≠ []

/-- The integer that the digits before the point write. -/
def int (n : Numeral) : Int :=
  if n.negative then -(digitsValue n.whole : Int) else digitsValue n.whole

/-- The float nearest to what all digits write. -/
def float (n : Numeral) : Float :=
  decimal n.negative n.whole (n.fraction.getD [])

/-- A numeral without a point is an integer of 64 bits. -/
def IsInt (n : Numeral) : Prop :=
  n.fraction = none ∧ Value.fitsInt n.int = true

/-- The number that a numeral means.  Without a digit it means none. -/
inductive Means (n : Numeral) : Value → Prop where
  | int : n.IsInt → n.whole ≠ [] → Means n (.int n.int)
  /-- A float has to be finite. -/
  | float : ¬ n.IsInt → n.whole ++ n.fraction.getD [] ≠ [] → n.float.isFinite = true →
      Means n (.float n.float)

/-- The characters that would continue a numeral. -/
def continues (n : Numeral) (c : Char) : Bool :=
  c.isDigit || n.fraction.isNone && c == '.'

end Numeral

/-- A word begins with a letter or an underscore and consists of letters, numerals,
underscores and dots. -/
def IsWord (cs : List Char) : Prop :=
  (∃ c rest, cs = c :: rest ∧ (isLetter c = true ∨ c = '_')) ∧ ∀ c ∈ cs, isWordChar c = true

/-- What a word stands for: a constant or a variable. -/
inductive Names : List Char → Expr → Prop where
  | true : Names "true".toList (literal (.bool true))
  | false : Names "false".toList (literal (.bool false))
  | null : Names "null".toList (literal .null)
  /-- A path has no dot at its end and no two dots in a row. -/
  | path {cs : List Char} : String.ofList cs ∉ ["true", "false", "null"] →
      cs.getLast? ≠ some '.' → ¬ ['.', '.'] <:+: cs → Names cs (path (String.ofList cs))

/-! ## Expressions -/

/-- The levels of the grammar, tightest binding first. -/
inductive Level where
  | operand
  | sum
  | comparison
  | negation
  | conjunction
  | disjunction

/-- The text that is written for an expression at a level, and what stands behind it. -/
inductive Renders : Level → List Char → Expr → List Char → Prop where
  | parens {bs cs bs' next : List Char} {e : Expr} : Blank bs → Blank bs' →
      Renders .disjunction cs e (bs' ++ [')'] ++ next) →
      Renders .operand (['('] ++ bs ++ cs ++ bs' ++ [')']) e next
  | string {quote : Char} {cs s next : List Char} : quote = '"' ∨ quote = '\'' →
      Quoted quote cs s →
      Renders .operand ([quote] ++ cs ++ [quote]) (literal (.str (String.ofList s))) next
  | number {n : Numeral} {v : Value} {next : List Char} : n.Written → n.Means v →
      Clear n.continues next → Renders .operand n.text (literal v) next
  | word {cs next : List Char} {e : Expr} : IsWord cs → Names cs e →
      Clear isWordChar next → Renders .operand cs e next
  | ofOperand {cs next : List Char} {e : Expr} :
      Renders .operand cs e next → Renders .sum cs e next
  | arith {left bs bs' right next : List Char} {l r : Expr} (op : Arithmetic) :
      Renders .sum left l (bs ++ op.symbol ++ bs' ++ right ++ next) → Blank bs → Blank bs' →
      Renders .operand right r next →
      Renders .sum (left ++ bs ++ op.symbol ++ bs' ++ right) (.arith op l r) next
  | ofSum {cs next : List Char} {e : Expr} :
      Renders .sum cs e next → Renders .comparison cs e next
  | compare {left bs bs' right next : List Char} {l r : Expr} (op : Comparison) :
      Renders .sum left l (bs ++ op.symbol ++ bs' ++ right ++ next) → Blank bs → Blank bs' →
      Renders .sum right r next →
      (op = .greater ∨ op = .less → Clear (· == '=') (bs' ++ right ++ next)) →
      Renders .comparison (left ++ bs ++ op.symbol ++ bs' ++ right) (.compare op l r) next
  | ofComparison {cs next : List Char} {e : Expr} :
      Renders .comparison cs e next → Renders .negation cs e next
  /-- A `!` before `=` would be the start of another token. -/
  | not {bs cs next : List Char} {e : Expr} : Blank bs → Renders .negation cs e next →
      Clear (· == '=') (bs ++ cs ++ next) → Renders .negation (['!'] ++ bs ++ cs) (.not e) next
  | ofNegation {cs next : List Char} {e : Expr} :
      Renders .negation cs e next → Renders .conjunction cs e next
  | and {left bs bs' right next : List Char} {l r : Expr} :
      Renders .conjunction left l (bs ++ ['&', '&'] ++ bs' ++ right ++ next) →
      Blank bs → Blank bs' → Renders .negation right r next →
      Renders .conjunction (left ++ bs ++ ['&', '&'] ++ bs' ++ right) (.and l r) next
  | ofConjunction {cs next : List Char} {e : Expr} :
      Renders .conjunction cs e next → Renders .disjunction cs e next
  | or {left bs bs' right next : List Char} {l r : Expr} :
      Renders .disjunction left l (bs ++ ['|', '|'] ++ bs' ++ right ++ next) →
      Blank bs → Blank bs' → Renders .conjunction right r next →
      Renders .disjunction (left ++ bs ++ ['|', '|'] ++ bs' ++ right) (.or l r) next

end Expr
end Statechart
