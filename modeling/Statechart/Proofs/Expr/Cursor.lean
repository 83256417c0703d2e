import Mathlib.Logic.Function.Iterate
import Statechart.Expr.Parser

/-!
# Reading with a cursor

Expressions can be read without a list of the characters that are left: the parser keeps the
text and a cursor in it, a number of bytes, and looks at what stands behind the cursor.  A look
cuts the text, and a cut at a byte inside of a character or outside of the text is none.  The
procedures of this parser move the cursor by a byte, by two or by a character, and call each
other; a loop is a procedure that calls itself for its next round.

Procedures are given as `Code`, and a machine runs it step by step with the calls that are
active.  Nothing about the machine ensures that the cursor stands between two characters, or
that a run ends.  A cut that is none makes it panic.
-/

namespace Statechart
namespace Expr
namespace Cursor

open Text

/-- The text in which the cursor moves: blanks at the ends do not belong to it. -/
def input (text : String) : List Char := trimChars text.toList

/-! ## Cutting texts -/

/-- Cuts a text at a byte. -/
def cut? : Nat → List Char → Option (List Char × List Char)
  | 0, cs => some ([], cs)
  | _ + 1, [] => none
  | n + 1, c :: cs =>
    if c.utf8Size ≤ n + 1 then
      (cut? (n + 1 - c.utf8Size) cs).map fun (front, behind) => (c :: front, behind)
    else none

/-- The text between two bytes. -/
def between? (start stop : Nat) (cs : List Char) : Option (List Char) :=
  if start ≤ stop then
    (cut? stop cs).bind fun (front, _) => (cut? start front).map fun (_, text) => text
  else none

/-! ## Procedures -/

/-- The classes of characters over which a loop runs. -/
inductive Class where
  | blank
  | digit
  | word

def Class.holds : Class → Char → Bool
  | blank => isBlank
  | digit => Char.isDigit
  | word => isWordChar

/-- By how many bytes a loop moves the cursor over a character. -/
def Class.width : Class → Char → Nat
  | digit, _ => 1
  | _, c => c.utf8Size

/-- The levels of the grammar at which operands are joined by any number of operators. -/
inductive Joined where
  | disjunction
  | conjunction
  | sum

/-- The procedures that read a part of an expression. -/
inductive Rule where
  | whole
  | joined (level : Joined)
  /-- The operators of a level and their right operands; `left` was read already. -/
  | joinedRest (level : Joined) (left : Expr)
  | negation
  | comparison
  | operand
  | string
  /-- A string behind its quote; `done` was read already, the last character first. -/
  | stringRest (quote : Char) (done : List Char)
  | number
  | word

/-- All procedures. -/
inductive Procedure where
  /-- Moves the cursor over the characters of a class. -/
  | skip (kind : Class)
  | rule (rule : Rule)

/-- What a procedure gives back. -/
def Procedure.Answer : Procedure → Type
  | skip _ => Unit
  | rule _ => Expr

/-- Numbers the procedures, so that a procedure calls one of a greater number only behind its
own place.  What a loop carries from round to round makes no difference. -/
def Rule.rank : Rule → Nat
  | whole => 14
  | joined .disjunction => 13
  | joined .conjunction => 12
  | negation => 11
  | comparison => 10
  | joined .sum => 9
  | operand => 8
  | string => 7
  | number => 6
  | word => 5
  | joinedRest .disjunction _ => 4
  | joinedRest .conjunction _ => 3
  | joinedRest .sum _ => 2
  | stringRest _ _ => 1

def Procedure.rank : Procedure → Nat
  | skip _ => 0
  | rule r => r.rank

/-! ## Code -/

/-- What a procedure does: it looks at the text, moves the cursor and calls procedures. -/
inductive Code (α : Type) where
  | done (answer : α)
  | fail (error : ExpressionError)
  /-- The character behind the cursor. -/
  | peek (next : Option Char → Code α)
  /-- Whether some characters stand behind the cursor. -/
  | looksAt (symbol : List Char) (next : Bool → Code α)
  /-- The text from a byte to the cursor. -/
  | taken (start : Nat) (next : List Char → Code α)
  | cursor (next : Nat → Code α)
  | advance (width : Nat) (next : Code α)
  | call (p : Procedure) (next : p.Answer → Code α)

namespace Code

def bind {α β : Type} : Code α → (α → Code β) → Code β
  | done answer, f => f answer
  | fail error, _ => fail error
  | peek next, f => peek fun c => (next c).bind f
  | looksAt symbol next, f => looksAt symbol fun b => (next b).bind f
  | taken start next, f => taken start fun cs => (next cs).bind f
  | cursor next, f => cursor fun n => (next n).bind f
  | advance width next, f => advance width (next.bind f)
  | call p next, f => call p fun answer => (next answer).bind f

instance : Monad Code where
  pure := done
  bind := bind

end Code

def peek : Code (Option Char) := .peek .done

def looksAt (symbol : List Char) : Code Bool := .looksAt symbol .done

def taken (start : Nat) : Code (List Char) := .taken start .done

def cursor : Code Nat := .cursor .done

def advance (width : Nat) : Code Unit := .advance width (.done ())

def skip (kind : Class) : Code Unit := .call (.skip kind) .done

def read (rule : Rule) : Code Expr := .call (.rule rule) .done

/-! ## Operators -/

/-- The sign of an operator, its number of bytes, and what it builds. -/
structure Sign where
  symbol : List Char
  width : Nat
  build : Expr → Expr → Expr

def orSigns : List Sign := [⟨['|', '|'], 2, or⟩]

def andSigns : List Sign := [⟨['&', '&'], 2, and⟩]

def sumSigns : List Sign := [⟨['+'], 1, arith .add⟩, ⟨['-'], 1, arith .sub⟩]

/-- The comparison signs, the longer ones first. -/
def comparisonSigns : List Sign :=
  [⟨['=', '='], 2, compare .equal⟩, ⟨['!', '='], 2, compare .unequal⟩,
    ⟨['>', '='], 2, compare .atLeast⟩, ⟨['<', '='], 2, compare .atMost⟩,
    ⟨['>'], 1, compare .greater⟩, ⟨['<'], 1, compare .less⟩]

/-- Moves the cursor over the first of some signs that stands behind it. -/
def sign : List Sign → Code (Option (Expr → Expr → Expr))
  | [] => return none
  | s :: more => do
    if ← looksAt s.symbol then
      advance s.width
      return some s.build
    else sign more

def Joined.signs : Joined → List Sign
  | disjunction => orSigns
  | conjunction => andSigns
  | sum => sumSigns

/-- What stands between the operators of a level. -/
def Joined.part : Joined → Rule
  | disjunction => .joined .conjunction
  | conjunction => .negation
  | sum => .operand

/-! ## What the procedures do -/

/-- The literal that a numeral is written for. -/
def ofNumeralText (numeral : List Char) : Option Expr :=
  let (negative, whole, fraction, _) := scanNumber numeral
  ofNumeral negative whole fraction

/-- A fault inside the expression, reported with the trimmed text. -/
def reject {α : Type} (text : String) (fault : Fault) : Code α :=
  .fail (.unreadable (String.ofList (input text)) fault)

def skipCode (kind : Class) : Code Unit := do
  match ← peek with
  | none => return ()
  | some c =>
    if kind.holds c then
      advance (kind.width c)
      skip kind
    else return ()

/-- Moves the cursor over the parenthesis behind an expression. -/
def closing (text : String) (e : Expr) : Code Expr := do
  if (← peek) = some ')' then
    advance 1
    return e
  else reject text .parenExpected

def operandCode (text : String) : Code Expr := do
  skip .blank
  match ← peek with
  | none => reject text .ends
  | some c =>
    if c = '(' then
      advance 1
      let e ← read (.joined .disjunction)
      skip .blank
      closing text e
    else if c = '"' || c = '\'' then read .string
    else if c.isDigit || c = '-' then read .number
    else if isLetter c || c = '_' then read .word
    else reject text (.unexpected c)

/-- Goes on in a string behind one more character. -/
def stringChar (quote : Char) (done : List Char) (c : Char) : Code Expr := do
  if c = quote then return literal (.str (String.ofList done.reverse))
  else if c = '\\' then
    match ← peek with
    | none => read (.stringRest quote done)
    | some e =>
      advance e.utf8Size
      read (.stringRest quote (e :: done))
  else read (.stringRest quote (c :: done))

def stringCode (text : String) (quote : Char) (done : List Char) : Code Expr := do
  match ← peek with
  | none => reject text .openString
  | some c =>
    advance c.utf8Size
    stringChar quote done c

/-- Does something if a character stands behind the cursor. -/
def whenAt (c : Char) (body : Code Unit) : Code Unit := do
  if (← peek) = some c then body else return ()

def numberCode (text : String) : Code Expr := do
  let start ← cursor
  whenAt '-' (advance 1)
  skip .digit
  whenAt '.' do
    advance 1
    skip .digit
  let numeral ← taken start
  match ofNumeralText numeral with
  | some e => return e
  | none => reject text (.badNumber (String.ofList numeral))

def wordCode (text : String) : Code Expr := do
  let start ← cursor
  skip .word
  let word ← taken start
  match ofWord word with
  | .ok e => return e
  | .error fault => reject text fault

def wholeCode (text : String) : Code Expr := do
  let e ← read (.joined .disjunction)
  skip .blank
  let offset ← cursor
  if offset < byteLength (input text) then
    .fail (.unreadable text (.leftover offset))
  else return e

def ruleCode (text : String) : Rule → Code Expr
  | .whole => wholeCode text
  | .joined level => do
    let left ← read level.part
    skip .blank
    read (.joinedRest level left)
  | .joinedRest level left => do
    match ← sign level.signs with
    | none => return left
    | some build =>
      let right ← read level.part
      skip .blank
      read (.joinedRest level (build left right))
  | .negation => do
    skip .blank
    if (← peek) = some '!' then
      if ← looksAt ['!', '='] then read .comparison
      else
        advance 1
        return not (← read .negation)
    else read .comparison
  | .comparison => do
    let left ← read (.joined .sum)
    skip .blank
    match ← sign comparisonSigns with
    | none => return left
    | some build => return build left (← read (.joined .sum))
  | .operand => operandCode text
  | .string => do
    let quote ← peek
    advance 1
    read (.stringRest (quote.getD '"') [])
  | .stringRest quote done => stringCode text quote done
  | .number => numberCode text
  | .word => wordCode text

/-- What a procedure does when it reads a text. -/
def code (text : String) : (p : Procedure) → Code p.Answer
  | .skip kind => skipCode kind
  | .rule r => ruleCode text r

/-! ## The machine -/

/-- The active calls, the innermost one first: where the cursor was when the procedure was
called, and what its caller does with the answer. -/
inductive Frames : Procedure → Type where
  | outermost : Frames (.rule .whole)
  | inner {q : Procedure} (p : Procedure) (entered : Nat) (resume : p.Answer → Code q.Answer)
      (below : Frames q) : Frames p

/-- The active procedures and where they were called. -/
def Frames.calls : {p : Procedure} → Frames p → List (Procedure × Nat)
  | _, .outermost => [(.rule .whole, 0)]
  | _, .inner p entered _ below => (p, entered) :: below.calls

/-- A moment of a run. -/
inductive Moment where
  | running {p : Procedure} (cursor : Nat) (code : Code p.Answer) (frames : Frames p)
  | stopped (result : Except ExpressionError Expr)
  | panicked

/-- Goes on with what a cut gives. -/
def Moment.look {α : Type} (cut : Option α) (next : α → Moment) : Moment :=
  match cut with
  | none => .panicked
  | some found => next found

/-- Gives the answer of a procedure back to its caller. -/
def Frames.answer (i : Nat) : {p : Procedure} → Frames p → p.Answer → Moment
  | _, .outermost, e => .stopped (.ok e)
  | _, .inner _ _ resume below, answer => .running i (resume answer) below

/-- One step of the innermost procedure, with the cursor at a byte. -/
def Frames.step (text : String) (i : Nat) {p : Procedure} (frames : Frames p) :
    Code p.Answer → Moment
  | .done answer => frames.answer i answer
  | .fail error => .stopped (.error error)
  | .peek next => .look (cut? i (input text)) fun (_, behind) =>
      .running i (next behind.head?) frames
  | .looksAt symbol next => .look (cut? i (input text)) fun (_, behind) =>
      .running i (next (symbol.isPrefixOf behind)) frames
  | .taken start next => .look (between? start i (input text)) fun found =>
      .running i (next found) frames
  | .cursor next => .running i (next i) frames
  | .advance width next => .running (i + width) next frames
  | .call p next => .running i (code text p) (.inner p i next frames)

/-- One step of reading a text.  What has stopped does not move. -/
def step (text : String) : Moment → Moment
  | .running i code frames => frames.step text i code
  | .stopped result => .stopped result
  | .panicked => .panicked

/-- The first moment.  A text of blanks is refused at once. -/
def start (text : String) : Moment :=
  if (input text).isEmpty then .stopped (.error (.unreadable text .empty))
  else .running 0 (code text (.rule .whole)) .outermost

/-- The moment after a number of steps. -/
def moment (text : String) (n : Nat) : Moment := (step text)^[n] (start text)

end Cursor
end Expr
end Statechart
