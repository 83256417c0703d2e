import Statechart.Value

/-!
# Expressions

Guards and data expressions are written in a small language: literals, variable
paths, logic, comparison, and addition and subtraction.  This module holds its
trees and the errors of reading and evaluating one.
-/

namespace Statechart

/-- Comparison operators. -/
inductive Comparison where
  | equal
  | unequal
  | greater
  | atLeast
  | less
  | atMost
  deriving Repr, DecidableEq

/-- Arithmetic operators. -/
inductive Arithmetic where
  | add
  | sub
  deriving Repr, DecidableEq

/-- The sign of an arithmetic operator. -/
def Arithmetic.sign : Arithmetic → String
  | add => "+"
  | sub => "-"

/-- Expressions. -/
inductive Expr where
  | literal (value : Value)
  | path (name : String)
  | not (inner : Expr)
  | and (left right : Expr)
  | or (left right : Expr)
  | compare (op : Comparison) (left right : Expr)
  | arith (op : Arithmetic) (left right : Expr)
  deriving Inhabited

namespace Expr

/-- Why a text is no expression. -/
inductive Fault where
  | empty
  | leftover (offset : Nat)
  | parenExpected
  | unexpected (c : Char)
  | ends
  | badPath (word : String)
  | openString
  | badNumber (text : String)
  deriving Repr, DecidableEq

/-- The words for a fault. -/
def Fault.message : Fault → String
  | empty => "empty expression"
  | leftover offset => "unexpected input at offset " ++ toString offset
  | parenExpected => "expected ')'"
  | unexpected c => "unexpected character '" ++ c.toString ++ "'"
  | ends => "unexpected end of expression"
  | badPath word => "invalid variable path '" ++ word ++ "'"
  | openString => "unterminated string"
  | badNumber text => "invalid number: '" ++ text ++ "'"

end Expr

/-- Why an expression has no value.  A type error carries the operation and its
reason in words, because a host's own evaluator may give them. -/
inductive ExpressionError where
  | unreadable (text : String) (fault : Expr.Fault)
  | undefined (name : String)
  | illTyped (expr reason : String)
  deriving Repr, DecidableEq

/-- The message of an expression error. -/
def ExpressionError.message : ExpressionError → String
  | unreadable text fault => "invalid expression '" ++ text ++ "': " ++ fault.message
  | undefined name => "undefined variable '" ++ name ++ "'"
  | illTyped expr reason => "type error in '" ++ expr ++ "': " ++ reason

end Statechart
