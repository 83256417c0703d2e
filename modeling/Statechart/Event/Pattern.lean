import Statechart.Text.Blank

/-!
# Event patterns

A pattern is a list of descriptors, written with blanks between them.  A
descriptor matches the event names that equal it or extend it by further
dot-separated tokens, and `*` matches every name.  In the written form `.*` is
another way to say `*`, and one `.*` and then all dots at the end of a
descriptor are dropped; a descriptor of which nothing is left names no event.
-/

namespace Statechart
namespace Event

open Text

/-- The descriptors of a pattern. -/
structure Pattern where
  descriptors : List String
  deriving Repr, DecidableEq, Inhabited

namespace Pattern

/-- Drops `.*` at the end of a descriptor, once. -/
def dropStar (cs : List Char) : List Char :=
  match cs.reverse with
  | '*' :: '.' :: rest => rest.reverse
  | _ => cs

/-- Drops all dots at the end. -/
def dropDots (cs : List Char) : List Char :=
  (cs.reverse.dropWhile (· == '.')).reverse

/-- The normal form of a written descriptor, which may be empty. -/
def normalize (word : String) : String :=
  if word = ".*" then "*"
  else String.ofList (dropDots (dropStar word.toList))

/-- The normal forms of descriptors, or the first one that names no event. -/
def normalizeAll : List String → Except String (List String)
  | [] => .ok []
  | word :: rest =>
    let normal := normalize word
    if normal.isEmpty then .error word
    else (normalizeAll rest).map (normal :: ·)

/-- Reads a pattern; a text without words is none. -/
def parse (text : String) : Except String (Option Pattern) :=
  match normalizeAll (words text) with
  | .error word => .error word
  | .ok [] => .ok none
  | .ok descriptors => .ok (some ⟨descriptors⟩)

/-- Holds if a descriptor matches an event name. -/
def describes (descriptor name : String) : Bool :=
  descriptor == "*" || name == descriptor ||
    (descriptor.toList ++ ['.']).isPrefixOf name.toList

/-- Holds if one of the descriptors matches an event name. -/
def covers (pattern : Pattern) (name : String) : Bool :=
  pattern.descriptors.any (describes · name)

end Pattern
end Event
end Statechart
