import Statechart.Text.Split

/-!
# Blank characters

Blank characters are those with the Unicode property `White_Space`.  The zero
width space `U+200B` and the byte order mark `U+FEFF` do not have it.  Trimming
and splitting into words are defined on that class.
-/

namespace Statechart
namespace Text

/-- The characters with the property `White_Space`. -/
def isBlank (c : Char) : Bool :=
  let n := c.toNat
  (0x9 ≤ n && n ≤ 0xD) || n == 0x20 || n == 0x85 || n == 0xA0 || n == 0x1680 ||
    (0x2000 ≤ n && n ≤ 0x200A) || n == 0x2028 || n == 0x2029 || n == 0x202F ||
    n == 0x205F || n == 0x3000

/-- Drops the blank characters at the front. -/
def skipBlanks (cs : List Char) : List Char :=
  cs.dropWhile isBlank

/-- Drops the blank characters at both ends. -/
def trimChars (cs : List Char) : List Char :=
  ((skipBlanks cs).reverse.dropWhile isBlank).reverse

/-- A text without the blank characters at its ends. -/
def trim (s : String) : String :=
  String.ofList (trimChars s.toList)

/-- Holds of a text that has no character outside the blank ones. -/
def isBlankText (s : String) : Bool :=
  s.toList.all isBlank

/-- The maximal runs of characters that are not blank, in order. -/
def wordsOf (cs : List Char) : List (List Char) :=
  (splitOn isBlank cs).filter (!·.isEmpty)

/-- The words of a text, in order. -/
def words (s : String) : List String :=
  (wordsOf s.toList).map String.ofList

example : ['\u00A0', '\u0085', '\u2003', '\u3000'].all isBlank = true := by decide

example : ['\u200B', '\uFEFF'].any isBlank = false := by decide

end Text
end Statechart
