import Statechart.Text.ClusterClass

/-!
# Clusters

`clusters` cuts a text into what a reader takes for its characters.  Whether
there is a limit before a character depends on its class and on what stands
before it, of which a `Trail` keeps as much as the rules look at.
-/

namespace Statechart
namespace Text

/-- What matters of the characters before a place. -/
structure Trail where
  /-- The class of the last one. -/
  last : ClusterClass := .control
  /-- They end with an odd number of halves of flags. -/
  isHalfFlag : Bool := false
  /-- They end with a pictograph, maybe extended. -/
  isPictograph : Bool := false
  /-- They end with such a pictograph and a joiner. -/
  isJoined : Bool := false
  /-- They end with a consonant, maybe followed by linkers and the like. -/
  isConjunct : Bool := false
  /-- A linker is among the characters behind that consonant. -/
  isLinked : Bool := false

namespace Trail

/-- The trail behind one more character. -/
def next (t : Trail) (c : Char) : Trail where
  last := clusterClass c
  isHalfFlag := clusterClass c == .indicator && !t.isHalfFlag
  isPictograph := clusterClass c == .pictograph || (t.isPictograph && clusterClass c == .extend)
  isJoined := t.isPictograph && clusterClass c == .joiner
  isConjunct := clusterClass c == .consonant || (t.isConjunct && keepsConjunct c)
  isLinked := t.isConjunct && (isLinker c || (t.isLinked && keepsConjunct c))

/-- Holds if a character belongs to the cluster before it. -/
def takes (t : Trail) (c : Char) : Bool :=
  match t.last, clusterClass c with
  | .carriageReturn, .lineFeed => true
  | .control, _ => false
  | .carriageReturn, _ => false
  | .lineFeed, _ => false
  | _, .control => false
  | _, .carriageReturn => false
  | _, .lineFeed => false
  | _, .extend => true
  | _, .joiner => true
  | _, .spacing => true
  | .prepend, _ => true
  | last, .leading => last == .leading
  | last, .vowel => last == .leading || last == .openSyllable || last == .vowel
  | last, .trailing =>
    last == .openSyllable || last == .vowel || last == .closedSyllable || last == .trailing
  | last, .openSyllable => last == .leading
  | last, .closedSyllable => last == .leading
  | _, .indicator => t.isHalfFlag
  | _, .pictograph => t.isJoined
  | _, .consonant => t.isLinked
  | _, _ => false

end Trail

/-- The clusters of the rest of a text, given what stands before it. -/
def clustersFrom (t : Trail) : List Char → List (List Char)
  | [] => []
  | c :: rest =>
    match rest, clustersFrom (t.next c) rest with
    | d :: _, cluster :: more =>
      if (t.next c).takes d then (c :: cluster) :: more else [c] :: cluster :: more
    | _, more => [c] :: more

/-- The clusters of a text, in order. -/
def clusters (cs : List Char) : List (List Char) := clustersFrom {} cs

example : clusters ['e', '\u0301', '\u0302', 'x', '\r', '\n', '\u0301'] =
    [['e', '\u0301', '\u0302'], ['x'], ['\r', '\n'], ['\u0301']] := by
  decide

end Text
end Statechart
