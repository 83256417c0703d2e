import Statechart.Text.Cluster

/-!
# Editing a line

A backspace in a line takes back the cluster typed before it, and the backspace
is not part of the line.  How many bytes to take back is noted in one byte, so
of a cluster of 256 bytes or more only the remainder goes.
-/

namespace Statechart
namespace Editing

/-- The backspace. -/
def backspace : Char := '\x08'

/-- A line being typed, last character first. -/
structure Line where
  typed : List Char := []
  /-- What a backspace takes back of each cluster, in bytes, the last one first. -/
  sizes : List Nat := []

/-- Drops characters of the given number of bytes. -/
def dropBytes : Nat → List Char → List Char
  | _, [] => []
  | n, c :: rest => if 0 < n && c.utf8Size ≤ n then dropBytes (n - c.utf8Size) rest else c :: rest

/-- The number of sizes that a byte can hold. -/
def sizeRange : Nat := 256

/-- Types a cluster. -/
def Line.type (line : Line) (cluster : List Char) : Line :=
  if cluster = [backspace] then
    match line.sizes with
    | [] => line
    | size :: sizes => ⟨dropBytes size line.typed, sizes⟩
  else
    ⟨cluster.reverse ++ line.typed,
      (String.ofList cluster).utf8ByteSize % sizeRange :: line.sizes⟩

/-- What a line holds when all of it is typed. -/
def typed (line : String) : String :=
  String.ofList ((Text.clusters line.toList).foldl Line.type {}).typed.reverse

end Editing
end Statechart
