/-!
# Splitting text

A text is handled as a list of characters.  `splitOn p` cuts it at every
character for which `p` holds and keeps the pieces, empty ones included, so a
text with `n` such characters has `n + 1` pieces.
-/

namespace Statechart
namespace Text

/-- The pieces of a list between the elements for which `p` holds. -/
def splitOn {α : Type} (p : α → Bool) : List α → List (List α)
  | [] => [[]]
  | a :: rest =>
    if p a then
      [] :: splitOn p rest
    else
      match splitOn p rest with
      | [] => [[a]]
      | piece :: pieces => (a :: piece) :: pieces

@[simp] theorem splitOn_nil {α : Type} (p : α → Bool) :
    splitOn p ([] : List α) = [[]] := rfl

/-- There is always a first piece, so the impossible branch of `splitOn` is
never taken. -/
theorem splitOn_ne_nil {α : Type} (p : α → Bool) (as : List α) :
    splitOn p as ≠ [] := by
  cases as with
  | nil => simp
  | cons a rest =>
    unfold splitOn
    split
    · simp
    · split <;> simp

/-- The pieces before a separator and those behind it are the pieces of the whole. -/
theorem splitOn_append_cons {α : Type} {p : α → Bool} {separator : α} (h : p separator = true)
    (as bs : List α) : splitOn p (as ++ separator :: bs) = splitOn p as ++ splitOn p bs := by
  induction as with
  | nil => simp [splitOn, h]
  | cons a rest ih =>
    rw [List.cons_append, splitOn, splitOn, ih]
    split
    · rfl
    · cases hrest : splitOn p rest with
      | nil => exact absurd hrest (splitOn_ne_nil p rest)
      | cons piece pieces => rfl

/-- The dot-separated segments of a name, as in a variable path. -/
def segments (name : String) : List String :=
  (splitOn (· == '.') name.toList).map String.ofList

/-- A path that goes on behind a dot has the segments of both parts. -/
theorem segments_append (name rest : String) :
    segments (name ++ "." ++ rest) = segments name ++ segments rest := by
  have hlist : (name ++ "." ++ rest).toList = name.toList ++ '.' :: rest.toList := by
    simp [String.toList_append]
  rw [segments, hlist, splitOn_append_cons rfl, List.map_append]
  rfl

/-- The lines of a text: a line feed ends a line, a carriage return before it
belongs to the line end, and the last line needs no line feed. -/
def lines (text : String) : List String :=
  let pieces := splitOn (· == '\n') text.toList
  let ended := pieces.dropLast.map fun piece =>
    if piece.getLast? = some '\r' then piece.dropLast else piece
  let last := match pieces.getLast? with
    | none => []
    | some [] => []
    | some piece => [piece]
  (ended ++ last).map String.ofList

end Text
end Statechart
