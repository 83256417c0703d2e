import Mathlib.Data.List.Basic
import Statechart.Text.Blank

/-!
# Pieces and words

A text is put together again from its pieces with separators between them, so the pieces of
one text are the first pieces of another one exactly if the other text is equal to it or goes
on behind a separator (`segments_prefix_iff`).

Words are pieces without blanks, and not empty.  Written with single blanks between them such
texts are the words of what is written (`words_intercalate`).
-/

namespace Statechart
namespace Text

section Pieces

variable {α : Type} {p : α → Bool} {as piece : List α}

/-- Splitting is the splitting of the library, whose lemmas speak of these pieces too. -/
theorem splitOn_eq_splitOnP (p : α → Bool) (as : List α) : splitOn p as = as.splitOnP p := by
  induction as with
  | nil => simp
  | cons a rest ih =>
      rw [splitOn, ih, List.splitOnP_cons_eq_if_modifyHead]
      split
      · rfl
      · cases hrest : rest.splitOnP p with
        | nil => exact absurd hrest (List.splitOnP_ne_nil p rest)
        | cons first more => rfl

theorem splitOn_eq_singleton (h : ∀ a ∈ as, p a = false) : splitOn p as = [as] := by
  rw [splitOn_eq_splitOnP, List.splitOnP_eq_singleton h]

/-- No piece holds a separator. -/
theorem eq_false_of_mem_splitOn (h : piece ∈ splitOn p as) : ∀ a ∈ piece, p a = false := by
  induction as generalizing piece with
  | nil =>
      obtain rfl : piece = [] := by simpa using h
      exact List.forall_mem_nil _
  | cons a rest ih =>
      rw [splitOn] at h
      split at h
      · rcases List.mem_cons.1 h with rfl | h
        · exact List.forall_mem_nil _
        · exact ih h
      next ha =>
      cases hrest : splitOn p rest with
      | nil => exact absurd hrest (splitOn_ne_nil p rest)
      | cons first more =>
          rw [hrest] at h ih
          rcases List.mem_cons.1 h with rfl | h
          · exact List.forall_mem_cons.2 ⟨Bool.eq_false_iff.2 ha, ih List.mem_cons_self⟩
          · exact ih (List.mem_cons_of_mem _ h)

theorem intercalate_append_cons (separator : List α) {pieces : List (List α)} (hne : pieces ≠ [])
    (piece : List α) (more : List (List α)) :
    separator.intercalate (pieces ++ piece :: more) =
      separator.intercalate pieces ++ separator ++ separator.intercalate (piece :: more) := by
  induction pieces with
  | nil => exact absurd rfl hne
  | cons first rest ih =>
      cases rest with
      | nil => simp [List.intercalate_cons_cons]
      | cons second rest =>
          rw [List.cons_append, List.cons_append, List.intercalate_cons_cons,
            List.intercalate_cons_cons, ← List.cons_append, ih (List.cons_ne_nil _ _)]
          simp only [List.append_assoc]

variable [DecidableEq α] {separator : α} {xs ys : List α}

theorem intercalate_splitOn (separator : α) (as : List α) :
    [separator].intercalate (splitOn (· == separator) as) = as := by
  rw [splitOn_eq_splitOnP, ← List.splitOn_eq_splitOnP, List.intercalate_splitOn]

/-- The pieces of a text come first in another one if this is the text or goes on behind a
separator. -/
theorem splitOn_prefix_iff : splitOn (· == separator) xs <+: splitOn (· == separator) ys ↔
    ys = xs ∨ ∃ rest, ys = xs ++ separator :: rest := by
  constructor
  · rintro ⟨more, hmore⟩
    have hys := intercalate_splitOn separator ys
    rw [← hmore] at hys
    cases more with
    | nil =>
        rw [List.append_nil, intercalate_splitOn] at hys
        exact .inl hys.symm
    | cons piece more =>
        rw [intercalate_append_cons _ (splitOn_ne_nil _ _), intercalate_splitOn] at hys
        exact .inr ⟨[separator].intercalate (piece :: more), by simpa using hys.symm⟩
  · rintro (rfl | ⟨rest, rfl⟩)
    · exact List.prefix_rfl
    · rw [splitOn_append_cons (p := (· == separator)) (beq_self_eq_true separator)]
      exact List.prefix_append _ _

end Pieces

/-! ## Segments of names -/

theorem segments_prefix_iff {path name : String} :
    segments path <+: segments name ↔ name = path ∨ ∃ rest, name = path ++ "." ++ rest := by
  rw [segments, segments,
    List.prefix_map_iff_of_injective fun _ _ => String.ofList_injective, splitOn_prefix_iff,
    String.toList_inj]
  refine or_congr_right ⟨?_, ?_⟩
  · rintro ⟨rest, hrest⟩
    exact ⟨String.ofList rest, String.toList_inj.1 (by simp [hrest])⟩
  · rintro ⟨rest, rfl⟩
    exact ⟨rest.toList, by simp⟩

/-! ## Words -/

section Words

variable {cs : List Char} {word : List Char} {ws : List (List Char)}

theorem wordsOf_append_cons {b : Char} (hb : isBlank b = true) (cs ds : List Char) :
    wordsOf (cs ++ b :: ds) = wordsOf cs ++ wordsOf ds := by
  rw [wordsOf, splitOn_append_cons hb, List.filter_append]
  rfl

theorem mem_wordsOf (h : word ∈ wordsOf cs) : word ≠ [] ∧ ∀ c ∈ word, isBlank c = false := by
  obtain ⟨hpiece, hne⟩ := List.mem_filter.1 h
  exact ⟨by simpa using hne, eq_false_of_mem_splitOn hpiece⟩

theorem wordsOf_eq_singleton (hne : word ≠ []) (h : ∀ c ∈ word, isBlank c = false) :
    wordsOf word = [word] := by
  rw [wordsOf, splitOn_eq_singleton h]
  simp [hne]

theorem wordsOf_intercalate (h : ∀ word ∈ ws, word ≠ [] ∧ ∀ c ∈ word, isBlank c = false) :
    wordsOf ([' '].intercalate ws) = ws := by
  induction ws with
  | nil => rfl
  | cons word rest ih =>
      obtain ⟨hword, hrest⟩ := List.forall_mem_cons.1 h
      cases rest with
      | nil => rw [List.intercalate_singleton, wordsOf_eq_singleton hword.1 hword.2]
      | cons next rest =>
          rw [List.intercalate_cons_cons, List.append_assoc, List.singleton_append,
            wordsOf_append_cons rfl, wordsOf_eq_singleton hword.1 hword.2, ih hrest]
          rfl

end Words

/-- Texts that are not empty and hold no blank. -/
def IsSolid (word : String) : Prop :=
  word ≠ "" ∧ ∀ c ∈ word.toList, isBlank c = false

theorem isSolid_of_mem_words {text word : String} (h : word ∈ words text) : IsSolid word := by
  obtain ⟨cs, hcs, rfl⟩ := List.mem_map.1 h
  obtain ⟨hne, hblank⟩ := mem_wordsOf hcs
  exact ⟨by simpa using hne, by simpa using hblank⟩

/-- What is written with single blanks between solid texts has these as its words. -/
theorem words_intercalate {ws : List String} (h : ∀ word ∈ ws, IsSolid word) :
    words (" ".intercalate ws) = ws := by
  have hsolid : ∀ word ∈ ws.map String.toList, word ≠ [] ∧ ∀ c ∈ word, isBlank c = false := by
    intro cs hcs
    obtain ⟨word, hword, rfl⟩ := List.mem_map.1 hcs
    exact ⟨by simpa using (h word hword).1, (h word hword).2⟩
  have hlist : (" ".intercalate ws).toList = [' '].intercalate (ws.map String.toList) :=
    String.toList_intercalate
  rw [words, hlist, wordsOf_intercalate hsolid, List.map_map]
  simp

end Text
end Statechart
