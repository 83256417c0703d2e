import Statechart.Proofs.Event.Reading

/-!
# Which names a pattern matches

A descriptor is compared with a name character by character: the name equals it or goes on
behind it with a dot.  What is meant are the tokens between the dots, and `describes_iff` says
that this is the same: the tokens of the descriptor are the first ones of the name.  There are
no exceptions for empty tokens, that is, for dots at the ends or in a row.

`meaning` puts this together with the reading of a pattern from its text.
-/

namespace Statechart
namespace Event
namespace Pattern

open Text

/-- A name has the tokens of a descriptor, but of the last one only the first part. -/
def SharesPart (d name : String) : Prop :=
  ∃ front token more behind, segments d = front ++ [token] ∧ more ≠ "" ∧
    segments name = front ++ (token ++ more) :: behind

variable {d name text : String} {p : Pattern}

theorem describes_iff :
    describes d name = true ↔ d = "*" ∨ segments d <+: segments name := by
  have hbehind : d.toList ++ ['.'] <+: name.toList ↔ ∃ rest, name = d ++ "." ++ rest := by
    constructor
    · rintro ⟨rest, hrest⟩
      exact ⟨String.ofList rest, String.toList_inj.1 (by simp [← hrest])⟩
    · rintro ⟨rest, rfl⟩
      exact ⟨rest.toList, by simp⟩
  rw [segments_prefix_iff, describes, Bool.or_eq_true, Bool.or_eq_true, beq_iff_eq, beq_iff_eq,
    List.isPrefixOf_iff_prefix, hbehind, or_assoc]

theorem covers_iff : p.covers name = true ↔
    ∃ d ∈ p.descriptors, d = "*" ∨ segments d <+: segments name := by
  simp only [covers, List.any_eq_true, describes_iff]

/-- A match goes on to every name that goes on behind a dot. -/
theorem covers_append (more : String) (h : p.covers name = true) :
    p.covers (name ++ "." ++ more) = true := by
  obtain ⟨d, hd, hmatch⟩ := covers_iff.1 h
  refine covers_iff.2 ⟨d, hd, hmatch.imp_right fun hprefix => ?_⟩
  rw [segments_append]
  exact hprefix.trans (List.prefix_append _ _)

theorem SharesPart.no_match (h : SharesPart d name) : ¬ segments d <+: segments name := by
  obtain ⟨front, token, more, behind, hd, hmore, hname⟩ := h
  rw [hd, hname, List.prefix_append_right_inj, List.cons_prefix_cons]
  rintro ⟨htoken, -⟩
  have hlength := congrArg String.length htoken
  rw [String.length_append] at hlength
  exact hmore (String.length_eq_zero_iff.1 (by omega))

/-- Part of a token is not enough for a match. -/
theorem covers_eq_false_of_sharesPart (h : ∀ d ∈ p.descriptors, d ≠ "*" ∧ SharesPart d name) :
    p.covers name = false := by
  rw [← Bool.not_eq_true, covers_iff]
  rintro ⟨d, hd, hmatch⟩
  rcases hmatch with hstar | hprefix
  · exact (h d hd).1 hstar
  · exact (h d hd).2.no_match hprefix

/-- What the text of a pattern means. -/
structure Meaning (text : String) : Prop where
  /-- A text without words is no pattern. -/
  blank : parse text = .ok none ↔ words text = []
  /-- It is refused if nothing is left of a word, -/
  refused : (∃ word, parse text = .error word) ↔ ∃ word ∈ words text, NormalForm word ""
  /-- and for the first such word. -/
  refusedFor : ∀ word, parse text = .error word ↔ ∃ before behind,
    words text = before ++ word :: behind ∧ NormalForm word "" ∧ ∀ v ∈ before, ¬ NormalForm v ""
  /-- Otherwise the descriptors are the normal forms of the words. -/
  read : ∀ p, parse text = .ok (some p) ↔
    words text ≠ [] ∧ List.Forall₂ NormalForm (words text) p.descriptors ∧ "" ∉ p.descriptors
  /-- A name is matched by the tokens of a word that come first in it. -/
  matched : ∀ p, parse text = .ok (some p) → ∀ name, p.covers name = true ↔
    ∃ word ∈ words text, ∃ d, NormalForm word d ∧ (d = "*" ∨ segments d <+: segments name)
  longer : ∀ p, parse text = .ok (some p) → ∀ name more,
    p.covers name = true → p.covers (name ++ "." ++ more) = true
  whole : ∀ p, parse text = .ok (some p) → ∀ name,
    (∀ d ∈ p.descriptors, d ≠ "*" ∧ SharesPart d name) → p.covers name = false

theorem forall₂_normalForm_iff {ws ds : List String} :
    List.Forall₂ NormalForm ws ds ↔ ds = ws.map normalize := by
  induction ws generalizing ds with
  | nil => exact List.forall₂_nil_left_iff
  | cons word rest ih =>
      cases ds with
      | nil => simp
      | cons d ds => rw [List.forall₂_cons, normalForm_iff, ih, List.map_cons, List.cons.injEq,
          eq_comm]

theorem refused_iff : (∃ word, parse text = .error word) ↔
    ∃ word ∈ words text, NormalForm word "" := by
  have hok := @exists_parse_iff text
  simp only [normalForm_iff]
  cases hparse : parse text with
  | error word =>
      rw [hparse] at hok
      simpa using hok
  | ok pattern =>
      rw [hparse] at hok
      simpa using hok

/-- Reading and matching of every text. -/
theorem meaning (text : String) : Meaning text where
  blank := parse_eq_none_iff
  refused := refused_iff
  refusedFor word := by
    simp only [parse_eq_error_iff, normalizeAll_eq_error_iff, normalForm_iff, ne_eq]
  read p := by
    rw [parse_eq_some_iff, forall₂_normalForm_iff]
    refine and_congr_right fun _ => and_congr_right fun hdescriptors => ?_
    rw [hdescriptors, List.mem_map, not_exists]
    exact forall_congr' fun word => not_and.symm
  matched p hp name := by
    rw [covers_iff, (parse_eq_some_iff.1 hp).2.1]
    simp only [List.mem_map, exists_exists_and_eq_and, normalForm_iff, exists_eq_left']
  longer p _ name more := covers_append more
  whole p _ name := covers_eq_false_of_sharesPart

end Pattern
end Event
end Statechart
