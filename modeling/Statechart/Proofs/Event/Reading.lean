import Mathlib.Data.List.DropRight
import Mathlib.Data.List.Forall2
import Statechart.Event.Pattern
import Statechart.Proofs.Text.Pieces

/-!
# Normal forms of descriptors

What is left of a written descriptor is said by `NormalForm`, without reference to how it is
computed: of the word `.*` the descriptor `*`, and of every other word what stands before one
`.*` at its end, if there is one, and before the dots at the end of that.  A pattern holds the
normal forms of the words of a text, in order, and a text with a word of which nothing is left
is refused for the first such word.

A normal form does not end in a dot.  It may end in `.*`, because only one `.*` is dropped, and
none behind which there are dots.  Such a descriptor is another one when it is read again, and
apart from this reading a pattern from its own descriptors changes nothing (`reread_iff`).
-/

namespace Statechart
namespace Event
namespace Pattern

open Text

/-- A number of dots. -/
def dots (n : Nat) : String := String.ofList (List.replicate n '.')

def EndsInDot (s : String) : Prop := ∃ front, s = front ++ "."

def EndsInStar (s : String) : Prop := ∃ front, s = front ++ ".*"

/-- `d` is what stands before the dots at the end of a text. -/
structure Undotted (s d : String) : Prop where
  dotted : ∃ n, s = d ++ dots n
  bare : ¬ EndsInDot d

/-- `d` is what is left of a written descriptor. -/
inductive NormalForm : String → String → Prop where
  | wildcard : NormalForm ".*" "*"
  | starred {stem d : String} : stem ≠ "" → Undotted stem d → NormalForm (stem ++ ".*") d
  | plain {word d : String} : ¬ EndsInStar word → Undotted word d → NormalForm word d

section NormalForms

variable {s d e word stem : String} {cs : List Char}

/-! ## Ends of texts -/

theorem endsInDot_iff : EndsInDot s ↔ s.toList.getLast? = some '.' := by
  rw [List.getLast?_eq_some_iff]
  constructor
  · rintro ⟨front, rfl⟩
    exact ⟨front.toList, by simp⟩
  · rintro ⟨front, hfront⟩
    exact ⟨String.ofList front, String.toList_inj.1 (by simp [hfront])⟩

theorem endsInStar_iff : EndsInStar s ↔ ['.', '*'] <:+ s.toList := by
  constructor
  · rintro ⟨front, rfl⟩
    exact ⟨front.toList, by simp⟩
  · rintro ⟨front, hfront⟩
    exact ⟨String.ofList front, String.toList_inj.1 (by simp [← hfront])⟩

instance : Decidable (EndsInStar s) := decidable_of_iff _ endsInStar_iff.symm

theorem not_endsInDot_star (front : String) : ¬ EndsInDot (front ++ ".*") := by
  simp [endsInDot_iff]

theorem endsInDot_dots (front : String) (n : Nat) : EndsInDot (front ++ dots (n + 1)) := by
  simp [endsInDot_iff, dots, List.getLast?_append, List.getLast?_replicate]

theorem not_endsInStar_of_endsInDot (h : EndsInDot s) : ¬ EndsInStar s := by
  rintro ⟨front, rfl⟩
  exact not_endsInDot_star front h

theorem dots_zero : dots 0 = "" := rfl

/-! ## Dropping dots and stars -/

theorem dropStar_append (cs : List Char) : dropStar (cs ++ ['.', '*']) = cs := by
  simp [dropStar]

theorem dropStar_eq_self (h : ¬ ['.', '*'] <:+ cs) : dropStar cs = cs := by
  unfold dropStar
  split
  · next rest hreverse =>
    refine absurd ⟨rest.reverse, ?_⟩ h
    rw [← List.reverse_reverse cs, hreverse]
    simp
  · rfl

theorem dropDots_eq_rdropWhile (cs : List Char) : dropDots cs = cs.rdropWhile (· == '.') := rfl

theorem dropDots_append_replicate (cs : List Char) (n : Nat) :
    dropDots (cs ++ List.replicate n '.') = dropDots cs := by
  have hdots : ∀ c ∈ List.replicate n '.', (c == '.') = true := fun c hc => by
    rw [List.eq_of_mem_replicate hc]
    rfl
  rw [dropDots, List.reverse_append, List.reverse_replicate, List.dropWhile_append_of_pos hdots,
    dropDots]

theorem dropDots_eq_self_iff : dropDots cs = cs ↔ cs.getLast? ≠ some '.' := by
  rw [dropDots_eq_rdropWhile, List.rdropWhile_eq_self_iff]
  by_cases hcs : cs = []
  · simp [hcs]
  · simp [hcs, List.getLast?_eq_getLast_of_ne_nil]

theorem undotted_iff : Undotted s d ↔ d.toList = dropDots s.toList := by
  constructor
  · rintro ⟨⟨n, rfl⟩, hbare⟩
    rw [endsInDot_iff] at hbare
    simp only [dots, String.toList_append, String.toList_ofList]
    rw [dropDots_append_replicate, dropDots_eq_self_iff.2 hbare]
  · intro h
    have hall : ∀ c ∈ s.toList.rtakeWhile (· == '.'), c = '.' :=
      fun c hc => by simpa using List.mem_rtakeWhile_imp hc
    refine ⟨⟨(s.toList.rtakeWhile (· == '.')).length, String.toList_inj.1 ?_⟩, ?_⟩
    · rw [String.toList_append, h, dots, String.toList_ofList, ← List.eq_replicate_of_mem hall,
        dropDots_eq_rdropWhile, List.rdropWhile_append_rtakeWhile]
    · rw [endsInDot_iff, h]
      exact dropDots_eq_self_iff.1 (List.rdropWhile_idempotent _ _)

/-! ## Normal forms -/

theorem normalForm_iff : NormalForm word d ↔ normalize word = d := by
  have hlist : ∀ cs, String.ofList cs = d ↔ d.toList = cs := fun cs => by
    rw [← String.toList_inj, String.toList_ofList, eq_comm]
  constructor
  · intro h
    cases h with
    | wildcard => rfl
    | @starred stem _ hstem hundotted =>
        have hword : stem ++ ".*" ≠ ".*" := fun heq => hstem (by simpa using heq)
        have htoList : (stem ++ ".*").toList = stem.toList ++ ['.', '*'] := by simp
        rw [normalize, if_neg hword, htoList, dropStar_append, hlist]
        exact undotted_iff.1 hundotted
    | plain hstar hundotted =>
        have hword : word ≠ ".*" := fun heq => hstar ⟨"", by simpa using heq⟩
        rw [endsInStar_iff] at hstar
        rw [normalize, if_neg hword, dropStar_eq_self hstar, hlist]
        exact undotted_iff.1 hundotted
  · intro h
    unfold normalize at h
    split at h
    · next hword =>
      rw [hword, ← h]
      exact .wildcard
    next hword =>
    by_cases hstar : EndsInStar word
    · obtain ⟨stem, rfl⟩ := hstar
      have hstem : stem ≠ "" := by rintro rfl; simp at hword
      have htoList : (stem ++ ".*").toList = stem.toList ++ ['.', '*'] := by simp
      rw [htoList, dropStar_append, hlist] at h
      exact .starred hstem (undotted_iff.2 h)
    · rw [dropStar_eq_self (mt endsInStar_iff.2 hstar), hlist] at h
      exact .plain hstar (undotted_iff.2 h)

theorem NormalForm.unique (h : NormalForm word d) (h' : NormalForm word e) : d = e :=
  (normalForm_iff.1 h).symm.trans (normalForm_iff.1 h')

theorem NormalForm.not_endsInDot (h : NormalForm word d) : ¬ EndsInDot d := by
  cases h with
  | wildcard => simp [endsInDot_iff]
  | starred _ hundotted => exact hundotted.bare
  | plain _ hundotted => exact hundotted.bare

theorem Undotted.subset (h : Undotted s d) : d.toList ⊆ s.toList := by
  obtain ⟨n, rfl⟩ := h.dotted
  simp

theorem NormalForm.subset (h : NormalForm word d) : d.toList ⊆ word.toList := by
  cases h with
  | wildcard => decide
  | starred _ hundotted =>
      intro c hc
      simp [hundotted.subset hc]
  | plain _ hundotted => exact hundotted.subset

theorem NormalForm.isSolid (h : NormalForm word d) (hword : IsSolid word) (hd : d ≠ "") :
    IsSolid d :=
  ⟨hd, fun c hc => hword.2 c (h.subset hc)⟩

/-- A word that is a normal form already. -/
theorem normalForm_self_iff (hdot : ¬ EndsInDot d) : NormalForm d d ↔ ¬ EndsInStar d := by
  refine ⟨?_, fun hstar => .plain hstar ⟨⟨0, by simp [dots_zero]⟩, hdot⟩⟩
  rintro h ⟨stem, rfl⟩
  -- Something is dropped, so nothing shorter could be the word itself.
  have hshorter : ∀ d, NormalForm (stem ++ ".*") d → d.length < (stem ++ ".*").length := by
    intro d hd
    by_cases hstem : stem = ""
    · subst hstem
      rw [hd.unique .wildcard]
      decide
    · obtain ⟨d', hd'⟩ : ∃ d', Undotted stem d' :=
        ⟨String.ofList (dropDots stem.toList), undotted_iff.2 (by simp)⟩
      rw [hd.unique (.starred hstem hd')]
      obtain ⟨n, rfl⟩ := hd'.dotted
      simp only [String.length_append]
      have hlength : (".*" : String).length = 2 := rfl
      omega
  exact Nat.lt_irrefl _ (hshorter _ h)

/-- At the end of a word there is a `.*` before what is dropped. -/
def Restarred (word : String) : Prop :=
  ∃ front n, word = front ++ ".*" ++ dots n ++ ".*" ∨ word = front ++ ".*" ++ dots (n + 1)

theorem NormalForm.endsInStar_iff (h : NormalForm word d) : EndsInStar d ↔ Restarred word := by
  have hundotted : ∀ front n, Undotted (front ++ ".*" ++ dots n) (front ++ ".*") :=
    fun front n => ⟨⟨n, rfl⟩, not_endsInDot_star front⟩
  constructor
  · rintro ⟨front, rfl⟩
    generalize hd : front ++ ".*" = d at h
    cases h with
    | wildcard =>
        have hlast := congrArg String.length hd
        have htwo : (".*" : String).length = 2 := rfl
        have hone : ("*" : String).length = 1 := rfl
        rw [String.length_append] at hlast
        omega
    | starred _ hleft =>
        obtain ⟨n, rfl⟩ := hleft.dotted
        exact ⟨front, n, .inl (by rw [hd])⟩
    | plain hstar hleft =>
        obtain ⟨n, rfl⟩ := hleft.dotted
        cases n with
        | zero =>
            rw [dots_zero, String.append_empty] at hstar
            exact absurd ⟨front, hd.symm⟩ hstar
        | succ n => exact ⟨front, n, .inr (by rw [hd])⟩
  · rintro ⟨front, n, rfl | rfl⟩
    · have hne : front ++ ".*" ++ dots n ≠ "" := fun hnil => by
        have hlength := congrArg String.length hnil
        simp [String.length_append] at hlength
      exact ⟨front, h.unique (.starred hne (hundotted front n))⟩
    · have hstar := not_endsInStar_of_endsInDot (endsInDot_dots (front ++ ".*") n)
      exact ⟨front, h.unique (.plain hstar (hundotted front (n + 1)))⟩

end NormalForms

/-! ## Reading -/

section Reading

variable {ws ds : List String} {text word : String} {p : Pattern}

theorem normalizeAll_eq_ok_iff :
    normalizeAll ws = .ok ds ↔ ds = ws.map normalize ∧ ∀ word ∈ ws, normalize word ≠ "" := by
  induction ws generalizing ds with
  | nil =>
      rw [normalizeAll, Except.ok.injEq, List.map_nil, and_iff_left (List.forall_mem_nil _)]
      exact eq_comm
  | cons word rest ih =>
      rw [normalizeAll, List.forall_mem_cons, List.map_cons]
      by_cases hempty : normalize word = ""
      · simp [hempty]
      have hfirst : ¬ (normalize word).isEmpty = true := by simpa using hempty
      rw [if_neg hfirst]
      cases hrest : normalizeAll rest with
      | error bad =>
          have hnot : ¬ ∀ word ∈ rest, normalize word ≠ "" := fun hall => by
            rw [ih.2 ⟨rfl, hall⟩] at hrest
            cases hrest
          simp [Except.map, hnot]
      | ok ds' =>
          obtain ⟨rfl, hall⟩ := ih.1 hrest
          constructor
          · rintro ⟨⟩
            exact ⟨rfl, hempty, hall⟩
          · rintro ⟨rfl, -⟩
            rfl

theorem normalizeAll_eq_error_iff : normalizeAll ws = .error word ↔ ∃ before behind,
    ws = before ++ word :: behind ∧ normalize word = "" ∧ ∀ v ∈ before, normalize v ≠ "" := by
  induction ws with
  | nil => simp [normalizeAll]
  | cons first rest ih =>
      rw [normalizeAll]
      by_cases hempty : normalize first = ""
      · have hfirst : (normalize first).isEmpty = true := by simp [hempty]
        rw [if_pos hfirst, Except.error.injEq]
        constructor
        · rintro rfl
          exact ⟨[], rest, rfl, hempty, List.forall_mem_nil _⟩
        · rintro ⟨before, behind, hsplit, -, hbefore⟩
          cases before with
          | nil => exact (List.cons.inj hsplit).1
          | cons v before =>
              rw [← (List.cons.inj hsplit).1] at hbefore
              exact absurd hempty (hbefore first List.mem_cons_self)
      · have hfirst : ¬ (normalize first).isEmpty = true := by simp [hempty]
        rw [if_neg hfirst]
        have hmap : (normalizeAll rest).map (normalize first :: ·) = .error word ↔
            normalizeAll rest = .error word := by
          cases normalizeAll rest <;> simp [Except.map]
        rw [hmap, ih]
        constructor
        · rintro ⟨before, behind, rfl, hword, hbefore⟩
          exact ⟨first :: before, behind, rfl, hword, List.forall_mem_cons.2 ⟨hempty, hbefore⟩⟩
        · rintro ⟨before, behind, hsplit, hword, hbefore⟩
          cases before with
          | nil =>
              rw [(List.cons.inj hsplit).1] at hempty
              exact absurd hword hempty
          | cons v before =>
              obtain ⟨-, hrest⟩ := List.cons.inj hsplit
              exact ⟨before, behind, hrest, hword, (List.forall_mem_cons.1 hbefore).2⟩

theorem parse_eq_error_iff :
    parse text = .error word ↔ normalizeAll (words text) = .error word := by
  unfold parse
  cases normalizeAll (words text) with
  | error bad => simp
  | ok ds => cases ds <;> simp

theorem parse_eq_none_iff : parse text = .ok none ↔ words text = [] := by
  unfold parse
  constructor
  · intro h
    split at h
    · cases h
    · next hnil => exact List.map_eq_nil_iff.1 (normalizeAll_eq_ok_iff.1 hnil).1.symm
    · cases h
  · intro h
    rw [h]
    rfl

theorem parse_eq_some_iff : parse text = .ok (some p) ↔
    words text ≠ [] ∧ p.descriptors = (words text).map normalize ∧
      ∀ word ∈ words text, normalize word ≠ "" := by
  rw [← normalizeAll_eq_ok_iff]
  unfold parse
  cases hall : normalizeAll (words text) with
  | error bad => simp
  | ok ds =>
      have hlength : ds = [] ↔ words text = [] := by
        rw [(normalizeAll_eq_ok_iff.1 hall).1, List.map_eq_nil_iff]
      cases ds with
      | nil => simp [hlength.1 rfl]
      | cons d ds =>
          have hne : words text ≠ [] := fun hnil => List.cons_ne_nil d ds (hlength.2 hnil)
          obtain ⟨descriptors⟩ := p
          simp [hne]

/-- A pattern is refused only for a word of which nothing is left; a text without words is
accepted. -/
theorem exists_parse_iff :
    (∃ pattern, parse text = .ok pattern) ↔ ∀ word ∈ words text, normalize word ≠ "" := by
  have hall : (∃ ds, normalizeAll (words text) = .ok ds) ↔
      ∀ word ∈ words text, normalize word ≠ "" := by
    simp only [normalizeAll_eq_ok_iff, exists_eq_left]
  rw [← hall]
  unfold parse
  cases normalizeAll (words text) with
  | error word => simp
  | ok descriptors => cases descriptors <;> simp

theorem exists_word_of_mem (h : parse text = .ok (some p)) {d : String} (hd : d ∈ p.descriptors) :
    ∃ word ∈ words text, NormalForm word d ∧ IsSolid d ∧ ¬ EndsInDot d := by
  obtain ⟨-, hdescriptors, hall⟩ := parse_eq_some_iff.1 h
  rw [hdescriptors] at hd
  obtain ⟨word, hword, rfl⟩ := List.mem_map.1 hd
  have hnormal : NormalForm word (normalize word) := normalForm_iff.2 rfl
  exact ⟨word, hword, hnormal, hnormal.isSolid (isSolid_of_mem_words hword) (hall word hword),
    hnormal.not_endsInDot⟩

/-- Reading a pattern from its own descriptors gives the pattern again exactly if no descriptor
ends in `.*`, and that depends on the words that were written: no descriptor ends in a dot. -/
theorem reread_iff (h : parse text = .ok (some p)) :
    (∀ d ∈ p.descriptors, IsSolid d ∧ ¬ EndsInDot d) ∧
      (parse (" ".intercalate p.descriptors) = .ok (some p) ↔
        ∀ d ∈ p.descriptors, ¬ EndsInStar d) ∧
      ((∃ d ∈ p.descriptors, EndsInStar d) ↔ ∃ word ∈ words text, Restarred word) := by
  have hsound : ∀ d ∈ p.descriptors, IsSolid d ∧ ¬ EndsInDot d := fun d hd => by
    obtain ⟨_, -, -, hd⟩ := exists_word_of_mem h hd
    exact hd
  obtain ⟨hne, hdescriptors, -⟩ := parse_eq_some_iff.1 h
  refine ⟨hsound, ?_, ?_⟩
  · have hwords : words (" ".intercalate p.descriptors) = p.descriptors :=
      words_intercalate fun d hd => (hsound d hd).1
    have hnonempty : p.descriptors ≠ [] := by rwa [hdescriptors, Ne, List.map_eq_nil_iff]
    rw [parse_eq_some_iff, hwords, and_iff_right hnonempty]
    have hfixed : ∀ d ∈ p.descriptors, normalize d = d ↔ ¬ EndsInStar d := fun d hd => by
      rw [← normalForm_iff, normalForm_self_iff (hsound d hd).2]
    have hself : p.descriptors = p.descriptors.map normalize ↔
        ∀ d ∈ p.descriptors, normalize d = d := by
      have hmap := List.map_inj_left (l := p.descriptors) (f := normalize) (g := id)
      rw [List.map_id] at hmap
      rw [eq_comm]
      exact hmap
    constructor
    · rintro ⟨hmap, -⟩ d hd
      exact (hfixed d hd).1 (hself.1 hmap d hd)
    · intro hstar
      have hall : ∀ d ∈ p.descriptors, normalize d = d := fun d hd => (hfixed d hd).2 (hstar d hd)
      refine ⟨hself.2 hall, fun d hd => ?_⟩
      rw [hall d hd]
      exact (hsound d hd).1.1
  · have hiff : ∀ word, EndsInStar (normalize word) ↔ Restarred word :=
      fun word => (normalForm_iff.2 rfl).endsInStar_iff
    simp only [hdescriptors, List.mem_map, exists_exists_and_eq_and, hiff]

theorem reread_tidied :
    parse "go.* done.state.." = .ok (some ⟨["go", "done.state"]⟩) ∧
      (∀ d ∈ ["go", "done.state"], ¬ EndsInStar d) ∧
      parse (" ".intercalate ["go", "done.state"]) = .ok (some ⟨["go", "done.state"]⟩) := by
  have hread : parse "go.* done.state.." = .ok (some ⟨["go", "done.state"]⟩) := by decide +kernel
  have hstar : ∀ d ∈ ["go", "done.state"], ¬ EndsInStar d := by decide +kernel
  exact ⟨hread, hstar, (reread_iff hread).2.1.2 hstar⟩

/-- Of two `.*` one is dropped and the other one is left.  It is dropped when the descriptor is
read again, and the pattern then matches other names. -/
theorem not_reread : ∃ p q : Pattern,
    parse "a.*.*" = .ok (some p) ∧ parse (" ".intercalate p.descriptors) = .ok (some q) ∧ p ≠ q ∧
      (∃ d ∈ p.descriptors, EndsInStar d) ∧ p.covers "a.b" = false ∧ q.covers "a.b" = true :=
  ⟨⟨["a.*"]⟩, ⟨["a"]⟩, by decide +kernel, by decide +kernel, by decide,
    ⟨"a.*", List.mem_singleton_self _, "a", rfl⟩, by decide +kernel, by decide +kernel⟩

end Reading

end Pattern
end Event
end Statechart
