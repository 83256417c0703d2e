import Mathlib.Data.List.DropRight
import Statechart.Proofs.Expr.Outcomes

/-!
# The machine follows the parser

Each level of the grammar keeps that the machine does what the parser says.  The parser bounds
its loops by fuel and its parentheses by a depth, the machine by nothing, so that they agree on
texts that are shorter than the depth (`Follows`): parentheses leave a shorter text for what
stands in them.  From the whole text on, the machine then stops with what the parser gives.
-/

namespace Statechart
namespace Expr
namespace Cursor

open Text

variable {text : String} {result : Except ExpressionError Expr} {i n : Nat}
  {cs rest : List Char} {outcome : Except Fault (Expr × List Char)} {q : Procedure}
  {frames : Frames q} {inner p : Parser Expr} {tighter : Level}

/-! ## Operators -/

/-- The first of some signs that stands at the front of a text, as an operator. -/
def operatorOf : List Sign → Operator
  | [], _ => none
  | s :: more, cs =>
    if s.symbol.isPrefixOf cs then some (s.build, cs.drop s.symbol.length) else operatorOf more cs

/-- A sign has characters, and its width is their number of bytes. -/
def Sign.Measured (s : Sign) : Prop :=
  s.width = byteLength s.symbol ∧ s.symbol ≠ []

theorem operatorOf_eq_some {signs : List Sign} {build : Expr → Expr → Expr}
    (h : operatorOf signs cs = some (build, rest)) :
    ∃ s ∈ signs, s.build = build ∧ cs = s.symbol ++ rest := by
  induction signs with
  | nil => cases h
  | cons s more ih =>
      rw [operatorOf] at h
      split at h
      · next hfits =>
        cases h
        obtain ⟨rest, rfl⟩ := List.isPrefixOf_iff_prefix.1 hfits
        exact ⟨s, List.mem_cons_self, rfl, by rw [List.drop_left]⟩
      · obtain ⟨s', hmem, hs'⟩ := ih h
        exact ⟨s', List.mem_cons_of_mem _ hmem, hs'⟩

theorem operatorOf_eq_none {signs : List Sign} (h : ∀ s ∈ signs, ∀ rest, cs ≠ s.symbol ++ rest) :
    operatorOf signs cs = none := by
  cases hfound : operatorOf signs cs with
  | none => rfl
  | some found =>
      obtain ⟨s, hs, -, hcs⟩ := operatorOf_eq_some hfound
      exact absurd hcs (h s hs found.2)

theorem Ends.sign {signs : List Sign} {f : Option (Expr → Expr → Expr) → Code q.Answer}
    (hsigns : ∀ s ∈ signs, s.Measured) (hat : At text i cs) (hframes : frames.Advancing)
    (hnone : operatorOf signs cs = none → Ends text result (.running i (f none) frames))
    (hsome : ∀ build rest, operatorOf signs cs = some (build, rest) → ∀ j, i < j →
      At text j rest → Ends text result (.running j (f (some build)) frames)) :
    Ends text result (.running i (Cursor.sign signs >>= f) frames) := by
  induction signs with
  | nil => exact hnone rfl
  | cons s more ih =>
      refine .looksAt hat hframes ?_
      change Ends text result (.running i (Code.bind
        (if s.symbol.isPrefixOf cs then do
          Cursor.advance s.width
          return some s.build
        else Cursor.sign more) f) frames)
      rw [operatorOf] at hnone hsome
      by_cases hfits : s.symbol.isPrefixOf cs = true
      · rw [if_pos hfits] at hsome ⊢
        obtain ⟨hwidth, hnonempty⟩ := hsigns s List.mem_cons_self
        obtain ⟨rest, rfl⟩ := List.isPrefixOf_iff_prefix.1 hfits
        change Ends text result (.running i (Cursor.advance s.width >>= fun _ => f (some s.build))
          frames)
        refine .over hat hwidth hnonempty hframes fun j hlt hj => ?_
        exact hsome s.build rest (by rw [List.drop_left]) j hlt hj
      · rw [if_neg hfits] at hnone hsome ⊢
        exact ih (fun s' hs' => hsigns s' (List.mem_cons_of_mem _ hs')) hnone hsome

def Joined.operator : Joined → Operator
  | disjunction => orOperator
  | conjunction => andOperator
  | sum => sumOperator

theorem isPrefixOf_eq_false (symbol : List Char) (h : ∀ rest, cs = symbol ++ rest → False) :
    symbol.isPrefixOf cs = false := by
  rw [Bool.eq_false_iff, ne_eq, List.isPrefixOf_iff_prefix]
  rintro ⟨rest, hrest⟩
  exact h rest hrest.symm

theorem operatorOf_signs (level : Joined) : operatorOf level.signs = level.operator := by
  funext cs
  cases level with
  | disjunction =>
      rw [Joined.operator, orOperator.eq_def]
      split
      · rfl
      · next hor => exact operatorOf_eq_none (by simpa [Joined.signs, orSigns] using hor)
  | conjunction =>
      rw [Joined.operator, andOperator.eq_def]
      split
      · rfl
      · next hand => exact operatorOf_eq_none (by simpa [Joined.signs, andSigns] using hand)
  | sum =>
      rw [Joined.operator, sumOperator.eq_def]
      split
      · rfl
      · rfl
      · next hadd hsub =>
        exact operatorOf_eq_none (by simpa [Joined.signs, sumSigns] using ⟨hadd, hsub⟩)

theorem operatorOf_comparisonSigns : operatorOf comparisonSigns = comparisonOperator := by
  funext cs
  rw [comparisonOperator.eq_def]
  split
  · rfl
  · rfl
  · rfl
  · rfl
  · next rest hlonger =>
    have hshorter := isPrefixOf_eq_false ['='] hlonger
    simp [comparisonSigns, operatorOf, hshorter]
  · next rest hlonger =>
    have hshorter := isPrefixOf_eq_false ['='] hlonger
    simp [comparisonSigns, operatorOf, hshorter]
  · next hequal hunequal hatLeast hatMost hgreater hless =>
    exact operatorOf_eq_none (by
      simpa [comparisonSigns] using ⟨hequal, hunequal, hatLeast, hatMost, hgreater, hless⟩)

theorem measured_signs (level : Joined) : ∀ s ∈ level.signs, s.Measured := by
  cases level <;> simp [Joined.signs, orSigns, andSigns, sumSigns, Sign.Measured] <;> decide

theorem measured_comparisonSigns : ∀ s ∈ comparisonSigns, s.Measured := by
  simp [comparisonSigns, Sign.Measured]
  decide

theorem operatorOf_length_lt {signs : List Sign} {build : Expr → Expr → Expr}
    (hsigns : ∀ s ∈ signs, s.Measured) (h : operatorOf signs cs = some (build, rest)) :
    rest.length < cs.length := by
  obtain ⟨s, hs, -, rfl⟩ := operatorOf_eq_some h
  have hpos : 0 < s.symbol.length := List.length_pos_of_ne_nil (hsigns s hs).2
  rw [List.length_append]
  omega

/-! ## Levels -/

theorem skipBlanks_skipBlanks (cs : List Char) : skipBlanks (skipBlanks cs) = skipBlanks cs :=
  List.dropWhile_idempotent _ _

theorem length_skipBlanks_le (cs : List Char) : (skipBlanks cs).length ≤ cs.length :=
  (List.dropWhile_sublist _).length_le

theorem rank_part_lt (level : Joined) : level.part.rank < (Rule.joined level).rank := by
  cases level <;> decide

theorem rank_joinedRest_lt (level : Joined) (left : Expr) :
    (Rule.joinedRest level left).rank < (Rule.joined level).rank := by
  cases level <;> simp [Rule.rank]

/-- A procedure does what a parser says of texts that are shorter than some length. -/
def Follows (text : String) (n : Nat) (r : Rule) (p : Parser Expr) : Prop :=
  ∀ cs, cs.length < n → ComesTo text r cs (p cs)

theorem comesTo_joinedRest {level : Joined} (hp : Follows text n level.part p)
    (hsound : Sound tighter p) (fuel : Nat) (left : Expr) (hfuel : cs.length ≤ fuel)
    (hn : cs.length ≤ n) :
    ComesTo text (.joinedRest level left) (skipBlanks cs)
      (chainTail level.operator p fuel left cs) := by
  induction fuel generalizing left cs with
  | zero =>
      obtain rfl : cs = [] := List.eq_nil_of_length_eq_zero (Nat.le_zero.1 hfuel)
      refine .of_code fun result i frames hat hentered hresumes => ?_
      refine .sign (measured_signs level) hat hentered.advancing (fun hnone => ?_)
        fun build rest hsome => ?_
      · exact hresumes i [] le_rfl hat rfl
      · exact absurd (operatorOf_length_lt (measured_signs level) hsome) (Nat.not_lt_zero _)
  | succ fuel ih =>
      refine .of_code fun result i frames hat hentered hresumes => ?_
      rw [chainTail, ← operatorOf_signs] at hresumes
      refine .sign (measured_signs level) hat hentered.advancing (fun hnone => ?_)
        fun build rest hsome j hlt hj => ?_
      · rw [hnone] at hresumes
        exact hresumes i _ le_rfl hat (skipBlanks_skipBlanks cs)
      · rw [hsome] at hresumes
        have hlength := operatorOf_length_lt (measured_signs level) hsome
        have hskip := length_skipBlanks_le cs
        dsimp only at hresumes
        refine (hp rest (by omega)).ends_skip hj (hentered.free_of_lt hlt)
          (fun k hle => hentered.free_of_lt (hlt.trans_le hle)) (fun fault hright => ?_)
          fun right rest' hright k hle hk => ?_
        · rw [hright] at hresumes
          exact hresumes
        · rw [hright, operatorOf_signs] at hresumes
          have hlater : i < k := hlt.trans_le hle
          have hlength' := hsound.length_le hright
          exact (ih (build left right) (by omega) (by omega)).last hk
            (hentered.free_of_lt hlater) (hresumes.mono hlater.le)

theorem Follows.joined {level : Joined} (hp : Follows text n level.part p)
    (hsound : Sound tighter p) : Follows text n (.joined level) (chain level.operator p) := by
  intro cs hn
  refine .of_code fun result i frames hat hentered hresumes => ?_
  have hskip : ∀ j, i ≤ j → frames.Free j 0 :=
    fun j hle => hentered.free_of_le hle (by cases level <;> decide)
  rw [chain] at hresumes
  refine (hp cs hn).ends_skip hat (hentered.free_of_le le_rfl (rank_part_lt level)) hskip
    (fun fault hfirst => ?_) fun left rest hfirst j hle hj => ?_
  · rw [hfirst] at hresumes
    exact hresumes
  · rw [hfirst] at hresumes
    have hlength := hsound.length_le hfirst
    exact (comesTo_joinedRest hp hsound rest.length left le_rfl (by omega)).last hj
      (hentered.free_of_le hle (rank_joinedRest_lt level left)) (hresumes.mono hle)

theorem Follows.comparison (hsum : Follows text n (.joined .sum) (sum inner))
    (hsound : Sound .sum (sum inner)) : Follows text n .comparison (comparison inner) := by
  intro cs hn
  refine .of_code fun result i frames hat hentered hresumes => ?_
  rw [Expr.comparison, ← operatorOf_comparisonSigns] at hresumes
  refine (hsum cs hn).ends_skip hat (hentered.free_of_le le_rfl (by decide))
    (fun j hle => hentered.free_of_le hle (by decide)) (fun fault hleft => ?_)
    fun left rest hleft j hle hj => ?_
  · rw [hleft] at hresumes
    exact hresumes
  rw [hleft] at hresumes
  replace hresumes := hresumes.mono hle
  dsimp only at hresumes
  refine .sign measured_comparisonSigns hj hentered.advancing (fun hnone => ?_)
    fun build rest' hsome k hlt hk => ?_
  · rw [hnone] at hresumes
    exact hresumes j _ le_rfl hj (skipBlanks_skipBlanks rest)
  · rw [hsome] at hresumes
    have hlength : rest'.length < n :=
      (operatorOf_length_lt measured_comparisonSigns hsome).trans_le
        ((length_skipBlanks_le rest).trans ((hsound.length_le hleft).trans hn.le))
    refine (hsum rest' hlength).ends hk (hentered.free_of_lt (hle.trans_lt hlt)) ?_
    replace hresumes := hresumes.mono hlt.le
    dsimp only at hresumes
    cases hright : sum inner rest' with
    | error fault =>
        rw [hright] at hresumes
        exact hresumes
    | ok done =>
        rw [hright] at hresumes
        exact hresumes

theorem comesTo_negation_comparison (h : ComesTo text .comparison (skipBlanks cs) outcome)
    (hsign : (skipBlanks cs).head? = some '!' → ['!', '='].isPrefixOf (skipBlanks cs) = true) :
    ComesTo text .negation cs outcome := by
  refine .of_code fun result i frames hat hentered hresumes => ?_
  refine .overBlanks hat (hentered.free_of_le le_rfl (by decide)) rfl fun j hle hj => ?_
  refine .peek hj hentered.advancing ?_
  have hlast : Ends text result (@Moment.running (.rule .negation) j (read .comparison) frames) :=
    h.last hj (hentered.free_of_le hle (by decide)) (hresumes.mono hle)
  by_cases hmark : (skipBlanks cs).head? = some '!'
  · rw [if_pos hmark]
    refine .looksAt hj hentered.advancing ?_
    rw [if_pos (hsign hmark)]
    exact hlast
  · rw [if_neg hmark]
    exact hlast

theorem comesTo_negation_not (hmark : skipBlanks cs = '!' :: rest)
    (hsign : ['='].isPrefixOf rest = false) (h : ComesTo text .negation rest outcome) :
    ComesTo text .negation cs (outcome.map fun (e, rest) => (not e, rest)) := by
  refine .of_code fun result i frames hat hentered hresumes => ?_
  refine .overBlanks hat (hentered.free_of_le le_rfl (by decide)) rfl fun j hle hj => ?_
  refine .peek hj hentered.advancing ?_
  rw [hmark] at hj ⊢
  rw [if_pos (by rfl)]
  refine .looksAt hj hentered.advancing ?_
  have hlonger : ['!', '='].isPrefixOf ('!' :: rest) = ['='].isPrefixOf rest := rfl
  rw [hlonger, hsign, if_neg Bool.false_ne_true]
  refine .overChar hj rfl hentered.advancing fun k hlt hk => ?_
  have hlater : i < k := hle.trans_lt hlt
  refine h.ends hk (hentered.free_of_lt hlater) ?_
  replace hresumes := hresumes.mono hlater.le
  cases outcome with
  | error fault => exact hresumes
  | ok done => exact hresumes

theorem comesTo_negation (hcomparison : Follows text n .comparison (comparison inner))
    (fuel : Nat) (hfuel : cs.length ≤ fuel) (hn : cs.length < n) :
    ComesTo text .negation cs (negationTail inner fuel cs) := by
  have hskip := length_skipBlanks_le cs
  induction fuel generalizing cs with
  | zero =>
      obtain rfl : cs = [] := List.eq_nil_of_length_eq_zero (Nat.le_zero.1 hfuel)
      exact comesTo_negation_comparison (hcomparison [] hn) nofun
  | succ fuel ih =>
      rw [negationTail]
      have hcomparison' := hcomparison (skipBlanks cs) (hskip.trans_lt hn)
      split
      · next rest hlonger =>
        rw [← hlonger]
        exact comesTo_negation_comparison hcomparison' fun _ => by rw [hlonger]; rfl
      · next rest hlonger hmark =>
        rw [hmark, List.length_cons] at hskip
        refine comesTo_negation_not hmark (isPrefixOf_eq_false ['='] hlonger) ?_
        exact ih (by omega) (by omega) (length_skipBlanks_le rest)
      · next hlonger hmark =>
        refine comesTo_negation_comparison hcomparison' fun hhead => ?_
        obtain ⟨rest, hrest⟩ := List.head?_eq_some_iff.1 hhead
        exact absurd hrest (hmark rest)

/-- The text behind a parenthesis is shorter, so one less depth is enough for it. -/
theorem Follows.nested (depth : Nat) :
    Follows text depth (.joined .disjunction) (nested depth) := by
  induction depth with
  | zero => exact fun cs hn => absurd hn (Nat.not_lt_zero _)
  | succ depth ih =>
      have hsound : Sound .disjunction (Expr.nested depth) := .nested depth
      have hoperand : Follows text (depth + 1) .operand (operand (Expr.nested depth)) := by
        intro cs hn
        refine comesTo_operand fun rest hrest => ih rest ?_
        have hskip := length_skipBlanks_le cs
        rw [hrest, List.length_cons] at hskip
        omega
      have hsum : Follows text (depth + 1) (.joined .sum) (sum (Expr.nested depth)) :=
        Follows.joined hoperand hsound.operand
      have hnegation : Follows text (depth + 1) .negation (negation (Expr.nested depth)) :=
        fun cs hn => comesTo_negation (hsum.comparison hsound.sum) cs.length le_rfl hn
      have hconjunction :
          Follows text (depth + 1) (.joined .conjunction) (conjunction (Expr.nested depth)) :=
        Follows.joined hnegation hsound.negation
      exact Follows.joined hconjunction hsound.conjunction

/-! ## Whole texts -/

/-- The outermost procedure reads the text to the end, or reports where it stopped: the byte of
the cursor is what the characters that are left do not take up. -/
theorem ends_start (text : String) : Ends text (parse text) (start text) := by
  have hinput : trimChars text.toList = input text := rfl
  rw [start, parse, hinput]
  by_cases hempty : (input text).isEmpty = true
  · rw [if_pos hempty, if_pos hempty]
    exact .stopped
  rw [if_neg hempty, if_neg hempty]
  have hentered : Frames.outermost.Entered 0 := Frames.entered_outermost
  have hread : ComesTo text (.joined .disjunction) (input text)
      (nested ((input text).length + 1) (input text)) :=
    Follows.nested _ (input text) (Nat.lt_succ_self _)
  refine hread.ends_skip (at_zero text) (hentered.free_of_le le_rfl (by decide))
    (fun i hle => hentered.free_of_le hle (by decide)) (fun fault hfault => ?_)
    fun e rest hok i _ hi => ?_
  · rw [hfault]
  rw [hok]
  refine .cursor hi hentered.advancing ?_
  have hlength := hi.byteLength_eq
  dsimp only
  cases hrest : skipBlanks rest with
  | nil =>
      rw [hrest] at hi hlength
      rw [if_neg (by simp [hlength])]
      exact .whole hi rfl
  | cons c rest' =>
      rw [hrest] at hi hlength
      have hpos : 0 < byteLength (c :: rest') := byteLength_pos (List.cons_ne_nil c rest')
      have hoffset : byteLength (input text) - byteLength (c :: rest') = i := by omega
      rw [if_pos (by omega)]
      refine .fail hi hentered.advancing ?_
      dsimp only
      rw [hoffset]

/-- The parser gives an expression or the reason why a text is none. -/
theorem parse_eq_ok_or_unreadable (text : String) :
    (∃ e, parse text = .ok e) ∨ ∃ shown fault, parse text = .error (.unreadable shown fault) := by
  unfold parse
  dsimp only
  split
  · exact .inr ⟨_, _, rfl⟩
  · split
    · exact .inr ⟨_, _, rfl⟩
    · split
      · exact .inl ⟨_, rfl⟩
      · exact .inr ⟨_, _, rfl⟩

/-- Reading a text with a cursor is sound at every moment, whatever the text is: the cursor
stands between two characters of the trimmed text, the machine has not panicked, and of the
active calls of one procedure, rounds of a loop among them, each was made at a later byte than
the one before.  It ends with what the parser gives, an expression or the reason why the text
is none. -/
theorem moments_sound_and_stop (text : String) :
    (∀ n, (moment text n).Sound text) ∧ (∃ n, moment text n = .stopped (parse text)) ∧
      ((∃ e, parse text = .ok e) ∨
        ∃ shown fault, parse text = .error (.unreadable shown fault)) :=
  ⟨fun n => ((ends_start text).iterate n).sound, (ends_start text).exists_stopped,
    parse_eq_ok_or_unreadable text⟩

end Cursor
end Expr
end Statechart
