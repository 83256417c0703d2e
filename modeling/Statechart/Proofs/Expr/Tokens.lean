import Mathlib.Data.List.Infix
import Mathlib.Data.List.TakeWhile
import Statechart.Proofs.Expr.Grammar

/-!
# Blanks and tokens

The scanners for strings, numbers and words read what the grammar says that these are
written as, and nothing else.
-/

namespace Statechart
namespace Expr

open Text

/-! ## Runs of characters -/

theorem clear_dropWhile (kind : Char → Bool) (cs : List Char) : Clear kind (cs.dropWhile kind) :=
  fun c hc => by
    have hhead := List.head?_dropWhile_not kind cs
    rw [Option.mem_def.1 hc] at hhead
    simpa using hhead

theorem clear_cons {kind : Char → Bool} {c : Char} {cs : List Char} :
    Clear kind (c :: cs) ↔ kind c = false := by
  simp [Clear]

theorem clear_of_ne_cons {d : Char} {cs : List Char} (h : ∀ tail, cs = d :: tail → False) :
    Clear (· == d) cs := by
  intro c hc
  obtain ⟨tail, rfl⟩ := List.head?_eq_some_iff.1 hc
  have hne : c ≠ d := fun heq => h tail (by rw [heq])
  simpa using hne

theorem takeWhile_append {kind : Char → Bool} {cs next : List Char}
    (hcs : ∀ c ∈ cs, kind c = true) (hnext : Clear kind next) :
    (cs ++ next).takeWhile kind = cs := by
  rw [List.takeWhile_append_of_pos hcs]
  cases next with
  | nil => simp
  | cons c rest => simp [clear_cons.1 hnext]

theorem dropWhile_append {kind : Char → Bool} {cs next : List Char}
    (hcs : ∀ c ∈ cs, kind c = true) (hnext : Clear kind next) :
    (cs ++ next).dropWhile kind = next := by
  rw [List.dropWhile_append_of_pos hcs]
  cases next with
  | nil => rfl
  | cons c rest => simp [clear_cons.1 hnext]

/-! ## Blanks -/

theorem exists_blank_append (cs : List Char) : ∃ bs, Blank bs ∧ cs = bs ++ skipBlanks cs :=
  ⟨cs.takeWhile isBlank, fun _ hc => List.mem_takeWhile_imp hc,
    List.takeWhile_append_dropWhile.symm⟩

theorem skipBlanks_append {bs cs : List Char} (hbs : Blank bs) (hcs : Clear isBlank cs) :
    skipBlanks (bs ++ cs) = cs :=
  dropWhile_append hbs hcs

/-- Every blank character is one of these. -/
def blankCodes : List Nat :=
  [0x9, 0xA, 0xB, 0xC, 0xD, 0x20, 0x85, 0xA0, 0x1680, 0x2000, 0x2001, 0x2002, 0x2003, 0x2004,
    0x2005, 0x2006, 0x2007, 0x2008, 0x2009, 0x200A, 0x2028, 0x2029, 0x202F, 0x205F, 0x3000]

theorem toNat_mem_blankCodes {c : Char} (h : isBlank c = true) : c.toNat ∈ blankCodes := by
  simp only [isBlank, Bool.or_eq_true, Bool.and_eq_true, decide_eq_true_eq, beq_iff_eq] at h
  simp only [blankCodes, List.mem_cons, List.not_mem_nil]
  omega

/-- Holds of the characters with which an operand begins. -/
def startsOperand (c : Char) : Bool :=
  c == '(' || c == '"' || c == '\'' || c.isDigit || c == '-' || isLetter c || c == '_'

theorem isBlank_of_startsOperand {c : Char} (h : startsOperand c = true) : isBlank c = false := by
  by_contra hblank
  have hcode := toNat_mem_blankCodes (Bool.not_eq_false _ ▸ hblank)
  have hnone : ∀ n ∈ blankCodes, startsOperand (Char.ofNat n) = false := by decide +kernel
  rw [← Char.ofNat_toNat c, hnone _ hcode] at h
  cases h

/-! ## Strings -/

section Strings

variable {quote c : Char} {done cs s rest next : List Char} {e : Expr}

theorem stringTail_end : stringTail quote done (quote :: rest) =
    .ok (literal (.str (String.ofList done.reverse)), rest) := by
  rw [stringTail.eq_def]
  exact if_pos rfl

theorem stringTail_plain (hne : c ≠ quote) (hslash : c ≠ '\\') :
    stringTail quote done (c :: rest) = stringTail quote (c :: done) rest := by
  rw [stringTail.eq_def]
  exact (if_neg hne).trans (if_neg hslash)

theorem stringTail_escaped (hquote : quote ≠ '\\') :
    stringTail quote done ('\\' :: c :: rest) = stringTail quote (c :: done) rest := by
  rw [stringTail.eq_def]
  exact (if_neg hquote.symm).trans (if_pos rfl)

theorem stringTail_sound (hquote : quote ≠ '\\')
    (h : stringTail quote done cs = .ok (e, rest)) :
    ∃ text s, cs = text ++ [quote] ++ rest ∧ Quoted quote text s ∧
      e = literal (.str (String.ofList (done.reverse ++ s))) := by
  induction done, cs using stringTail.induct quote with
  | case1 done => simp [stringTail] at h
  | case2 done rest' =>
      rw [stringTail_end] at h
      cases h
      exact ⟨[], [], rfl, .nil, by rw [List.append_nil]⟩
  | case3 done hne =>
      simp [stringTail, hne] at h
  | case4 done c rest' hne ih =>
      rw [stringTail_escaped hquote] at h
      obtain ⟨text, s, rfl, hquoted, rfl⟩ := ih h
      exact ⟨'\\' :: c :: text, c :: s, rfl, hquoted.escaped, by simp⟩
  | case5 done c rest' hne hslash ih =>
      rw [stringTail_plain hne hslash] at h
      obtain ⟨text, s, rfl, hquoted, rfl⟩ := ih h
      exact ⟨c :: text, c :: s, rfl, hquoted.plain hne hslash, by simp⟩

theorem stringTail_complete (hquote : quote ≠ '\\') (h : Quoted quote cs s) :
    stringTail quote done (cs ++ [quote] ++ next) =
      .ok (literal (.str (String.ofList (done.reverse ++ s))), next) := by
  induction h generalizing done with
  | nil =>
      rw [List.append_nil]
      exact stringTail_end
  | plain hne hslash _ ih =>
      rw [List.cons_append, List.cons_append, stringTail_plain hne hslash, ih]
      simp
  | escaped _ ih =>
      rw [List.cons_append, List.cons_append, List.cons_append, List.cons_append,
        stringTail_escaped hquote, ih]
      simp

end Strings

/-! ## Numbers -/

namespace Numeral

variable {n : Numeral} {e : Expr}

theorem ofNumeral_eq_some_iff :
    ofNumeral n.negative n.whole n.fraction = some e ↔ ∃ v, n.Means v ∧ e = literal v := by
  have hdigits : (n.whole.isEmpty && (n.fraction.getD []).isEmpty) = true ↔
      n.whole ++ n.fraction.getD [] = [] := by simp
  have hint : (n.fraction.isNone && Value.fitsInt n.int) = true ↔ n.IsInt := by simp [IsInt]
  have hvalue : ofNumeral n.negative n.whole n.fraction =
      if n.whole.isEmpty && (n.fraction.getD []).isEmpty then none
      else if n.fraction.isNone && Value.fitsInt n.int then some (literal (.int n.int))
      else if n.float.isFinite then some (literal (.float n.float)) else none := rfl
  rw [hvalue]
  constructor
  · intro h
    split at h
    · cases h
    · next hsome =>
      rw [hdigits] at hsome
      split at h
      · next hisInt =>
        rw [hint] at hisInt
        cases h
        have hwhole : n.whole ≠ [] := by simpa [hisInt.1] using hsome
        exact ⟨_, .int hisInt hwhole, rfl⟩
      · next hisFloat =>
        rw [hint] at hisFloat
        split at h
        · next hfinite =>
          cases h
          exact ⟨_, .float hisFloat hsome hfinite, rfl⟩
        · cases h
  · rintro ⟨v, hmeans, rfl⟩
    cases hmeans with
    | int hisInt hwhole =>
        have hsome : n.whole ++ n.fraction.getD [] ≠ [] := by simp [hwhole]
        rw [if_neg (mt hdigits.1 hsome), if_pos (hint.2 hisInt)]
    | float hisFloat hsome hfinite =>
        rw [if_neg (mt hdigits.1 hsome), if_neg (mt hint.1 hisFloat), if_pos hfinite]

end Numeral

/-- Splits the digits of a number off that stand behind its sign. -/
def scanDigits (negative : Bool) (cs : List Char) :
    Bool × List Char × Option (List Char) × List Char :=
  match cs.dropWhile Char.isDigit with
  | '.' :: rest => (negative, cs.takeWhile Char.isDigit, some (rest.takeWhile Char.isDigit),
      rest.dropWhile Char.isDigit)
  | rest => (negative, cs.takeWhile Char.isDigit, none, rest)

theorem scanNumber_minus (cs : List Char) : scanNumber ('-' :: cs) = scanDigits true cs := rfl

theorem scanNumber_of_clear {cs : List Char} (h : Clear (· == '-') cs) :
    scanNumber cs = scanDigits false cs := by
  unfold scanNumber
  split
  next negative tail hsign =>
  split at hsign
  · next rest => cases h '-' rfl
  · cases hsign
    rfl

/-- The digits of a numeral behind its sign. -/
def Numeral.digits (n : Numeral) : List Char :=
  n.whole ++
    match n.fraction with
    | none => []
    | some digits => '.' :: digits

theorem Numeral.text_eq (n : Numeral) :
    n.text = (if n.negative then ['-'] else []) ++ n.digits :=
  List.append_assoc _ _ _

theorem scanDigits_sound {negative : Bool} {cs rest : List Char} {n : Numeral}
    (h : scanDigits negative cs = (n.negative, n.whole, n.fraction, rest)) :
    n.negative = negative ∧ cs = n.digits ++ rest ∧ (∀ c ∈ n.whole, c.isDigit = true) ∧
      (∀ c ∈ n.fraction.getD [], c.isDigit = true) ∧ Clear n.continues rest := by
  obtain ⟨negative', whole, fraction⟩ := n
  have hsplit : cs.takeWhile Char.isDigit ++ cs.dropWhile Char.isDigit = cs :=
    List.takeWhile_append_dropWhile
  have hwhole : ∀ c ∈ cs.takeWhile Char.isDigit, c.isDigit = true :=
    fun c hc => List.mem_takeWhile_imp hc
  have hrest := clear_dropWhile Char.isDigit cs
  unfold scanDigits at h
  split at h
  · next behind hpoint =>
    cases h
    refine ⟨rfl, ?_, hwhole, fun c hc => List.mem_takeWhile_imp hc, ?_⟩
    · rw [hpoint] at hsplit
      simp [Numeral.digits, hsplit]
    · intro c hc
      simp [Numeral.continues, clear_dropWhile Char.isDigit behind c hc]
  · next hpoint =>
    cases h
    refine ⟨rfl, ?_, hwhole, fun c hc => (List.not_mem_nil hc).elim, ?_⟩
    · simp [Numeral.digits, hsplit]
    · intro c hc
      have hne : c ≠ '.' := by
        rintro rfl
        obtain ⟨tail, htail⟩ := List.head?_eq_some_iff.1 hc
        exact hpoint tail htail
      simp [Numeral.continues, hrest c hc, hne]

theorem scanDigits_complete {n : Numeral} {next : List Char} (hn : n.Written)
    (hnext : Clear n.continues next) :
    scanDigits n.negative (n.digits ++ next) = (n.negative, n.whole, n.fraction, next) := by
  obtain ⟨negative, whole, fraction⟩ := n
  cases fraction with
  | none =>
      have hdigit : Clear Char.isDigit next := fun c hc => by
        simpa [Numeral.continues] using (Bool.or_eq_false_iff.1 (hnext c hc)).1
      have hpoint : ∀ rest, next ≠ '.' :: rest := by
        rintro rest rfl
        simpa [Numeral.continues] using clear_cons.1 hnext
      simp only [scanDigits, Numeral.digits, List.append_nil, dropWhile_append hn.whole hdigit,
        takeWhile_append hn.whole hdigit]
  | some digits =>
      have hdigit : Clear Char.isDigit next := fun c hc => by
        simpa [Numeral.continues] using (Bool.or_eq_false_iff.1 (hnext c hc)).1
      have hpoint : Clear Char.isDigit ('.' :: (digits ++ next)) := clear_cons.2 (by decide)
      have hfraction : ∀ c ∈ digits, c.isDigit = true := hn.fraction
      simp only [scanDigits, Numeral.digits, List.append_assoc, List.cons_append,
        dropWhile_append hn.whole hpoint, takeWhile_append hn.whole hpoint,
        dropWhile_append hfraction hdigit, takeWhile_append hfraction hdigit]

/-- The scanner splits off the longest numeral at the front. -/
theorem scanNumber_sound {cs rest : List Char} {n : Numeral}
    (h : scanNumber cs = (n.negative, n.whole, n.fraction, rest))
    (hcs : ∃ c tail, cs = c :: tail ∧ (c.isDigit = true ∨ c = '-')) :
    cs = n.text ++ rest ∧ n.Written ∧ Clear n.continues rest := by
  obtain ⟨c, tail, rfl, hc⟩ := hcs
  by_cases hminus : c = '-'
  · subst hminus
    rw [scanNumber_minus] at h
    obtain ⟨hneg, rfl, hwhole, hfraction, hclear⟩ := scanDigits_sound h
    exact ⟨by simp [n.text_eq, hneg], ⟨hwhole, hfraction, .inl hneg⟩, hclear⟩
  · have hdigit := hc.resolve_right hminus
    rw [scanNumber_of_clear (clear_cons.2 (by simpa using hminus))] at h
    obtain ⟨hneg, htext, hwhole, hfraction, hclear⟩ := scanDigits_sound h
    refine ⟨by simp [n.text_eq, hneg, htext], ⟨hwhole, hfraction, .inr ?_⟩, hclear⟩
    -- The digit at the front is neither a point nor behind the numeral.
    intro hempty
    cases hfraction : n.fraction with
    | none =>
        obtain rfl : c :: tail = rest := by simpa [Numeral.digits, hempty, hfraction] using htext
        simp [Numeral.continues, hdigit, clear_cons] at hclear
    | some digits =>
        obtain ⟨rfl, -⟩ : c = '.' ∧ tail = digits ++ rest := by
          simpa [Numeral.digits, hempty, hfraction] using htext
        cases hdigit

theorem scanNumber_complete {n : Numeral} {next : List Char} (hn : n.Written)
    (hnext : Clear n.continues next) :
    scanNumber (n.text ++ next) = (n.negative, n.whole, n.fraction, next) := by
  rw [← scanDigits_complete hn hnext, n.text_eq]
  cases hneg : n.negative with
  | true => exact scanNumber_minus _
  | false =>
      refine scanNumber_of_clear ?_
      have hnonempty : n.whole ≠ [] := hn.begins.resolve_left (by simp [hneg])
      obtain ⟨c, tail, hwhole⟩ := List.exists_cons_of_ne_nil hnonempty
      have hdigit : c.isDigit = true := hn.whole c (by simp [hwhole])
      have hne : c ≠ '-' := by rintro rfl; cases hdigit
      simp [Numeral.digits, hwhole, clear_cons, hne]

theorem Numeral.Written.head {n : Numeral} (hn : n.Written) :
    ∃ c tail, n.text = c :: tail ∧ (c.isDigit = true ∨ c = '-') := by
  rw [n.text_eq]
  cases hneg : n.negative with
  | true => exact ⟨'-', n.digits, rfl, .inr rfl⟩
  | false =>
      have hne : n.whole ≠ [] := hn.begins.resolve_left (by simp [hneg])
      obtain ⟨c, tail, hwhole⟩ := List.exists_cons_of_ne_nil hne
      refine ⟨c, _, by rw [Numeral.digits, hwhole]; rfl, .inl (hn.whole c ?_)⟩
      rw [hwhole]
      exact List.mem_cons_self

theorem number_sound {cs rest : List Char} {e : Expr} (h : number cs = .ok (e, rest))
    (hcs : ∃ c tail, cs = c :: tail ∧ (c.isDigit = true ∨ c = '-')) :
    ∃ n v, cs = Numeral.text n ++ rest ∧ n.Written ∧ n.Means v ∧ Clear n.continues rest ∧
      e = literal v := by
  obtain ⟨negative, whole, fraction, behind, hscan⟩ :
      ∃ negative whole fraction behind, scanNumber cs = (negative, whole, fraction, behind) :=
    ⟨_, _, _, _, rfl⟩
  simp only [number, hscan] at h
  split at h
  · next value hvalue =>
    cases h
    obtain ⟨htext, hwritten, hclear⟩ :=
      scanNumber_sound (n := ⟨negative, whole, fraction⟩) hscan hcs
    obtain ⟨v, hmeans, rfl⟩ :=
      (Numeral.ofNumeral_eq_some_iff (n := ⟨negative, whole, fraction⟩)).1 hvalue
    exact ⟨_, v, htext, hwritten, hmeans, hclear, rfl⟩
  · cases h

theorem number_complete {n : Numeral} {v : Value} {next : List Char} (hn : n.Written)
    (hv : n.Means v) (hnext : Clear n.continues next) :
    number (n.text ++ next) = .ok (literal v, next) := by
  have hvalue : ofNumeral n.negative n.whole n.fraction = some (literal v) :=
    Numeral.ofNumeral_eq_some_iff.2 ⟨v, hv, rfl⟩
  simp only [number, scanNumber_complete hn hnext, hvalue]

/-! ## Words -/

theorem hasGap_eq_false_iff {cs : List Char} :
    hasGap cs = false ↔ cs.getLast? ≠ some '.' ∧ ¬ ['.', '.'] <:+: cs := by
  induction cs using hasGap.induct with
  | case1 => simp [hasGap]
  | case2 => simp [hasGap]
  | case3 rest => simp [hasGap, List.infix_cons_iff]
  | case4 c rest hend hdots ih =>
      have hlast : (c :: rest).getLast? ≠ some '.' ↔ rest.getLast? ≠ some '.' := by
        cases rest with
        | nil => simpa using fun hc => hend hc rfl
        | cons d tail => rw [List.getLast?_cons_cons]
      have hprefix : ¬ ['.', '.'] <+: c :: rest := by
        rintro ⟨tail, heq⟩
        cases heq
        exact hdots tail rfl rfl
      rw [hasGap.eq_4 _ _ hend hdots, ih, List.infix_cons_iff, hlast, not_or, and_iff_right hprefix]

theorem ofWord_eq_ok_iff {cs : List Char} {e : Expr} : ofWord cs = .ok e ↔ Names cs e := by
  constructor
  · intro h
    unfold ofWord at h
    dsimp only at h
    split at h
    · next htext => cases h; rw [← String.toList_ofList (l := cs), htext]; exact .true
    · split at h
      · next htext => cases h; rw [← String.toList_ofList (l := cs), htext]; exact .false
      · split at h
        · next htext => cases h; rw [← String.toList_ofList (l := cs), htext]; exact .null
        · split at h
          · cases h
          · next htrue hfalse hnull hgap =>
            cases h
            obtain ⟨hlast, hdots⟩ := hasGap_eq_false_iff.1 (Bool.not_eq_true _ ▸ hgap)
            exact .path (by simp [htrue, hfalse, hnull]) hlast hdots
  · intro h
    cases h with
    | true => rfl
    | false => rfl
    | null => rfl
    | path hconst hlast hdots =>
        simp only [List.mem_cons, List.not_mem_nil, or_false, not_or] at hconst
        have hgap : hasGap cs = false := hasGap_eq_false_iff.2 ⟨hlast, hdots⟩
        simp [ofWord, hconst, hgap]

theorem isDigit_of_isLetter {c : Char} (h : isLetter c = true) : c.isDigit = false := by
  by_contra hdigit
  have hrange : 48 ≤ c.toNat ∧ c.toNat ≤ 57 := by
    simpa [Char.isDigit, UInt32.le_iff_toNat_le] using hdigit
  have hcode : c.toNat ∈ List.range' 48 10 := List.mem_range'_1.2 (by omega)
  have hnone : ∀ n ∈ List.range' 48 10, isLetter (Char.ofNat n) = false := by
    decide +kernel
  rw [← Char.ofNat_toNat c, hnone _ hcode] at h
  cases h

theorem word_sound {c : Char} {tail rest : List Char} {e : Expr}
    (h : word (c :: tail) = .ok (e, rest)) (hc : isLetter c = true ∨ c = '_') :
    ∃ text, c :: tail = text ++ rest ∧ IsWord text ∧ Names text e ∧ Clear isWordChar rest := by
  have hfirst : isWordChar c = true := by
    rcases hc with hc | rfl
    · simp [isWordChar, isAlphanumeric, hc]
    · decide
  cases hnames : ofWord ((c :: tail).takeWhile isWordChar) with
  | error fault => simp [word, hnames, Except.map] at h
  | ok e' =>
      simp only [word, hnames, Except.map] at h
      cases h
      refine ⟨(c :: tail).takeWhile isWordChar, List.takeWhile_append_dropWhile.symm, ⟨?_, ?_⟩,
        ofWord_eq_ok_iff.1 hnames, clear_dropWhile isWordChar _⟩
      · exact ⟨c, tail.takeWhile isWordChar, List.takeWhile_cons_of_pos hfirst, hc⟩
      · exact fun d hd => List.mem_takeWhile_imp hd

theorem word_complete {cs next : List Char} {e : Expr} (hcs : IsWord cs) (hnames : Names cs e)
    (hnext : Clear isWordChar next) : word (cs ++ next) = .ok (e, next) := by
  rw [word, takeWhile_append hcs.2 hnext, dropWhile_append hcs.2 hnext,
    ofWord_eq_ok_iff.2 hnames]
  rfl

end Expr
end Statechart
