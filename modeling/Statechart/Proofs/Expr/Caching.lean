import Mathlib.Data.Finset.Card
import Statechart.Expr.Cache
import Statechart.Proofs.Fields

/-!
# The cache cannot be noticed

Whatever an evaluator was asked before, its cache holds the trees of those of the texts that are
expressions, each under its own text, and nothing else (`Cache.Records`).  Every question keeps
that and is answered as by reading the text afresh.

The questions of a program depend on the answers it got so far.  An `Inquiry` is such a program.
It comes to the same with a cache as with an evaluator that reads every text anew
(`Cache.through_after`).
-/

namespace Statechart

namespace Expr

/-- Holds of the texts that are expressions. -/
def reads (text : String) : Bool := (Expr.parse text).toOption.isSome

theorem reads_iff {text : String} : reads text = true ↔ ∃ e, Expr.parse text = .ok e := by
  unfold reads
  cases Expr.parse text <;> simp [Except.toOption]

/-- What an evaluator is asked: a value or a condition, on some data. -/
inductive Question where
  | value (text : String) (data : DataModel)
  | condition (text : String) (data : DataModel)

/-- What an evaluator answers. -/
inductive Answer where
  | value (result : Except ExpressionError Value)
  | condition (result : Except ExpressionError Bool)

/-- The text that a question is about. -/
def Question.text : Question → String
  | value text _ => text
  | condition text _ => text

/-- The answer of an evaluator without a memory. -/
def Question.answer (evaluate : Evaluator) : Question → Answer
  | value text data => .value (evaluate text data)
  | condition text data => .condition (evaluate.holds text data)

namespace Cache

/-- The answer to a question, and the cache afterwards. -/
def answer (cache : Cache) : Question → Answer × Cache
  | .value text data =>
    match cache.evaluate text data with
    | (result, cache) => (.value result, cache)
  | .condition text data =>
    match cache.holds text data with
    | (result, cache) => (.condition result, cache)

/-- The answers to some questions one after the other, and the cache afterwards. -/
def answers (cache : Cache) : List Question → List Answer × Cache
  | [] => ([], cache)
  | question :: rest =>
    match cache.answer question with
    | (first, cache) =>
      match cache.answers rest with
      | (answers, cache) => (first :: answers, cache)

/-- The cache of an evaluator that was asked some questions. -/
def after (past : List Question) : Cache := (empty.answers past).2

/-- The cache holds the trees of those of the given texts that are expressions. -/
structure Records (cache : Cache) (texts : List String) : Prop where
  ordered : cache.entries.Ordered
  /-- A text has an entry if it was asked for, letter by letter, and is an expression; the entry
  is its tree. -/
  get?_iff : ∀ text e, Fields.get? text cache.entries = some e ↔
    text ∈ texts ∧ Expr.parse text = .ok e

variable {cache : Cache} {texts : List String}

theorem records_empty : empty.Records [] where
  ordered := List.Pairwise.nil
  get?_iff := by simp [empty]

/-- Reading a text gives its tree or its fault, and the text is recorded if it is an
expression. -/
theorem Records.parse (h : cache.Records texts) (text : String) :
    (cache.parse text).1 = Expr.parse text ∧
      (cache.parse text).2.Records (texts ++ [text]) := by
  -- unless the text is a new expression, the cache stays as it is and need not change
  have hstays (hold : ∀ e, Expr.parse text = .ok e → text ∈ texts) :
      cache.Records (texts ++ [text]) := by
    refine ⟨h.ordered, fun other e => (h.get?_iff other e).trans ?_⟩
    rw [List.mem_append, List.mem_singleton]
    exact and_congr_left fun he => (or_iff_left_of_imp fun heq => heq ▸ hold e (heq ▸ he)).symm
  unfold Cache.parse
  cases hget : Fields.get? text cache.entries with
  | some e =>
      obtain ⟨hmem, he⟩ := (h.get?_iff text e).1 hget
      exact ⟨he.symm, hstays fun _ _ => hmem⟩
  | none =>
      cases he : Expr.parse text with
      | error err => exact ⟨rfl, hstays fun e he' => nomatch he.symm.trans he'⟩
      | ok e =>
          refine ⟨rfl, Fields.ordered_put h.ordered text e, fun other e' => ?_⟩
          rw [List.mem_append, List.mem_singleton]
          dsimp only
          by_cases heq : text = other
          · subst heq
            rw [Fields.get?_put_self, he]
            simp
          · rw [Fields.get?_put_of_ne heq, h.get?_iff, or_iff_left (Ne.symm heq)]

/-- A question is answered as if there were no cache. -/
theorem Records.answer (h : cache.Records texts) (question : Question) :
    (cache.answer question).1 = question.answer .standard ∧
      (cache.answer question).2.Records (texts ++ [question.text]) := by
  have hvalue (text : String) (data : DataModel) :
      (cache.evaluate text data).1 = Evaluator.standard text data ∧
        (cache.evaluate text data).2.Records (texts ++ [text]) := by
    obtain ⟨hparse, hrecords⟩ := h.parse text
    rw [Cache.evaluate, Evaluator.standard_eq, ← hparse]
    generalize cache.parse text = parsed at hrecords
    obtain ⟨_ | _, after⟩ := parsed
    · exact ⟨rfl, hrecords⟩
    · exact ⟨rfl, hrecords⟩
  cases question with
  | value text data =>
      obtain ⟨hresult, hrecords⟩ := hvalue text data
      exact ⟨congrArg Answer.value hresult, hrecords⟩
  | condition text data =>
      obtain ⟨hresult, hrecords⟩ := hvalue text data
      exact ⟨congrArg (Answer.condition ∘ Except.map Value.isTruthy) hresult, hrecords⟩

theorem Records.answers (h : cache.Records texts) (questions : List Question) :
    (cache.answers questions).1 = questions.map (Question.answer .standard) ∧
      (cache.answers questions).2.Records (texts ++ questions.map Question.text) := by
  induction questions generalizing cache texts with
  | nil => exact ⟨rfl, (List.append_nil texts).symm ▸ h⟩
  | cons question rest ih =>
      obtain ⟨hfirst, hrecords⟩ := h.answer question
      obtain ⟨hrest, hrecords⟩ := ih hrecords
      rw [List.append_assoc] at hrecords
      exact ⟨congrArg₂ List.cons hfirst hrest, hrecords⟩

/-- There are as many entries as different texts that are expressions. -/
theorem Records.size_eq (h : cache.Records texts) :
    cache.size = (texts.toFinset.filter fun text => reads text).card := by
  have hnodup : cache.entries.names.Nodup :=
    List.pairwise_map.2 (h.ordered.imp fun {field other} hlt (heq : field.1 = other.1) =>
      String.lt_irrefl other.1 (heq ▸ hlt))
  have hset : cache.entries.names.toFinset = texts.toFinset.filter fun text => reads text := by
    ext text
    simp only [List.mem_toFinset, Fields.mem_names_iff, h.get?_iff, exists_and_left,
      Finset.mem_filter, reads_iff]
  rw [← hset, List.toFinset_card_of_nodup hnodup, Fields.names, List.length_map, size]

theorem records_after (past : List Question) :
    (after past).Records (past.map Question.text) :=
  (records_empty.answers past).2

/-- What was asked before cannot be noticed in an evaluator with a cache. -/
structure Transparent (past : List Question) : Prop where
  /-- Every question that follows is answered as by reading its text afresh. -/
  answers_eq : ∀ questions,
    ((after past).answers questions).1 = questions.map (Question.answer .standard)
  /-- A text has an entry if it was asked for, letter by letter, and is an expression. -/
  entry_iff : ∀ text e, Fields.get? text (after past).entries = some e ↔
    text ∈ past.map Question.text ∧ Expr.parse text = .ok e
  size_eq : (after past).size =
    ((past.map Question.text).toFinset.filter fun text => reads text).card

theorem transparent (past : List Question) : Transparent past where
  answers_eq questions := ((records_after past).answers questions).1
  entry_iff := (records_after past).get?_iff
  size_eq := (records_after past).size_eq

/-- An evaluator that was asked some questions goes on from what it holds. -/
theorem after_append (past more : List Question) :
    after (past ++ more) = ((after past).answers more).2 := by
  suffices h : ∀ cache : Cache,
      (cache.answers (past ++ more)).2 = ((cache.answers past).2.answers more).2 from h empty
  induction past with
  | nil => exact fun _ => rfl
  | cons question rest ih => exact fun cache => ih (cache.answer question).2

end Cache

/-! ## Programs that ask -/

/-- A program that asks an evaluator, whose questions depend on the answers before. -/
inductive Inquiry (α : Type) where
  | done (result : α)
  | ask (text : String) (data : DataModel) (next : Except ExpressionError Value → Inquiry α)
  | test (text : String) (data : DataModel) (next : Except ExpressionError Bool → Inquiry α)

namespace Inquiry

variable {α β : Type}

/-- What a program comes to with an evaluator without a memory. -/
def answered (evaluate : Evaluator) : Inquiry α → α
  | done result => result
  | ask text data next => (next (evaluate text data)).answered evaluate
  | test text data next => (next (evaluate.holds text data)).answered evaluate

/-- What a program comes to with a cache, and the cache afterwards. -/
def through (cache : Cache) : Inquiry α → α × Cache
  | done result => (result, cache)
  | ask text data next =>
    match cache.evaluate text data with
    | (result, cache) => (next result).through cache
  | test text data next =>
    match cache.holds text data with
    | (result, cache) => (next result).through cache

/-- The questions of a program. -/
def questions (evaluate : Evaluator) : Inquiry α → List Question
  | done _ => []
  | ask text data next => .value text data :: (next (evaluate text data)).questions evaluate
  | test text data next =>
    .condition text data :: (next (evaluate.holds text data)).questions evaluate

/-- One program after another. -/
def bind (first : Inquiry α) (next : α → Inquiry β) : Inquiry β :=
  match first with
  | done result => next result
  | ask text data go => .ask text data fun result => (go result).bind next
  | test text data go => .test text data fun result => (go result).bind next

@[simp] theorem answered_bind (evaluate : Evaluator) (first : Inquiry α) (next : α → Inquiry β) :
    (first.bind next).answered evaluate = (next (first.answered evaluate)).answered evaluate := by
  induction first with
  | done result => rfl
  | ask text data go ih => exact ih _
  | test text data go ih => exact ih _

end Inquiry

variable {α : Type} {cache : Cache} {texts : List String}

theorem Cache.Records.through (h : cache.Records texts) (q : Inquiry α) :
    q.through cache = (q.answered .standard, (cache.answers (q.questions .standard)).2) := by
  induction q generalizing cache texts with
  | done result => rfl
  | ask text data next ih =>
      obtain ⟨hresult, hrecords⟩ := h.answer (.value text data)
      have hvalue : (cache.evaluate text data).1 = Evaluator.standard text data :=
        Answer.value.inj hresult
      show (next (cache.evaluate text data).1).through (cache.evaluate text data).2 = _
      rw [hvalue]
      exact ih _ hrecords
  | test text data next ih =>
      obtain ⟨hresult, hrecords⟩ := h.answer (.condition text data)
      have hholds : (cache.holds text data).1 = Evaluator.standard.holds text data :=
        Answer.condition.inj hresult
      show (next (cache.holds text data).1).through (cache.holds text data).2 = _
      rw [hholds]
      exact ih _ hrecords

/-- With a cache a program comes to the same as with an evaluator that reads every text anew,
whatever was asked before, and its questions are then among those that were asked. -/
theorem Cache.through_after (past : List Question) (q : Inquiry α) :
    q.through (after past) =
      (q.answered .standard, after (past ++ q.questions .standard)) := by
  rw [after_append]
  exact (records_after past).through q

end Expr
end Statechart
