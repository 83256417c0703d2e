import Statechart.Expr.Eval

/-!
# A cache of expressions

Reading an expression text can be done once for many evaluations.  The cache
holds the tree of every text that was read; a text that is no expression leaves
no entry, and texts that differ in blanks are different texts.
-/

namespace Statechart
namespace Expr

/-- The trees of the texts that were read. -/
structure Cache where
  entries : Fields Expr

namespace Cache

/-- The cache before any evaluation. -/
def empty : Cache := ⟨[]⟩

/-- The number of texts in the cache. -/
def size (cache : Cache) : Nat := cache.entries.length

/-- The tree of a text, from the cache if it is there, and the cache that holds
it. -/
def parse (cache : Cache) (text : String) : Except ExpressionError Expr × Cache :=
  match Fields.get? text cache.entries with
  | some e => (.ok e, cache)
  | none =>
    match Expr.parse text with
    | .ok e => (.ok e, ⟨Fields.put text e cache.entries⟩)
    | .error err => (.error err, cache)

/-- The value of a text, and the cache afterwards. -/
def evaluate (cache : Cache) (text : String) (data : DataModel) :
    Except ExpressionError Value × Cache :=
  match cache.parse text with
  | (.ok e, cache) => (e.eval data, cache)
  | (.error err, cache) => (.error err, cache)

/-- The answer of a condition, and the cache afterwards. -/
def holds (cache : Cache) (text : String) (data : DataModel) :
    Except ExpressionError Bool × Cache :=
  match cache.evaluate text data with
  | (result, cache) => (result.map Value.isTruthy, cache)

end Cache
end Expr
end Statechart
