import Statechart.Yaml.Token

/-!
# YAML nodes

The tree that the tokens of a text describe.  Where the text stops to be YAML
the tree has a node `cut` and ends: whatever stands before that place can still
be looked at.
-/

namespace Statechart
namespace Yaml

/-- A node of a document. -/
inductive Node where
  | scalar (text : String) (isPlain : Bool)
  | sequence (items : List Node)
  | mapping (pairs : List (Node × Node))
  /-- The place of the first fault. -/
  | cut
  deriving Inhabited

namespace Node

/-- The scalar that is meant where nothing is written. -/
def empty : Node := scalar "" true

mutual

/-- Holds of a node without a fault in it. -/
def isWhole : Node → Bool
  | scalar _ _ => true
  | sequence items => allWhole items
  | mapping pairs => allPairsWhole pairs
  | cut => false

/-- Holds of nodes without a fault in them. -/
def allWhole : List Node → Bool
  | [] => true
  | node :: rest => node.isWhole && allWhole rest

/-- Holds of pairs without a fault in them. -/
def allPairsWhole : List (Node × Node) → Bool
  | [] => true
  | (k, v) :: rest => k.isWhole && v.isWhole && allPairsWhole rest

end

mutual

/-- How deep sequences and mappings nest in a node. -/
def depth : Node → Nat
  | scalar _ _ => 0
  | sequence items => depthOfAll items + 1
  | mapping pairs => depthOfPairs pairs + 1
  | cut => 0

/-- How deep sequences and mappings nest in nodes. -/
def depthOfAll : List Node → Nat
  | [] => 0
  | node :: rest => max node.depth (depthOfAll rest)

/-- How deep sequences and mappings nest in pairs. -/
def depthOfPairs : List (Node × Node) → Nat
  | [] => 0
  | (k, v) :: rest => max (max k.depth v.depth) (depthOfPairs rest)

end

/-- The rest behind a node, or nothing if there was a fault. -/
abbrev Parsed := Node × Option (List Token)

/-- A fault. -/
def stopped : Parsed := (cut, none)

/-- The tokens of the next item of a flow collection, behind the comma that has
to stand before every item but the first. -/
def afterComma (first : Bool) (tokens : List Token) : Option (List Token) :=
  if first then some tokens
  else
    match tokens with
    | .comma :: rest => some rest
    | _ => none

mutual

/-- Reads a node.  `inBlock` allows block collections, and `atKey` a sequence
whose dashes stand at the column of the keys around it. -/
def ofTokens (fuel : Nat) (inBlock atKey : Bool) (tokens : List Token) : Parsed :=
  match fuel, tokens with
  | 0, _ => stopped
  | _ + 1, .scalar text isPlain :: rest => (scalar text isPlain, some rest)
  | fuel + 1, .openBracket :: rest => flowItems fuel true [] rest
  | fuel + 1, .openBrace :: rest => flowPairs fuel true [] rest
  | fuel + 1, .dash :: rest =>
    if atKey then looseItems fuel [] (.dash :: rest) else stopped
  | fuel + 1, .blockSequence :: rest => if inBlock then blockItems fuel [] rest else stopped
  | fuel + 1, .blockMapping :: rest => if inBlock then blockPairs fuel [] rest else stopped
  | _ + 1, _ => stopped

/-- Reads the items of a block sequence up to its end. -/
def blockItems (fuel : Nat) (done : List Node) (tokens : List Token) : Parsed :=
  match fuel, tokens with
  | 0, _ => stopped
  | fuel + 1, .dash :: rest =>
    match orEmpty fuel [.dash, .blockEnd] true false rest with
    | (item, none) => (sequence (item :: done).reverse, none)
    | (item, some rest) => blockItems fuel (item :: done) rest
  | _ + 1, .blockEnd :: rest => (sequence done.reverse, some rest)
  | _ + 1, _ => (sequence (cut :: done).reverse, none)

/-- Reads the items of a sequence that ends where its dashes end. -/
def looseItems (fuel : Nat) (done : List Node) (tokens : List Token) : Parsed :=
  match fuel, tokens with
  | 0, _ => stopped
  | fuel + 1, .dash :: rest =>
    match orEmpty fuel [.dash, .key, .value, .blockEnd] true false rest with
    | (item, none) => (sequence (item :: done).reverse, none)
    | (item, some rest) => looseItems fuel (item :: done) rest
  | _ + 1, tokens => (sequence done.reverse, some tokens)

/-- Reads the pairs of a block mapping up to its end. -/
def blockPairs (fuel : Nat) (done : List (Node × Node)) (tokens : List Token) : Parsed :=
  match fuel, tokens with
  | 0, _ => stopped
  | fuel + 1, .key :: rest =>
    match orEmpty fuel [.key, .value, .blockEnd] true true rest with
    | (k, none) => (mapping ((k, cut) :: done).reverse, none)
    | (k, some rest) =>
      match valueOf fuel [.key, .value, .blockEnd] true rest with
      | (v, none) => (mapping ((k, v) :: done).reverse, none)
      | (v, some rest) => blockPairs fuel ((k, v) :: done) rest
  | _ + 1, .blockEnd :: rest => (mapping done.reverse, some rest)
  | _ + 1, _ => (mapping ((cut, cut) :: done).reverse, none)

/-- Reads the items of a flow sequence up to its bracket. -/
def flowItems (fuel : Nat) (first : Bool) (done : List Node) (tokens : List Token) : Parsed :=
  match fuel, tokens with
  | 0, _ => stopped
  | _ + 1, .closeBracket :: rest => (sequence done.reverse, some rest)
  | fuel + 1, tokens =>
    match afterComma first tokens with
    | none => (sequence (cut :: done).reverse, none)
    | some (.closeBracket :: rest) => (sequence done.reverse, some rest)
    | some (.key :: rest) =>
      match itemKey fuel rest with
      | (k, none) => (sequence (mapping [(k, cut)] :: done).reverse, none)
      | (k, some rest) =>
        match valueOf fuel [.comma, .closeBracket] false rest with
        | (v, none) => (sequence (mapping [(k, v)] :: done).reverse, none)
        | (v, some rest) => flowItems fuel false (mapping [(k, v)] :: done) rest
    | some tokens =>
      match ofTokens fuel false false tokens with
      | (item, none) => (sequence (item :: done).reverse, none)
      | (item, some rest) => flowItems fuel false (item :: done) rest

/-- Reads the key of a pair that is an item of a flow sequence.  Where a sign
stands in its place the key is empty, and the sign counts as read. -/
def itemKey (fuel : Nat) (tokens : List Token) : Parsed :=
  match fuel, tokens with
  | 0, _ => stopped
  | _ + 1, .value :: rest => (empty, some rest)
  | _ + 1, .comma :: rest => (empty, some rest)
  | _ + 1, .closeBracket :: rest => (empty, some rest)
  | fuel + 1, tokens => ofTokens fuel false false tokens

/-- Reads the pairs of a flow mapping up to its brace. -/
def flowPairs (fuel : Nat) (first : Bool) (done : List (Node × Node)) (tokens : List Token) :
    Parsed :=
  match fuel, tokens with
  | 0, _ => stopped
  | _ + 1, .closeBrace :: rest => (mapping done.reverse, some rest)
  | fuel + 1, tokens =>
    match afterComma first tokens with
    | none => (mapping ((cut, cut) :: done).reverse, none)
    | some (.closeBrace :: rest) => (mapping done.reverse, some rest)
    | some (.key :: rest) =>
      match orEmpty fuel [.value, .comma, .closeBrace] false false rest with
      | (k, none) => (mapping ((k, cut) :: done).reverse, none)
      | (k, some rest) =>
        match valueOf fuel [.comma, .closeBrace] false rest with
        | (v, none) => (mapping ((k, v) :: done).reverse, none)
        | (v, some rest) => flowPairs fuel false ((k, v) :: done) rest
    | some tokens =>
      match ofTokens fuel false false tokens with
      | (k, none) => (mapping ((k, cut) :: done).reverse, none)
      | (k, some rest) => flowPairs fuel false ((k, empty) :: done) rest

/-- Reads a node, or nothing in front of one of the given tokens. -/
def orEmpty (fuel : Nat) (before : List Token) (inBlock atKey : Bool) (tokens : List Token) :
    Parsed :=
  match fuel, tokens with
  | 0, _ => stopped
  | _ + 1, [] => stopped
  | fuel + 1, token :: rest =>
    if before.contains token then (empty, some (token :: rest))
    else ofTokens fuel inBlock atKey (token :: rest)

/-- Reads a colon with the value behind it; there may be neither. -/
def valueOf (fuel : Nat) (before : List Token) (inBlock : Bool) (tokens : List Token) : Parsed :=
  match fuel, tokens with
  | 0, _ => stopped
  | _ + 1, [] => stopped
  | fuel + 1, .value :: rest => orEmpty fuel before inBlock inBlock rest
  | _ + 1, tokens => (empty, some tokens)

end

end Node

/-- What a text holds: the root of its document, if there is one, and whether
there is nothing wrong with the text. -/
structure Stream where
  root : Option Node
  isWhole : Bool

/-- Holds of tokens that mark the limits of documents. -/
def isMark (token : Token) : Bool :=
  token == .documentStart || token == .documentEnd || token == .textEnd

/-- What is left of a text behind its document: the end, maybe after marks. -/
def endsText (tokens : List Token) : Bool :=
  tokens.dropWhile (· == .documentEnd) == [.textEnd]

/-- Reads a document from its first token on. -/
def readRoot (tokens : List Token) : Stream :=
  match Node.ofTokens (4 * tokens.length + 4) true true tokens with
  | (root, none) => ⟨some root, false⟩
  | (root, some rest) => ⟨some root, endsText rest⟩

/-- Reads a text that holds one document at most. -/
def read (text : String) : Stream :=
  match scan text with
  | [.textEnd] => ⟨none, true⟩
  | .documentStart :: token :: rest =>
    if isMark token then ⟨some .empty, endsText (token :: rest)⟩ else readRoot (token :: rest)
  | .documentStart :: [] => readRoot []
  | tokens => readRoot tokens

end Yaml
end Statechart
