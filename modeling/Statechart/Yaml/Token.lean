/-!
# YAML tokens

The tokens of the YAML that documents and configuration files use: mappings and
sequences in block and in flow form, plain and quoted scalars, comments, and the
marks between documents.  Directives, tags, anchors, aliases and block scalars
are no part of it and count as faults.

In block form the nesting is in the indentation.  A column greater than those
before opens a sequence or a mapping, and going back to a smaller one closes it.
A scalar turns out to be a key when a colon follows it; the token that says so,
and the one that opens its mapping, are then put in front of the scalar.

A token is handed out only when nothing can be put in front of it any more, and
scanning goes no further than that needs.  So `scan` gives the tokens that can
be handed out before the first fault is met; the token `textEnd` is among them
if there is none.

A text is taken in pieces of at most 16384 bytes, and a character that no text
may contain spoils the whole piece that it is in.
-/

namespace Statechart
namespace Yaml

/-- A token. -/
inductive Token where
  | blockSequence
  | blockMapping
  | blockEnd
  | openBracket
  | closeBracket
  | openBrace
  | closeBrace
  | dash
  | comma
  /-- What follows is a key. -/
  | key
  /-- What follows is the value of a key. -/
  | value
  | scalar (text : String) (isPlain : Bool)
  | documentStart
  | documentEnd
  | textEnd
  deriving Repr, DecidableEq

/-! ## Characters and places -/

/-- Holds of line breaks. -/
def isBreak (c : Char) : Bool :=
  c == '\n' || c == '\r' || c == '\u0085' || c == '\u2028' || c == '\u2029'

/-- Holds of spaces and tabs. -/
def isGap (c : Char) : Bool := c == ' ' || c == '\t'

/-- Holds if a text starts with a gap or a break, or ends. -/
def startsBlank : List Char → Bool
  | [] => true
  | c :: _ => isGap c || isBreak c

/-- Holds of the characters that a text may contain. -/
def isAllowed (c : Char) : Bool :=
  let n := c.toNat
  n == 0x9 || n == 0xA || n == 0xD || (0x20 ≤ n && n ≤ 0x7E) || n == 0x85 ||
    (0xA0 ≤ n && n ≤ 0xFFFD) || 0x10000 ≤ n

/-- The most bytes of a piece. -/
def pieceSize : Nat := 16384

/-- The number of characters in front of the first piece that is spoilt, if there
is one.  So far `index` characters were passed, and the piece that they end in
starts behind `start` of them and has `used` bytes. -/
def spoiltFrom (start index used : Nat) : List Char → Option Nat
  | [] => none
  | c :: rest =>
    let (start, used) :=
      if used + c.utf8Size ≤ pieceSize then (start, used + c.utf8Size) else (index, c.utf8Size)
    if isAllowed c then spoiltFrom start (index + 1) used rest else some start

/-- A place in a text. -/
structure Cursor where
  rest : List Char
  line : Nat := 0
  column : Nat := 0
  index : Nat := 0

namespace Cursor

/-- Goes past `n` characters that are no breaks. -/
def skip (c : Cursor) (n : Nat) : Cursor :=
  { c with rest := c.rest.drop n, column := c.column + n, index := c.index + n }

/-- Goes past a break. -/
def skipBreak (c : Cursor) : Cursor :=
  let n := match c.rest with
    | '\r' :: '\n' :: _ => 2
    | _ => 1
  { rest := c.rest.drop n, line := c.line + 1, column := 0, index := c.index + n }

/-- The character that a break at the front stands for. -/
def breakChar (c : Cursor) : Char :=
  match c.rest with
  | '\u2028' :: _ => '\u2028'
  | '\u2029' :: _ => '\u2029'
  | _ => '\n'

/-- Holds at a mark between documents. -/
def atMark (c : Cursor) : Bool :=
  c.column == 0 &&
    match c.rest with
    | '-' :: '-' :: '-' :: rest => startsBlank rest
    | '.' :: '.' :: '.' :: rest => startsBlank rest
    | _ => false

end Cursor

/-! ## White space inside scalars -/

/-- The white space between two parts of a scalar. -/
structure White where
  /-- The gap on one line, last character first. -/
  gap : List Char := []
  /-- The first break, if there was one. -/
  first : Option Char := none
  /-- The breaks behind the first one, last one first. -/
  more : List Char := []

namespace White

/-- What the white space stands for, last character first: a single break folds
into a space, and of several all but the first are kept. -/
def folded (w : White) : List Char :=
  match w.first with
  | none => w.gap
  | some '\n' => if w.more.isEmpty then [' '] else w.more
  | some c => w.more ++ [c]

/-- Adds a break. -/
def addBreak (w : White) (c : Char) : White :=
  match w.first with
  | none => { w with gap := [], first := some c }
  | some _ => { w with more := c :: w.more }

/-- Adds a character of a gap; at the start of a line it does not count. -/
def addGap (w : White) (c : Char) : White :=
  if w.first.isSome then w else { w with gap := c :: w.gap }

end White

/-- Reads white space.  At the start of a line, a tab before the column `indent`
is a fault.  `fuel` bounds the number of characters. -/
def white (indent : Int) : (fuel : Nat) → White → Cursor → Option (White × Cursor)
  | 0, w, cur => some (w, cur)
  | fuel + 1, w, cur =>
    match cur.rest with
    | [] => some (w, cur)
    | c :: _ =>
      if isGap c then
        if w.first.isSome && (cur.column : Int) < indent && c == '\t' then none
        else white indent fuel (w.addGap c) (cur.skip 1)
      else if isBreak c then white indent fuel (w.addBreak cur.breakChar) cur.skipBreak
      else some (w, cur)

/-! ## Plain scalars -/

/-- Holds of the characters that mean something in flow form. -/
def isFlowSign (c : Char) : Bool :=
  c == ',' || c == '[' || c == ']' || c == '\x7b' || c == '\x7d'

/-- The characters of a plain scalar up to white space or to what ends it;
`none` for a colon that cannot stand where it does. -/
def plainRun (inFlow : Bool) : List Char → Option (List Char)
  | [] => some []
  | c :: rest =>
    if isGap c || isBreak c then some []
    else if inFlow && c == ':' && (rest.head?.any fun d => isFlowSign d || d == '?') then none
    else if (c == ':' && startsBlank rest) || (inFlow && isFlowSign c) then some []
    else (plainRun inFlow rest).map (c :: ·)

/-- Reads a plain scalar.  The result has its text, last character first, the
place behind it, and whether a break stood before that place.  `fuel` is more
than the number of characters left. -/
def plainTail (inFlow : Bool) (indent : Int) :
    (fuel : Nat) → List Char → White → Cursor → Option (List Char × Cursor × Bool)
  | 0, text, w, cur => some (text, cur, w.first.isSome)
  | fuel + 1, text, w, cur =>
    if cur.atMark || cur.rest.head? == some '#' then some (text, cur, w.first.isSome)
    else
      match plainRun inFlow cur.rest with
      | none => none
      | some run =>
        let (text, w) :=
          if run.isEmpty then (text, w) else (run.reverse ++ w.folded ++ text, ({} : White))
        let cur := cur.skip run.length
        if cur.rest.isEmpty || !startsBlank cur.rest then some (text, cur, w.first.isSome)
        else
          match white indent fuel w cur with
          | none => none
          | some (w, cur) =>
            if !inFlow && (cur.column : Int) < indent then some (text, cur, w.first.isSome)
            else plainTail inFlow indent fuel text w cur

/-! ## Quoted scalars -/

/-- The value of a hexadecimal digit. -/
def hexDigit? (c : Char) : Option Nat :=
  if c.isDigit then some (c.toNat - '0'.toNat)
  else if 'a' ≤ c && c ≤ 'f' then some (c.toNat - 'a'.toNat + 10)
  else if 'A' ≤ c && c ≤ 'F' then some (c.toNat - 'A'.toNat + 10)
  else none

/-- The value of hexadecimal digits. -/
def hexValue? (digits : List Char) : Option Nat :=
  digits.foldl (fun n c => do return (← n) * 16 + (← hexDigit? c)) (some 0)

/-- The character that an escape with a letter stands for. -/
def escapeLetter? : Char → Option Char
  | '0' => some '\x00'
  | 'a' => some '\x07'
  | 'b' => some '\x08'
  | 't' => some '\t'
  | '\t' => some '\t'
  | 'n' => some '\n'
  | 'v' => some '\x0b'
  | 'f' => some '\x0c'
  | 'r' => some '\r'
  | 'e' => some '\x1b'
  | ' ' => some ' '
  | '"' => some '"'
  | '/' => some '/'
  | '\\' => some '\\'
  | 'N' => some '\u0085'
  | '_' => some '\u00a0'
  | 'L' => some '\u2028'
  | 'P' => some '\u2029'
  | _ => none

/-- The number of hexadecimal digits behind the letter of an escape. -/
def escapeWidth : Char → Nat
  | 'x' => 2
  | 'u' => 4
  | 'U' => 8
  | _ => 0

/-- Holds of the code points that a text can hold. -/
def isScalarValue (n : Nat) : Bool :=
  n < 0xD800 || (0xE000 ≤ n && n < 0x110000)

/-- The character of an escape, given what follows its backslash, with the
number of characters it takes there. -/
def escape? : List Char → Option (Char × Nat)
  | [] => none
  | c :: rest =>
    match escapeWidth c with
    | 0 => (escapeLetter? c).map fun d => (d, 1)
    | width =>
      if rest.length < width then none
      else
        match hexValue? (rest.take width) with
        | some n => if isScalarValue n then some (Char.ofNat n, width + 1) else none
        | none => none

/-- Reads a quoted scalar behind its quote; the result has its text, last
character first.  `fuel` is more than the number of characters left. -/
def quotedTail (isDouble : Bool) :
    (fuel : Nat) → List Char → White → Cursor → Option (List Char × Cursor)
  | 0, _, _, _ => none
  | fuel + 1, text, w, cur =>
    if cur.atMark then none
    else
      match cur.rest with
      | [] => none
      | c :: rest =>
        if isGap c then quotedTail isDouble fuel text (w.addGap c) (cur.skip 1)
        else if isBreak c then
          quotedTail isDouble fuel text (w.addBreak cur.breakChar) cur.skipBreak
        else
          let text := w.folded ++ text
          if !isDouble && c == '\'' && rest.head? == some '\'' then
            quotedTail isDouble fuel ('\'' :: text) {} (cur.skip 2)
          else if c == (if isDouble then '"' else '\'') then some (text, cur.skip 1)
          else if isDouble && c == '\\' then
            if rest.head?.any isBreak then
              match white (-1) fuel { first := some '\x00' } (cur.skip 1).skipBreak with
              | none => none
              | some (w, cur) =>
                quotedTail isDouble fuel (w.more ++ text) {} cur
            else
              match escape? rest with
              | none => none
              | some (d, width) => quotedTail isDouble fuel (d :: text) {} (cur.skip (width + 1))
          else quotedTail isDouble fuel (c :: text) {} (cur.skip 1)

/-! ## Scanning -/

/-- A scalar, or something else, that may turn out to be a key. -/
structure SimpleKey where
  /-- Nothing else can stand here, so a colon has to follow. -/
  isRequired : Bool
  /-- The number of tokens before it. -/
  number : Nat
  place : Cursor

/-- The state of a scan. -/
structure Scan where
  cursor : Cursor
  /-- More than the number of characters of the text. -/
  bound : Nat
  tokens : Array Token := #[]
  /-- The column of the innermost block collection, or `-1`. -/
  indent : Int := -1
  /-- The columns of the block collections around it. -/
  indents : List Int := []
  /-- The possible key at each level of flow form, the innermost first; the last
  one is that of block form. -/
  keys : List (Option SimpleKey) := [none]
  /-- A key may start here. -/
  isKeyAllowed : Bool := true
  /-- The text is the readable front of a longer one. -/
  isCut : Bool := false

namespace Scan

/-- Holds inside a flow collection. -/
def inFlow (s : Scan) : Bool := 1 < s.keys.length

/-- Adds a token. -/
def push (s : Scan) (token : Token) : Scan := { s with tokens := s.tokens.push token }

/-- Puts a token behind the first `n`. -/
def putAt (s : Scan) (n : Nat) (token : Token) : Scan :=
  { s with tokens := s.tokens.insertIdxIfInBounds n token }

/-- Goes past white space and comments, and past a byte order mark at the start of
a line, which takes a column like any other character. -/
def skipToToken : (fuel : Nat) → Scan → Scan
  | 0, s => s
  | fuel + 1, s =>
    match s.cursor.rest with
    | [] => s
    | c :: _ =>
      if c == ' ' || (c == '\t' && (s.inFlow || !s.isKeyAllowed)) ||
          (c == '\uFEFF' && s.cursor.column == 0) then
        skipToToken fuel { s with cursor := s.cursor.skip 1 }
      else if c == '#' then
        let comment := s.cursor.rest.takeWhile (!isBreak ·)
        skipToToken fuel { s with cursor := s.cursor.skip comment.length }
      else if isBreak c then
        skipToToken fuel
          { s with cursor := s.cursor.skipBreak, isKeyAllowed := s.isKeyAllowed || !s.inFlow }
      else s

/-- Holds of a possible key that is too far behind: on an earlier line, or more
than 1024 characters back. -/
def isStale (s : Scan) (key : SimpleKey) : Bool :=
  key.place.line < s.cursor.line || key.place.index + 1024 < s.cursor.index

/-- Gives up the keys that are too far behind; one that is required is a
fault. -/
def dropStale (s : Scan) : Option Scan :=
  let isLate : Option SimpleKey → Bool := fun key => key.any s.isStale
  if !s.keys.any isLate then some s
  else if s.keys.any fun key => isLate key && key.any (·.isRequired) then none
  else some { s with keys := s.keys.map fun key => if isLate key then none else key }

/-- Gives up the possible key of this level; one that is required is a fault. -/
def removeKey (s : Scan) : Option Scan :=
  match s.keys with
  | some key :: rest => if key.isRequired then none else some { s with keys := none :: rest }
  | _ => some s

/-- Notes that a key may start here. -/
def saveKey (s : Scan) : Option Scan :=
  if s.isKeyAllowed then do
    let s ← s.removeKey
    let key : SimpleKey :=
      ⟨!s.inFlow && s.indent == (s.cursor.column : Int), s.tokens.size, s.cursor⟩
    return { s with keys := some key :: s.keys.drop 1 }
  else some s

/-- Closes the block collections to the right of a column. -/
def unroll (column : Int) : (fuel : Nat) → Scan → Scan
  | 0, s => s
  | fuel + 1, s =>
    if s.indent > column then
      unroll column fuel
        { s.push .blockEnd with indent := s.indents.headD (-1), indents := s.indents.drop 1 }
    else s

/-- Closes the block collections to the right of a column, in block form. -/
def unrollTo (s : Scan) (column : Int) : Scan :=
  if s.inFlow then s else unroll column (s.indents.length + 1) s

/-- Opens a block collection at a column, unless there is one; its token is put
behind the first `number` tokens. -/
def roll (s : Scan) (column : Nat) (number : Nat) (token : Token) : Scan :=
  if !s.inFlow && s.indent < (column : Int) then
    { s.putAt number token with indent := column, indents := s.indent :: s.indents }
  else s

/-- A token of one character, after which a key may or may not start. -/
def sign (s : Scan) (token : Token) (isKeyAllowed : Bool) : Scan :=
  { s.push token with cursor := s.cursor.skip 1, isKeyAllowed }

/-- The dash before an item of a block sequence. -/
def dash (s : Scan) : Option Scan := do
  if !s.inFlow && !s.isKeyAllowed then none
  else
    let s := s.roll s.cursor.column s.tokens.size .blockSequence
    let s ← s.removeKey
    return s.sign .dash true

/-- The mark of a key that is not a scalar on one line. -/
def questionMark (s : Scan) : Option Scan := do
  if !s.inFlow && !s.isKeyAllowed then none
  else
    let s := s.roll s.cursor.column s.tokens.size .blockMapping
    let s ← s.removeKey
    return s.sign .key !s.inFlow

/-- The colon between a key and its value. -/
def colon (s : Scan) : Option Scan :=
  match s.keys with
  | some key :: rest =>
    let s := s.putAt key.number .key
    let s := s.roll key.place.column key.number .blockMapping
    some ({ s with keys := none :: rest }.sign .value false)
  | _ =>
    if !s.inFlow && !s.isKeyAllowed then none
    else
      let s := s.roll s.cursor.column s.tokens.size .blockMapping
      some (s.sign .value !s.inFlow)

/-- A mark between documents. -/
def mark (s : Scan) (token : Token) : Option Scan := do
  let s ← (s.unrollTo (-1)).removeKey
  return { s.push token with cursor := s.cursor.skip 3, isKeyAllowed := false }

/-- The start of a flow collection. -/
def openFlow (s : Scan) (token : Token) : Option Scan := do
  let s ← s.saveKey
  return { s with keys := none :: s.keys }.sign token true

/-- The end of a flow collection. -/
def closeFlow (s : Scan) (token : Token) : Option Scan := do
  let s ← s.removeKey
  let keys := if s.inFlow then s.keys.drop 1 else s.keys
  return { s with keys }.sign token false

/-- A quoted scalar. -/
def quoted (s : Scan) (isDouble : Bool) : Option Scan := do
  let s ← s.saveKey
  let start := s.cursor.skip 1
  let (text, cursor) ← quotedTail isDouble s.bound [] {} start
  let token := Token.scalar (String.ofList text.reverse) false
  return { s.push token with cursor, isKeyAllowed := false }

/-- A plain scalar. -/
def plain (s : Scan) : Option Scan := do
  let s ← s.saveKey
  let (text, cursor, isKeyAllowed) ←
    plainTail s.inFlow (s.indent + 1) s.bound [] {} s.cursor
  let token := Token.scalar (String.ofList text.reverse) true
  return { s.push token with cursor, isKeyAllowed }

/-- Holds if a plain scalar may start with a character before the given rest. -/
def startsPlain (s : Scan) (c : Char) (rest : List Char) : Bool :=
  if c == '-' then true
  else if c == '?' || c == ':' then !s.inFlow && !startsBlank rest
  else !(isFlowSign c || "#&*!|>'\"%@`".toList.contains c || isGap c || isBreak c)

/-- Reads the next tokens at a character. -/
def token (s : Scan) (c : Char) (rest : List Char) : Option Scan :=
  if s.cursor.column == 0 && c == '%' then none
  else if s.cursor.atMark then s.mark (if c == '-' then .documentStart else .documentEnd)
  else if c == '[' then s.openFlow .openBracket
  else if c == '\x7b' then s.openFlow .openBrace
  else if c == ']' then s.closeFlow .closeBracket
  else if c == '\x7d' then s.closeFlow .closeBrace
  else if c == ',' then s.removeKey.map (·.sign .comma true)
  else if c == '-' && startsBlank rest then s.dash
  else if c == '?' && (s.inFlow || startsBlank rest) then s.questionMark
  else if c == ':' && (s.inFlow || startsBlank rest) then s.colon
  else if c == '\'' then s.quoted false
  else if c == '"' then s.quoted true
  else if s.startsPlain c rest then s.plain
  else none

/-- Ends the line that the text ends in, unless it has ended. -/
def endLine (s : Scan) : Scan :=
  if s.cursor.column == 0 then s
  else { s with cursor := { s.cursor with line := s.cursor.line + 1, column := 0 } }

/-- Holds if there are fewer characters left than scanning looks ahead, and those
behind them cannot be read. -/
def lacks (s : Scan) (lookahead : Nat) : Bool :=
  s.isCut && (s.cursor.rest.drop (lookahead - 1)).isEmpty

/-- Reads the next tokens behind white space; at the end of the text it closes
what is open. -/
def next (s : Scan) : Option Scan := do
  let s := skipToToken s.bound s
  let s ← s.dropStale
  let s := s.unrollTo s.cursor.column
  if s.lacks 4 then none
  else
    match s.cursor.rest with
    | [] => return (← (s.endLine.unrollTo (-1)).removeKey).push .textEnd
    | c :: rest => (s.token c rest).filter fun after => !after.lacks 1

/-- Holds if a possible key stands behind the first `n` tokens. -/
def hasKeyAt (s : Scan) (n : Nat) : Bool :=
  s.keys.any fun key => key.any (·.number == n)

/-- Hands out tokens up to the end of the text or to the first fault, behind
those in `out` that were handed out before. -/
def deliver (s : Scan) (fuel : Nat) (out : Array Token) : List Token :=
  match fuel with
  | 0 => out.toList
  | fuel + 1 =>
    match s.tokens[out.size]? with
    | none =>
      match s.next with
      | none => out.toList
      | some s => s.deliver fuel out
    | some token =>
      match s.dropStale with
      | none => out.toList
      | some s =>
        if s.hasKeyAt out.size then
          match s.next with
          | none => out.toList
          | some s => s.deliver fuel out
        else if token == .textEnd then (out.push token).toList
        else s.deliver fuel (out.push token)

end Scan

/-- The tokens of a text before the first fault.  A character makes three tokens
at most, apart from those that close what others opened, so the text bounds the
steps. -/
def scan (text : String) : List Token :=
  let cs := text.toList
  let start : Scan := match spoiltFrom 0 0 0 cs with
    | none => { cursor := { rest := cs }, bound := cs.length + 1 }
    | some n => { cursor := { rest := cs.take n }, bound := n + 1, isCut := true }
  start.deliver (8 * cs.length + 16) #[]

end Yaml
end Statechart
