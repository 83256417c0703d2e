import Statechart.Document.Basic

/-!
# Documents from JSON

Members are read in the order in which the object lists them, and members that
the format does not know are passed over.  `null` is a way to leave out an
optional text and nothing else, and no value is converted to another kind.  An
object with the member `exit` is an exit and must have no other member, and an
exit knows the members `expr` and `namelist` only.

Documents, transitions, exits and content may also be written as arrays.  The
items of such an array are the members in the order in which the format declares
them, with the type of content in front.  The last ones may be left out if they
have a default, and there must not be more items than members.  States are
always objects.
-/

namespace Statechart

/-- Why a value or a text is no document. -/
inductive DocumentFault where
  /-- The shape of the value, or the text itself, is not right. -/
  | malformed
  /-- An exit has other members, here in increasing order. -/
  | mixedExit (others : List String)
  deriving Repr, DecidableEq

/-- The words for a fault of a document. -/
def DocumentFault.message : DocumentFault → String
  | malformed => "malformed document"
  | mixedExit others =>
    "exit shorthand cannot have other fields (found: " ++ ", ".intercalate others ++ ")"

/-- The result of reading a part of a document. -/
abbrev Decoded (α : Type) := Except DocumentFault α

/-- Reads a text. -/
def decodeText : Value → Decoded String
  | .str s => .ok s
  | _ => .error .malformed

/-- Reads a text that may be left out by `null`. -/
def decodeOptionalText : Value → Decoded (Option String)
  | .str s => .ok (some s)
  | .null => .ok none
  | _ => .error .malformed

/-- Reads a boolean. -/
def decodeFlag : Value → Decoded Bool
  | .bool b => .ok b
  | _ => .error .malformed

/-- Reads an object. -/
def decodeFields : Value → Decoded (Fields Value)
  | .obj fields => .ok fields
  | _ => .error .malformed

/-- Reads something that has to be there. -/
def required {α : Type} : Option α → Decoded α
  | some a => .ok a
  | none => .error .malformed

/-- Reads the members of an object, one after the other. -/
def decodeMembers {σ : Type} (member : σ → String → Value → Decoded σ) (done : σ) :
    List (String × Value) → Decoded σ
  | [] => .ok done
  | (name, v) :: rest => do decodeMembers member (← member done name v) rest

/-- Reads the items of an array as the members of the given names, one after the
other. -/
def decodePositions {σ α : Type} (member : σ → String → α → Decoded σ) (done : σ) :
    (names : List String) → List α → Decoded σ
  | _, [] => .ok done
  | [], _ :: _ => .error .malformed
  | name :: names, a :: rest => do decodePositions member (← member done name a) names rest

/-- Reads an object with some members, or an array of them in the order of
`names`. -/
def decodeRecord {σ : Type} (member : σ → String → Value → Decoded σ) (names : List String)
    (start : σ) : Value → Decoded σ
  | .obj fields => decodeMembers member start fields
  | .arr items => decodePositions member start names items
  | _ => .error .malformed

namespace Content

/-- The members of content read so far. -/
structure Draft where
  label : Option String := none
  expr : Option String := none
  location : Option String := none
  event : Option String := none
  cond : Option String := none
  space : Option String := none
  name : Option String := none
  attributes : Fields Value := []
  actions : List Content := []
  otherwise : List Content := []

/-- The content of a type with the given members. -/
def Draft.content (draft : Draft) (type : String) : Decoded Content :=
  match type with
  | "log" => .ok (.log draft.label draft.expr)
  | "assign" => do return .assign (← required draft.location) (← required draft.expr)
  | "raise" => do return .raise (← required draft.event)
  | "send" => do return .send (← required draft.event) draft.expr
  | "if" => do return .branch (← required draft.cond) draft.actions draft.otherwise
  | "custom" => do
    return .custom (← required draft.space) (← required draft.name) draft.attributes
  | _ => .error .malformed

/-- The members that content of a type has beside its type, in the order in which
an array lists them. -/
def memberNames : (type : String) → List String
  | "log" => ["label", "expr"]
  | "assign" => ["location", "expr"]
  | "raise" => ["event"]
  | "send" => ["event", "expr"]
  | "if" => ["cond", "actions", "otherwise"]
  | "custom" => ["namespace", "name", "attributes"]
  | _ => []

/-- Reads a member that content of a type knows; `block` is what the value is if
it is read as a block. -/
def Draft.decodeMember (draft : Draft) (type name : String) (v : Value)
    (block : Decoded (List Content)) : Decoded Draft :=
  match type, name with
  | "log", "label" => return { draft with label := ← decodeOptionalText v }
  | "log", "expr" => return { draft with expr := ← decodeOptionalText v }
  | "assign", "location" => return { draft with location := ← decodeText v }
  | "assign", "expr" => return { draft with expr := ← decodeText v }
  | "raise", "event" => return { draft with event := ← decodeText v }
  | "send", "event" => return { draft with event := ← decodeText v }
  | "send", "expr" => return { draft with expr := ← decodeOptionalText v }
  | "if", "cond" => return { draft with cond := ← decodeText v }
  | "if", "actions" => return { draft with actions := ← block }
  | "if", "otherwise" => return { draft with otherwise := ← block }
  | "custom", "namespace" => return { draft with space := ← decodeText v }
  | "custom", "name" => return { draft with name := ← decodeText v }
  | "custom", "attributes" => return { draft with attributes := ← decodeFields v }
  | _, _ => return draft

mutual

/-- Reads executable content. -/
def decode : Value → Decoded Content
  | .obj fields =>
    match Fields.get? "type" fields with
    | some (.str type) => do (← decodeMembers type {} fields).content type
    | _ => .error .malformed
  | .arr (.str type :: items) => do
    (← decodePositions type {} (memberNames type) items).content type
  | _ => .error .malformed

/-- Reads the members of content of a type. -/
def decodeMembers (type : String) (draft : Draft) : List (String × Value) → Decoded Draft
  | [] => .ok draft
  | (name, v) :: rest => do
    decodeMembers type (← draft.decodeMember type name v (decodeBlock v)) rest

/-- Reads the items of an array as the members of the given names. -/
def decodePositions (type : String) (draft : Draft) (names : List String) :
    List Value → Decoded Draft
  | [] => .ok draft
  | v :: rest =>
    match names with
    | [] => .error .malformed
    | name :: names => do
      decodePositions type (← draft.decodeMember type name v (decodeBlock v)) names rest

/-- Reads a block of content. -/
def decodeBlock : Value → Decoded (List Content)
  | .arr items => decodeItems items
  | _ => .error .malformed

/-- Reads the items of a block. -/
def decodeItems : List Value → Decoded (List Content)
  | [] => .ok []
  | v :: rest => do
    let content ← decode v
    return content :: (← decodeItems rest)

end

end Content

/-- Reads whether a transition is internal. -/
def decodeTransitionType : Value → Decoded Bool
  | .str "external" => .ok false
  | .str "internal" => .ok true
  | .obj [("external", .null)] => .ok false
  | .obj [("internal", .null)] => .ok true
  | _ => .error .malformed

namespace TransitionDef

/-- Reads a member of a transition. -/
def decodeMember (t : TransitionDef) (name : String) (v : Value) : Decoded TransitionDef :=
  match name with
  | "event" => return { t with event := ← decodeOptionalText v }
  | "cond" => return { t with cond := ← decodeOptionalText v }
  | "target" => return { t with target := ← decodeOptionalText v }
  | "type" => return { t with isInternal := ← decodeTransitionType v }
  | "actions" => return { t with actions := ← Content.decodeBlock v }
  | _ => return t

/-- The members of a transition, in the order in which an array lists them. -/
def memberNames : List String := ["event", "cond", "target", "type", "actions"]

/-- Reads a transition. -/
def decode : Value → Decoded TransitionDef := decodeRecord decodeMember memberNames {}

/-- Reads transitions. -/
def decodeAll : List Value → Decoded (List TransitionDef)
  | [] => .ok []
  | v :: rest => do
    let t ← decode v
    return t :: (← decodeAll rest)

/-- Reads a list of transitions. -/
def decodeList : Value → Decoded (List TransitionDef)
  | .arr items => decodeAll items
  | _ => .error .malformed

end TransitionDef

namespace ExitDef

/-- Reads a member of an exit, which must be one that it knows. -/
def decodeMember (e : ExitDef) (name : String) (v : Value) : Decoded ExitDef :=
  match name with
  | "expr" => return { e with expr := ← decodeOptionalText v }
  | "namelist" => return { e with namelist := ← decodeOptionalText v }
  | _ => .error .malformed

/-- The members of an exit, in the order in which an array lists them. -/
def memberNames : List String := ["expr", "namelist"]

/-- Reads an exit. -/
def decode : Value → Decoded ExitDef := decodeRecord decodeMember memberNames {}

end ExitDef

namespace StateDef

/-- Reads a member of a state other than its identifier and its children. -/
def decodeMember (s : StateDef) (name : String) (v : Value) : Decoded StateDef :=
  match name with
  | "initial" => return { s with initial := ← decodeOptionalText v }
  | "parallel" => return { s with isParallel := ← decodeFlag v }
  | "final" => return { s with isFinal := ← decodeFlag v }
  | "src" => return { s with src := ← decodeOptionalText v }
  | "on_entry" => return { s with onEntry := ← Content.decodeBlock v }
  | "on_exit" => return { s with onExit := ← Content.decodeBlock v }
  | "transitions" => return { s with transitions := ← TransitionDef.decodeList v }
  | _ => return s

end StateDef

namespace Node

/-- The members of a state read so far. -/
structure Draft where
  id : Option String := none
  /-- The other members; the identifier in it is not used. -/
  definition : StateDef := { id := "" }
  children : List Node := []

/-- The state with the given members; the identifier has to be there. -/
def Draft.node (draft : Draft) : Decoded Node := do
  let id ← required draft.id
  return .state { draft.definition with id := id } draft.children

mutual

/-- Reads a tree of states. -/
def decode : Value → Decoded Node
  | .obj fields =>
    match Fields.get? "exit" fields with
    | some v =>
      let others := Fields.names (Fields.erase "exit" fields)
      if others.isEmpty then do return .exit (← ExitDef.decode v)
      else .error (.mixedExit others)
    | none => do (← decodeMembers {} fields).node
  | _ => .error .malformed

/-- Reads the members of a state. -/
def decodeMembers (draft : Draft) : List (String × Value) → Decoded Draft
  | [] => .ok draft
  | (name, v) :: rest =>
    match name with
    | "id" => do decodeMembers { draft with id := some (← decodeText v) } rest
    | "states" => do decodeMembers { draft with children := ← decodeList v } rest
    | _ => do
      decodeMembers { draft with definition := ← draft.definition.decodeMember name v } rest

/-- Reads a list of trees. -/
def decodeList : Value → Decoded (List Node)
  | .arr items => decodeItems items
  | _ => .error .malformed

/-- Reads trees. -/
def decodeItems : List Value → Decoded (List Node)
  | [] => .ok []
  | v :: rest => do
    let node ← decode v
    return node :: (← decodeItems rest)

end

end Node

namespace Document

/-- The members of a document, in the order in which an array lists them. -/
def memberNames : List String := ["name", "initial", "datamodel", "states"]

/-- Holds of the names of the members of a document. -/
def isMember (name : String) : Bool := memberNames.contains name

/-- Reads a member of a document. -/
def decodeMember (doc : Document) (name : String) (v : Value) : Decoded Document :=
  match name with
  | "name" => return { doc with name := ← decodeOptionalText v }
  | "initial" => return { doc with initial := ← decodeOptionalText v }
  | "datamodel" => return { doc with datamodel := ← decodeFields v }
  | "states" => return { doc with states := ← Node.decodeList v }
  | _ => return doc

/-- Reads a document. -/
def decode : Value → Decoded Document := decodeRecord decodeMember memberNames {}

end Document
end Statechart
