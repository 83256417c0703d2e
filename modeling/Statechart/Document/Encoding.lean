import Statechart.Document.Basic
import Statechart.Json.Printer
import Statechart.Checksum

/-!
# Documents as JSON

The encoding lists the members of each object in a fixed order and leaves out
those that have their default: absent texts, `false`, and empty lists and
objects.  Two members are always there: the `states` of a document and the
`actions` of a conditional.  The checksum of a document is that of its encoding,
written without spaces.
-/

namespace Statechart

/-- A member that is written if there is a text. -/
def textMember (name : String) : Option String → List (String × Value)
  | none => []
  | some s => [(name, .str s)]

/-- A member that is written if it is true. -/
def flagMember (name : String) (b : Bool) : List (String × Value) :=
  if b then [(name, .bool true)] else []

/-- A member that is written if the list is not empty. -/
def listMember (name : String) : List Value → List (String × Value)
  | [] => []
  | items => [(name, .arr items)]

/-- A member that is written if there are fields. -/
def fieldsMember (name : String) : Fields Value → List (String × Value)
  | [] => []
  | fields => [(name, .obj fields)]

namespace Content

mutual

/-- Executable content as JSON. -/
def encode : Content → Value
  | log label expr =>
    .obj (("type", .str "log") :: textMember "label" label ++ textMember "expr" expr)
  | assign location expr =>
    .obj [("type", .str "assign"), ("location", .str location), ("expr", .str expr)]
  | raise event => .obj [("type", .str "raise"), ("event", .str event)]
  | send event expr =>
    .obj (("type", .str "send") :: ("event", .str event) :: textMember "expr" expr)
  | branch cond actions otherwise =>
    .obj (("type", .str "if") :: ("cond", .str cond) :: ("actions", .arr (encodeAll actions)) ::
      listMember "otherwise" (encodeAll otherwise))
  | custom space name attributes =>
    .obj (("type", .str "custom") :: ("namespace", .str space) :: ("name", .str name) ::
      fieldsMember "attributes" attributes)

/-- A block of content as JSON. -/
def encodeAll : List Content → List Value
  | [] => []
  | content :: rest => content.encode :: encodeAll rest

end

end Content

/-- A transition as JSON. -/
def TransitionDef.encode (t : TransitionDef) : Value :=
  .obj (textMember "event" t.event ++ textMember "cond" t.cond ++ textMember "target" t.target ++
    textMember "type" (if t.isInternal then some "internal" else none) ++
    listMember "actions" (Content.encodeAll t.actions))

/-- The content of an exit as JSON. -/
def ExitDef.encode (e : ExitDef) : Value :=
  .obj (textMember "expr" e.expr ++ textMember "namelist" e.namelist)

/-- The members of a state other than its children. -/
def StateDef.members (s : StateDef) : List (String × Value) :=
  ("id", .str s.id) :: textMember "initial" s.initial ++ flagMember "parallel" s.isParallel ++
    flagMember "final" s.isFinal ++ textMember "src" s.src ++
    listMember "on_entry" (Content.encodeAll s.onEntry) ++
    listMember "on_exit" (Content.encodeAll s.onExit) ++
    listMember "transitions" (s.transitions.map TransitionDef.encode)

namespace Node

mutual

/-- A tree of states as JSON. -/
def encode : Node → Value
  | exit definition => .obj [("exit", definition.encode)]
  | state definition children =>
    .obj (definition.members ++ listMember "states" (encodeAll children))

/-- Trees of states as JSON. -/
def encodeAll : List Node → List Value
  | [] => []
  | node :: rest => node.encode :: encodeAll rest

end

end Node

namespace Document

/-- A document as JSON. -/
def encode (doc : Document) : Value :=
  .obj (textMember "name" doc.name ++ textMember "initial" doc.initial ++
    fieldsMember "datamodel" doc.datamodel ++ [("states", .arr (Node.encodeAll doc.states))])

/-- The checksum of a document. -/
def checksum (doc : Document) : String := Checksum.ofText doc.encode.compact

end Document
end Statechart
