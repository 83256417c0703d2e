import Statechart.Document.Decoding
import Statechart.Yaml.Scalar

/-!
# Documents from YAML text

The top level is decoded node by node, as far as the text is YAML, and the first
fault counts.  There the name and the initial state may be written as any
scalar, and the states and the variables may be left empty; below the top level
the rules for JSON values hold.  The top level may be a sequence as well, whose
items are the members in their order.  Sequences and mappings nest at most 128
deep, the top level included.

Block scalars, anchors, aliases, tags and directives are not read.
-/

namespace Statechart
namespace Document

/-- Reads a text at the top level: any scalar, but a plain one for `null` leaves
it out. -/
def yamlText : Yaml.Node → Decoded (Option String)
  | .scalar text isPlain => .ok (if isPlain && Yaml.isNull text then none else some text)
  | _ => .error .malformed

/-- The deepest nesting of sequences and mappings. -/
def yamlDepth : Nat := 128

/-- Accepts a node that nests at most `yamlDepth` deep behind `around` others. -/
def yamlBounded (around : Nat) (node : Yaml.Node) : Decoded Unit :=
  if around + node.depth ≤ yamlDepth then .ok () else .error .malformed

/-- Reads the variables. -/
def yamlVariables : Yaml.Node → Decoded (Fields Value)
  | .scalar "" true => .ok []
  | .mapping pairs => do
    yamlBounded 1 (.mapping pairs)
    required (Yaml.Node.fields? [] pairs)
  | _ => .error .malformed

/-- Reads top-level states, one by one. -/
def yamlStates : List Yaml.Node → Decoded (List Statechart.Node)
  | [] => .ok []
  | item :: rest => do
    yamlBounded 2 item
    let v ← required item.value?
    let node ← Statechart.Node.decode v
    return node :: (← yamlStates rest)

/-- Reads the list of top-level states. -/
def yamlStateList : Yaml.Node → Decoded (List Statechart.Node)
  | .scalar "" true => .ok []
  | .sequence items => yamlStates items
  | _ => .error .malformed

/-- Reads a member of the top level. -/
def yamlMember (doc : Document) (name : String) (v : Yaml.Node) : Decoded Document :=
  match name with
  | "name" => return { doc with name := ← yamlText v }
  | "initial" => return { doc with initial := ← yamlText v }
  | "datamodel" => return { doc with datamodel := ← yamlVariables v }
  | "states" => return { doc with states := ← yamlStateList v }
  | _ => if v.isWhole then .ok doc else .error .malformed

/-- Reads the members of the top level; one that the format knows must not come
twice. -/
def yamlMembers (doc : Document) (seen : List String) :
    List (Yaml.Node × Yaml.Node) → Decoded Document
  | [] => .ok doc
  | (k, v) :: rest => do
    let name ← required k.text?
    if isMember name && seen.contains name then throw .malformed
    let doc ← yamlMember doc name v
    yamlMembers doc (name :: seen) rest

/-- Reads the root of a document; an empty one leaves everything out. -/
def yamlRoot : Option Yaml.Node → Decoded Document
  | none => .ok {}
  | some (.scalar "" true) => .ok {}
  | some (.sequence items) => decodePositions yamlMember {} memberNames items
  | some (.mapping pairs) => yamlMembers {} [] pairs
  | some _ => .error .malformed

/-- Reads a document from YAML text. -/
def ofYaml (text : String) : Decoded Document := do
  let stream := Yaml.read text
  let doc ← yamlRoot stream.root
  if stream.isWhole then return doc else throw .malformed

end Document
end Statechart
