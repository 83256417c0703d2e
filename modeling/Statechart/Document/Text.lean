import Statechart.Document.Decoding
import Statechart.Json.Reader

/-!
# Documents from JSON text

The top level of a document is read while the text is scanned: its members are
decoded in the order of the text, the states one by one, and the first fault
counts, be it one of the text or of the document.  A member that the format does
not know is skipped over, and a member that it knows must not come twice.  The top
level may be an array as well, whose items are the members in their order.
-/

namespace Statechart
namespace Document

/-- The top level read so far, with the names of the members that it had. -/
structure Draft where
  document : Document := {}
  seen : List String := []

/-- The fault of a document whose text is not JSON. -/
def textFault (_ : Json.Fault) : DocumentFault := .malformed

/-- Reads a value that is decoded at once; arrays and objects nest at most
`depth` deep in it. -/
def decoded {α : Type} (depth : Nat) (decode : Value → Decoded α) :
    Json.ReaderOf DocumentFault α := fun cs =>
  match Json.value .full depth cs with
  | .error fault => .error (textFault fault)
  | .ok (v, rest) => (decode v).map fun a => (a, rest)

/-- Reads the list of top-level states, one by one. -/
def readStates : Json.ReaderOf DocumentFault (List Node) := fun cs =>
  match Json.skipSpace cs with
  | '[' :: rest => Json.items textFault (decoded (Json.maxDepth - 2) Node.decode) rest
  | _ => .error .malformed

/-- Reads the value of a member of the top level. -/
def readMember (doc : Document) (name : String) : Json.ReaderOf DocumentFault Document := fun cs =>
  if name = "states" then
    (readStates cs).map fun (states, rest) => ({ doc with states }, rest)
  else if isMember name then decoded (Json.maxDepth - 1) (doc.decodeMember name) cs
  else (Json.skipValue cs).mapError textFault |>.map fun (_, rest) => (doc, rest)

/-- Reads a member of the top level behind its key. -/
def readField (draft : Draft) (name : String) : Json.ReaderOf DocumentFault Draft := fun cs =>
  if isMember name && draft.seen.contains name then .error .malformed
  else
    match Json.colon cs with
    | .error fault => .error (textFault fault)
    | .ok (_, rest) =>
      (readMember draft.document name rest).map fun (document, rest) =>
        ({ document, seen := name :: draft.seen }, rest)

/-- Reads the items of the array that a top level can be, up to the closing
bracket, as the members of the given names; `first` holds if no item was read. -/
def readPositions (doc : Document) (first : Bool) :
    (names : List String) → Json.ReaderOf DocumentFault Document
  | names, cs =>
    match Json.itemOrEnd first cs with
    | .error fault => .error (textFault fault)
    | .ok (false, rest) => .ok (doc, rest)
    | .ok (true, rest) =>
      match names with
      | [] => .error .malformed
      | name :: names =>
        match readMember doc name rest with
        | .error fault => .error fault
        | .ok (doc, rest) => readPositions doc false names rest

/-- Reads a document from JSON text. -/
def ofJson (text : String) : Decoded Document :=
  match Json.skipSpace text.toList with
  | '[' :: rest => do (Json.atEnd (← readPositions {} true memberNames rest)).mapError textFault
  | '\x7b' :: rest => do
    let (draft, rest) ← Json.fields textFault .full readField {} rest
    (Json.atEnd (draft.document, rest)).mapError textFault
  | _ => .error .malformed

end Document
end Statechart
