import Statechart.Document.Decoding
import Statechart.FileSystem
import Statechart.Model.Error

/-!
# Loading documents from files

A state with a source gets the states of another document as further children,
and its initial state if it names none itself.  The path of the source is
relative to the directory of the including file.  The variables of included
documents are added to those of the including one; of two declarations of a
variable the one met first counts, where a document comes before what it
includes and its includes come in document order.

A file that is being loaded must not be included again, so the files of the file
system bound the depth.

The texts of files are JSON or YAML.  How such a text is read is not fixed here:
loading takes the readers of the two formats as a parameter (`Readers`).
-/

namespace Statechart
namespace Document

/-- The readers of the formats that the text of a file may have. -/
structure Readers where
  json : String → Decoded Document
  yaml : String → Decoded Document

namespace Readers

/-- Reads a document from the text of a file: YAML if the file's extension says
so, and JSON otherwise. -/
def ofText (readers : Readers) (path text : String) : Decoded Document :=
  match FileSystem.extension? path with
  | some "yaml" => readers.yaml text
  | some "yml" => readers.yaml text
  | _ => readers.json text

/-- Reads the document of one file, its sources left as they are. -/
def ofFile (readers : Readers) (fs : FileSystem) (path : String) : Except BuildError Document :=
  match fs.read path with
  | .error fault => .error (.file path fault)
  | .ok text => (readers.ofText path text).mapError .document

end Readers

/-- A loader gives the document of a path, with everything it includes. -/
abbrev Loader := String → Except BuildError Document

/-- The document that the source of a state names, if there is one. -/
def sourceOf (load : Loader) (base : String) (src : Option String) :
    Except BuildError Document :=
  match src with
  | none => .ok {}
  | some src => load (FileSystem.join base src)

mutual

/-- A tree of states with its sources included, and the variables that were
included so far. -/
def includeNode (load : Loader) (base : String) (gathered : Fields Value) :
    Node → Except BuildError (Node × Fields Value)
  | .exit definition => .ok (.exit definition, gathered)
  | .state definition children => do
    let included ← sourceOf load base definition.src
    let gathered := Fields.complete gathered included.datamodel
    let (children, gathered) ← includeNodes load base gathered children
    let initial := definition.initial.or included.initial
    return (.state { definition with src := none, initial } (children ++ included.states),
      gathered)

/-- Trees of states with their sources included. -/
def includeNodes (load : Loader) (base : String) (gathered : Fields Value) :
    List Node → Except BuildError (List Node × Fields Value)
  | [] => .ok ([], gathered)
  | node :: rest => do
    let (node, gathered) ← includeNode load base gathered node
    let (rest, gathered) ← includeNodes load base gathered rest
    return (node :: rest, gathered)

end

/-- A document of the directory `base` with its sources included. -/
def includeSources (load : Loader) (base : String) (doc : Document) :
    Except BuildError Document := do
  let (states, gathered) ← includeNodes load base [] doc.states
  return { doc with states, datamodel := Fields.complete doc.datamodel gathered }

namespace Readers

/-- Loads the document of a path; `loading` holds the files that are being
loaded, and `fuel` bounds how many more there can be. -/
def loadWith (readers : Readers) (fs : FileSystem) :
    (fuel : Nat) → (loading : List (List String)) → Loader
  | 0, _, path => .error (.includeCycle path)
  | fuel + 1, loading, path =>
    match fs.resolve path with
    | .error fault => .error (.file path fault)
    | .ok place =>
      if loading.contains place then .error (.includeCycle path)
      else
        match readers.ofFile fs path with
        | .error error => .error error
        | .ok doc =>
          includeSources (readers.loadWith fs fuel (place :: loading))
            (FileSystem.directoryOf path) doc

/-- Loads the document of a path. -/
def load (readers : Readers) (fs : FileSystem) : Loader :=
  readers.loadWith fs (fs.entries.length + 1) []

end Readers

end Document
end Statechart
