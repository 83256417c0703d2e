import Statechart.Document.Decoding
import Statechart.FileSystem

/-!
# Why there is no model

The errors of reading a chart document, of loading what it includes, and of
building a model from it.
-/

namespace Statechart

/-- What is wrong with a single state. -/
inductive StateFault where
  | noStates
  | finalParallel
  | finalChildren
  | finalTransitions
  | parallelChildless
  | parallelInitial
  deriving Repr, DecidableEq

/-- The words for what is wrong with a state. -/
def StateFault.message : StateFault → String
  | noStates => "chart has no states"
  | finalParallel => "a final state cannot be parallel"
  | finalChildren => "a final state cannot have children"
  | finalTransitions => "a final state cannot have transitions"
  | parallelChildless => "a parallel state needs children"
  | parallelInitial => "a parallel state cannot name an initial child"

/-- Why there is no model. -/
inductive BuildError where
  | document (fault : DocumentFault)
  | file (path : String) (fault : FileFault)
  | blankId
  | duplicateId (id : String)
  | unknownTarget (state target : String)
  | badInitial (state initial : String)
  | badState (state : String) (fault : StateFault)
  | badEvent (state event : String)
  | unloadedSource (state src : String)
  | includeCycle (path : String)
  | unresolvedAction (space name : String)
  | badAttributes (space name : String)
  deriving Repr, DecidableEq

/-- The message of a build error. -/
def BuildError.message : BuildError → String
  | document fault => "failed to parse chart document: " ++ fault.message
  | file path fault => "failed to read chart document '" ++ path ++ "': " ++ fault.message
  | blankId => "state identifier must not be blank"
  | duplicateId id => "duplicate state identifier: '" ++ id ++ "'"
  | unknownTarget state target =>
    "transition in state '" ++ state ++ "' targets unknown state '" ++ target ++ "'"
  | badInitial state initial =>
    "invalid initial state '" ++ initial ++ "' for '" ++ state ++ "'"
  | badState state fault => "invalid state '" ++ state ++ "': " ++ fault.message
  | badEvent state event =>
    "transition in state '" ++ state ++ "' has an event pattern matching no event: '" ++
      event ++ "'"
  | unloadedSource state src =>
    "state '" ++ state ++ "' includes '" ++ src ++ "', which was never loaded"
  | includeCycle path => "chart document '" ++ path ++ "' includes itself"
  | unresolvedAction space name => "unresolved custom action " ++ space ++ ":" ++ name
  | badAttributes space name =>
    "invalid attributes for custom action " ++ space ++ ":" ++ name

/-- A stable code for the kind of error. -/
def BuildError.code : BuildError → String
  | document _ => "BAD_DOCUMENT"
  | file _ _ => "IO_ERROR"
  | _ => "MODEL_BUILD_ERROR"

end Statechart
