import Statechart.Proofs.Document.Including

/-!
# What a loaded document consists of

Loading unfolds the tree of inclusions below a path.  Two descriptions of that tree are
given which know nothing of the loading itself: the list of its documents in depth-first
pre-order (`Gathers`), and the states of a document with all sources filled in (`Expands`).

A document that is loaded has the states of the second one, and each variable has the value
that the first document of the list gives it (`load_merges`).  Variables are handed upwards
from inner documents to outer ones, one level after the other, so this order is nowhere to
be seen in the loading.  Which files are being loaded has no influence on it either.
-/

namespace Statechart
namespace Document

/-! ## The tree of inclusions -/

/-- The paths that a document of the given path includes, in document order. -/
def inclusions (path : String) (doc : Document) : List String :=
  doc.sources.map (FileSystem.join (FileSystem.directoryOf path))

/-- The documents below some paths in depth-first pre-order: the document of a path comes
before those that it includes, and these come before the next path. -/
inductive Gathers (readers : Readers) (fs : FileSystem) :
    (paths : List String) → List Document → Prop where
  | nil : Gathers readers fs [] []
  | cons {path : String} {paths : List String} {doc : Document} {inner later : List Document} :
    readers.ofFile fs path = .ok doc → Gathers readers fs (inclusions path doc) inner →
      Gathers readers fs paths later →
        Gathers readers fs (path :: paths) (doc :: (inner ++ later))

/-- Trees of states in a file of the directory `base`, before and after everything is
included. -/
inductive Expands (readers : Readers) (fs : FileSystem) :
    (base : String) → (before after : List Node) → Prop where
  | nil {base : String} : Expands readers fs base [] []
  | exit {base : String} {definition : ExitDef} {rest rest' : List Node} :
    Expands readers fs base rest rest' →
      Expands readers fs base (.exit definition :: rest) (.exit definition :: rest')
  | plain {base : String} {definition : StateDef} {children own rest rest' : List Node} :
    definition.src = none → Expands readers fs base children own →
      Expands readers fs base rest rest' →
        Expands readers fs base (.state definition children :: rest)
          (.state definition own :: rest')
  /-- The own children come first, then the states of the document that is included. -/
  | included {base src : String} {definition : StateDef}
      {children own states rest rest' : List Node} {doc : Document} :
    definition.src = some src → readers.ofFile fs (FileSystem.join base src) = .ok doc →
      Expands readers fs base children own →
      Expands readers fs (FileSystem.directoryOf (FileSystem.join base src)) doc.states states →
      Expands readers fs base rest rest' →
        Expands readers fs base (.state definition children :: rest)
          (.state { definition with src := none, initial := definition.initial.or doc.initial }
            (own ++ states) :: rest')

/-- The value of a variable in the first document that declares it. -/
def firstDeclared (name : String) (docs : List Document) : Option Value :=
  docs.findSome? fun doc => Fields.get? name doc.datamodel

variable {readers : Readers} {fs : FileSystem} {path base name : String} {doc result : Document}
  {docs more : List Document} {paths : List String} {nodes nodes' : List Node}

theorem Gathers.append {paths' : List String} (h : Gathers readers fs paths docs)
    (h' : Gathers readers fs paths' more) :
    Gathers readers fs (paths ++ paths') (docs ++ more) := by
  induction h with
  | nil => exact h'
  | cons hdoc hinner _ _ ih =>
      rw [List.cons_append, List.cons_append, List.append_assoc]
      exact .cons hdoc hinner ih

/-- There is only one such list of documents. -/
theorem Gathers.unique (h : Gathers readers fs paths docs) (h' : Gathers readers fs paths more) :
    docs = more := by
  induction h generalizing more with
  | nil =>
      cases h'
      rfl
  | cons hdoc _ _ ihinner ih =>
      cases h' with
      | cons hdoc' hinner' hlater' =>
          cases hdoc.symm.trans hdoc'
          rw [ihinner hinner', ih hlater']

theorem Expands.append {others others' : List Node} (h : Expands readers fs base nodes nodes')
    (h' : Expands readers fs base others others') :
    Expands readers fs base (nodes ++ others) (nodes' ++ others') := by
  induction h with
  | nil => exact h'
  | exit _ ih => exact .exit (ih h')
  | plain hsrc hown _ _ ih => exact .plain hsrc hown (ih h')
  | included hsrc hdoc hown hstates _ _ _ ih => exact .included hsrc hdoc hown hstates (ih h')

/-- Trees of states expand in one way only. -/
theorem Expands.unique {others : List Node} (h : Expands readers fs base nodes nodes')
    (h' : Expands readers fs base nodes others) : nodes' = others := by
  induction h generalizing others with
  | nil =>
      cases h'
      rfl
  | exit _ ih =>
      cases h' with
      | exit hrest' => rw [ih hrest']
  | plain hsrc _ _ ihown ih =>
      -- only one of the two rules fits, as the source tells them apart
      cases h' with
      | plain _ hown' hrest' => rw [ihown hown', ih hrest']
      | included hsrc' => cases hsrc.symm.trans hsrc'
  | included hsrc hdoc _ _ _ ihown ihstates ih =>
      cases h' with
      | plain hsrc' => cases hsrc.symm.trans hsrc'
      | included hsrc' hdoc' hown' hstates' hrest' =>
          cases hsrc.symm.trans hsrc'
          cases hdoc.symm.trans hdoc'
          rw [ihown hown', ihstates hstates', ih hrest']

theorem firstDeclared_append :
    firstDeclared name (docs ++ more) = (firstDeclared name docs).or (firstDeclared name more) :=
  List.findSome?_append

/-! ## What loading puts together -/

/-- What the document that is loaded from a path is made of: the document of the path, and
those below it in depth-first pre-order, that one included. -/
structure Merged (readers : Readers) (fs : FileSystem) (path : String) (doc : Document)
    (docs : List Document) (result : Document) : Prop where
  own : readers.ofFile fs path = .ok doc
  gathers : Gathers readers fs [path] docs
  name : result.name = doc.name
  initial : result.initial = doc.initial
  states : Expands readers fs (FileSystem.directoryOf path) doc.states result.states
  value : ∀ name, Fields.get? name result.datamodel = firstDeclared name docs

/-- A loader merges what it loads. -/
def Merges (readers : Readers) (fs : FileSystem) (load : Loader) : Prop :=
  ∀ path result, load path = .ok result → ∃ doc docs, Merged readers fs path doc docs result

section Trees

variable {load : Loader}

mutual

/-- Including the sources of a tree adds the variables of what it includes behind those that
were gathered before. -/
theorem expands_includeNode (hload : Merges readers fs load) (node : Node) {gathered : Fields Value}
    {result : Node × Fields Value} (h : includeNode load base gathered node = .ok result) :
    Expands readers fs base [node] [result.1] ∧
      ∃ docs, Gathers readers fs (node.sources.map (FileSystem.join base)) docs ∧
        ∀ name, Fields.get? name result.2 =
          (Fields.get? name gathered).or (firstDeclared name docs) := by
  cases node with
  | exit definition =>
      rw [includeNode] at h
      cases h
      exact ⟨.exit .nil, [], .nil, fun name => Option.or_none.symm⟩
  | state definition children =>
      rw [includeNode] at h
      obtain ⟨included, hincluded, h⟩ := bind_eq_ok.1 h
      obtain ⟨inside, hinside, h⟩ := bind_eq_ok.1 h
      obtain rfl := pure_eq_ok.1 h
      obtain ⟨hown, docs, hdocs, hvalue⟩ := expands_includeNodes hload children hinside
      rw [Node.sources]
      cases hsrc : definition.src with
      | none =>
          rw [hsrc] at hincluded
          cases hincluded
          have hsame : { definition with src := none, initial := definition.initial.or none } =
              definition := by
            rw [Option.or_none, ← hsrc]
          dsimp only
          rw [hsame, List.append_nil]
          exact ⟨.plain hsrc hown .nil, docs, hdocs, hvalue⟩
      | some src =>
          rw [hsrc] at hincluded
          obtain ⟨doc, first, hmerged⟩ := hload _ _ hincluded
          -- the source is loaded before the children, and so it stands in front of theirs
          refine ⟨?_, first ++ docs, hmerged.gathers.append hdocs, fun name => ?_⟩
          · rw [hmerged.initial]
            exact .included hsrc hmerged.own hown hmerged.states .nil
          · rw [hvalue, Fields.get?_complete, hmerged.value, firstDeclared_append,
              Option.or_assoc]

theorem expands_includeNodes (hload : Merges readers fs load) (nodes : List Node)
    {gathered : Fields Value} {result : List Node × Fields Value}
    (h : includeNodes load base gathered nodes = .ok result) :
    Expands readers fs base nodes result.1 ∧
      ∃ docs, Gathers readers fs ((Node.allSources nodes).map (FileSystem.join base)) docs ∧
        ∀ name, Fields.get? name result.2 =
          (Fields.get? name gathered).or (firstDeclared name docs) := by
  cases nodes with
  | nil =>
      rw [includeNodes] at h
      cases h
      exact ⟨.nil, [], .nil, fun name => Option.or_none.symm⟩
  | cons node rest =>
      rw [includeNodes] at h
      obtain ⟨first, hfirst, h⟩ := bind_eq_ok.1 h
      obtain ⟨others, hothers, h⟩ := bind_eq_ok.1 h
      obtain rfl := pure_eq_ok.1 h
      obtain ⟨hnode, docs, hdocs, hvalue⟩ := expands_includeNode hload node hfirst
      obtain ⟨hrest, later, hlater, hvalue'⟩ := expands_includeNodes hload rest hothers
      rw [Node.allSources, List.map_append]
      refine ⟨hnode.append hrest, docs ++ later, hdocs.append hlater, fun name => ?_⟩
      rw [hvalue', hvalue, firstDeclared_append, Option.or_assoc]

end

/-- The variables of a document come before those that it includes. -/
theorem merged_includeSources (hload : Merges readers fs load)
    (hdoc : readers.ofFile fs path = .ok doc)
    (h : includeSources load (FileSystem.directoryOf path) doc = .ok result) :
    ∃ docs, Merged readers fs path doc docs result := by
  obtain ⟨included, hincluded, h⟩ := bind_eq_ok.1 h
  obtain rfl := pure_eq_ok.1 h
  obtain ⟨hstates, docs, hdocs, hvalue⟩ := expands_includeNodes hload doc.states hincluded
  have hgathers : Gathers readers fs [path] (doc :: (docs ++ [])) := .cons hdoc hdocs .nil
  rw [List.append_nil] at hgathers
  refine ⟨doc :: docs, hdoc, hgathers, rfl, rfl, hstates, fun name => ?_⟩
  have hfirst : firstDeclared name (doc :: docs) =
      (Fields.get? name doc.datamodel).or (firstDeclared name docs) := by
    rw [firstDeclared, List.findSome?_cons]
    cases Fields.get? name doc.datamodel <;> rfl
  rw [Fields.get?_complete, hvalue, Fields.get?_nil, Option.none_or, hfirst]

end Trees

theorem merges_loadWith (fuel : Nat) (loading : List (List String)) :
    Merges readers fs (readers.loadWith fs fuel loading) := by
  induction fuel generalizing loading with
  | zero =>
      intro path result h
      cases h
  | succ fuel ih =>
      intro path result h
      rw [Readers.loadWith] at h
      split at h
      · cases h
      split at h
      · cases h
      split at h
      · cases h
      next doc hdoc =>
      exact ⟨doc, merged_includeSources (ih _) hdoc h⟩

/-- Every document of the list is heard: a variable that it declares has a value. -/
theorem exists_firstDeclared (hdoc : doc ∈ docs)
    (hname : Fields.has name doc.datamodel = true) :
    ∃ value, firstDeclared name docs = some value := by
  refine Option.isSome_iff_exists.1 (List.findSome?_isSome_iff.2 ⟨doc, hdoc, ?_⟩)
  rwa [Fields.has] at hname

/-- However the texts of files are read, the document that is loaded from a path has the states
of the path's own document with all sources filled in, and the variables of all documents of the
tree, each with the value of the first document in depth-first pre-order that declares it.  The
tree determines both. -/
theorem load_merges (h : readers.load fs path = .ok result) :
    ∃ doc docs, Merged readers fs path doc docs result ∧
      (∀ others, Gathers readers fs [path] others → others = docs) ∧
      (∀ states, Expands readers fs (FileSystem.directoryOf path) doc.states states →
        states = result.states) ∧
      ∀ other ∈ docs, ∀ name, Fields.has name other.datamodel = true →
        Fields.has name result.datamodel = true := by
  obtain ⟨doc, docs, hmerged⟩ := merges_loadWith (fs.entries.length + 1) [] path result h
  refine ⟨doc, docs, hmerged, fun others hothers => hothers.unique hmerged.gathers,
    fun states hstates => hstates.unique hmerged.states, fun other hother name hname => ?_⟩
  obtain ⟨value, hvalue⟩ := exists_firstDeclared hother hname
  rw [Fields.has, hmerged.value, hvalue]
  rfl

/-- A state with a child of its own and a source; both include further files, and variables
are declared more than once. -/
def nested : FileSystem := FileSystem.ofFiles ["w"]
  [("top", .file (some ("\x7b\"datamodel\":\x7b\"a\":0\x7d,\"states\":[" ++
      "\x7b\"id\":\"p\",\"src\":\"mid\",\"states\":[" ++
        "\x7b\"id\":\"q\",\"src\":\"late\"\x7d]\x7d]\x7d"))),
    ("mid", .file (some ("\x7b\"initial\":\"m\",\"datamodel\":\x7b\"b\":1\x7d,\"states\":[" ++
      "\x7b\"id\":\"m\",\"src\":\"deep\"\x7d]\x7d"))),
    ("deep", .file (some ("\x7b\"datamodel\":\x7b\"a\":7,\"c\":2\x7d,\"states\":[" ++
      "\x7b\"id\":\"d\"\x7d]\x7d"))),
    ("late", .file (some ("\x7b\"datamodel\":\x7b\"b\":4,\"c\":3\x7d,\"states\":[" ++
      "\x7b\"id\":\"l\"\x7d]\x7d")))]

theorem load_merges_nested :
    let readers := Command.readers
    ∃ doc docs result, readers.load nested "top" = .ok result ∧
      Merged readers nested "top" doc docs result ∧
      Node.allIds result.states = ["p", "q", "l", "m", "d"] ∧
      (firstDeclared "a" docs).bind Value.int? = some 0 ∧
      (firstDeclared "b" docs).bind Value.int? = some 1 ∧
      (firstDeclared "c" docs).bind Value.int? = some 2 := by
  intro readers
  have hload : ((readers.load nested "top").toOption.map fun result =>
      (Node.allIds result.states, ["a", "b", "c"].map fun name =>
        (Fields.get? name result.datamodel).bind Value.int?)) =
      some (["p", "q", "l", "m", "d"], [some 0, some 1, some 2]) := by
    decide +kernel
  cases h : readers.load nested "top" with
  | error error =>
      rw [h] at hload
      cases hload
  | ok result =>
      rw [h] at hload
      obtain ⟨hids, hvalues⟩ := Prod.mk.inj (Option.some.inj hload)
      obtain ⟨doc, docs, hmerged, -⟩ := load_merges h
      obtain ⟨ha, hvalues⟩ := List.cons.inj hvalues
      obtain ⟨hb, hvalues⟩ := List.cons.inj hvalues
      obtain ⟨hc, -⟩ := List.cons.inj hvalues
      dsimp only at ha hb hc
      rw [hmerged.value] at ha hb hc
      exact ⟨doc, docs, result, rfl, hmerged, hids, ha, hb, hc⟩

end Document
end Statechart
