import Mathlib.Data.List.Perm.Subperm
import Mathlib.Logic.Relation
import Statechart.Command.Basic
import Statechart.Proofs.Document.Sources

/-!
# Loading what a document includes

A path includes the paths that its document names as sources, each taken from the directory
of the path.  Loading follows these inclusions depth first and keeps the places of the files
on the way to where it is.  The induction is on what is left for that way: it never holds a
place twice and holds places of files only, so it is no longer than the file system.
-/

namespace Statechart
namespace Document

open Relation

/-! ## Inclusions -/

/-- The path is that of a file that can be read and is a document. -/
def Readable (readers : Readers) (fs : FileSystem) (path : String) : Prop :=
  ∃ doc, readers.ofFile fs path = .ok doc

/-- A state of the document of `path`, at any depth, has the file of the path `included` as
its source. -/
def Includes (readers : Readers) (fs : FileSystem) (path included : String) : Prop :=
  ∃ doc src, readers.ofFile fs path = .ok doc ∧ src ∈ doc.sources ∧
    included = FileSystem.join (FileSystem.directoryOf path) src

/-- Two paths lead to one file. -/
def SameFile (fs : FileSystem) (path other : String) : Prop :=
  ∃ place, fs.resolve path = .ok place ∧ fs.resolve other = .ok place

/-- Everything that a path reaches can be read, and no file that it reaches includes itself,
directly or through others. -/
structure Includable (readers : Readers) (fs : FileSystem) (path : String) : Prop where
  readable : ∀ reached, ReflTransGen (Includes readers fs) path reached →
    Readable readers fs reached
  acyclic : ∀ reached again, ReflTransGen (Includes readers fs) path reached →
    TransGen (Includes readers fs) reached again → ¬ SameFile fs reached again

/-! ## Trees of states -/

section Trees

variable {load : Loader} {base : String}

theorem exists_sourceOf_iff {src : Option String} :
    (∃ doc, sourceOf load base src = .ok doc) ↔
      ∀ s ∈ src.toList, ∃ doc, load (FileSystem.join base s) = .ok doc := by
  cases src <;> simp [sourceOf]

mutual

/-- The sources of a tree are included exactly if each of them is loaded. -/
theorem exists_includeNode_iff (node : Node) (gathered : Fields Value) :
    (∃ result, includeNode load base gathered node = .ok result) ↔
      ∀ src ∈ node.sources, ∃ doc, load (FileSystem.join base src) = .ok doc := by
  cases node with
  | exit definition => simp [includeNode, Node.sources]
  | state definition children =>
      rw [includeNode, Node.sources, List.forall_mem_append, ← exists_sourceOf_iff]
      refine exists_bind_iff fun included => ?_
      rw [← exists_includeNodes_iff children (Fields.complete gathered included.datamodel)]
      refine (exists_bind_iff fun _ => ?_).trans (iff_of_eq (and_true _))
      exact iff_true_intro ⟨_, rfl⟩

theorem exists_includeNodes_iff (nodes : List Node) (gathered : Fields Value) :
    (∃ result, includeNodes load base gathered nodes = .ok result) ↔
      ∀ src ∈ Node.allSources nodes, ∃ doc, load (FileSystem.join base src) = .ok doc := by
  cases nodes with
  | nil => simp [includeNodes, Node.allSources]
  | cons node rest =>
      rw [includeNodes, Node.allSources, List.forall_mem_append,
        ← exists_includeNode_iff node gathered]
      refine exists_bind_iff fun included => ?_
      rw [← exists_includeNodes_iff rest included.2]
      refine (exists_bind_iff fun _ => ?_).trans (iff_of_eq (and_true _))
      exact iff_true_intro ⟨_, rfl⟩

end

theorem exists_includeSources_iff {doc : Document} :
    (∃ result, includeSources load base doc = .ok result) ↔
      ∀ src ∈ doc.sources, ∃ included, load (FileSystem.join base src) = .ok included := by
  rw [Document.sources, ← exists_includeNodes_iff doc.states [], includeSources]
  refine (exists_bind_iff fun _ => ?_).trans (iff_of_eq (and_true _))
  exact iff_true_intro ⟨_, rfl⟩

/-- What is loaded has no sources left. -/
def Resolves (load : Loader) : Prop :=
  ∀ path doc, load path = .ok doc → doc.sources = []

theorem sources_of_sourceOf (hload : Resolves load) {src : Option String} {doc : Document}
    (h : sourceOf load base src = .ok doc) : doc.sources = [] := by
  cases src with
  | none => cases h; rfl
  | some src => exact hload _ _ h

mutual

theorem sources_of_includeNode (hload : Resolves load) (node : Node) {gathered : Fields Value}
    {result : Node × Fields Value} (h : includeNode load base gathered node = .ok result) :
    result.1.sources = [] := by
  cases node with
  | exit definition =>
      rw [includeNode] at h
      cases h
      rfl
  | state definition children =>
      rw [includeNode] at h
      obtain ⟨included, hincluded, h⟩ := bind_eq_ok.1 h
      obtain ⟨inside, hinside, h⟩ := bind_eq_ok.1 h
      obtain rfl := pure_eq_ok.1 h
      have hchildren := sources_of_includeNodes hload children hinside
      have hstates : Node.allSources included.states = [] := sources_of_sourceOf hload hincluded
      simp [Node.sources, Node.allSources_append, hchildren, hstates]

theorem sources_of_includeNodes (hload : Resolves load) (nodes : List Node)
    {gathered : Fields Value} {result : List Node × Fields Value}
    (h : includeNodes load base gathered nodes = .ok result) :
    Node.allSources result.1 = [] := by
  cases nodes with
  | nil =>
      rw [includeNodes] at h
      cases h
      rfl
  | cons node rest =>
      rw [includeNodes] at h
      obtain ⟨first, hfirst, h⟩ := bind_eq_ok.1 h
      obtain ⟨others, hothers, h⟩ := bind_eq_ok.1 h
      obtain rfl := pure_eq_ok.1 h
      rw [Node.allSources, sources_of_includeNode hload node hfirst,
        sources_of_includeNodes hload rest hothers]
      rfl

end

theorem sources_of_includeSources (hload : Resolves load) {doc result : Document}
    (h : includeSources load base doc = .ok result) : result.sources = [] := by
  obtain ⟨included, hincluded, h⟩ := bind_eq_ok.1 h
  obtain rfl := pure_eq_ok.1 h
  exact sources_of_includeNodes hload doc.states hincluded

end Trees

/-! ## The way to a file -/

/-- The files that are being loaded: no file twice. -/
structure Way (fs : FileSystem) (loading : List (List String)) : Prop where
  nodup : loading.Nodup
  known : ∀ place ∈ loading, place ∈ fs.entries.map Prod.fst

variable {readers : Readers} {fs : FileSystem} {loading : List (List String)} {path : String}

theorem way_nil : Way fs [] := ⟨List.nodup_nil, fun _ h => by cases h⟩

theorem Way.length_le (h : Way fs loading) : loading.length ≤ fs.entries.length := by
  have hsub : loading.Subperm (fs.entries.map Prod.fst) := List.subperm_of_subset h.nodup h.known
  simpa using hsub.length_le

/-- A file that can be read stands at a place of the file system. -/
theorem Readable.exists_place (h : Readable readers fs path) :
    ∃ place, fs.resolve path = .ok place ∧ place ∈ fs.entries.map Prod.fst := by
  obtain ⟨doc, hdoc⟩ := h
  unfold Readers.ofFile at hdoc
  split at hdoc
  · cases hdoc
  next text hread =>
  unfold FileSystem.read at hread
  split at hread
  · cases hread
  cases hplace : fs.resolve path with
  | error fault => rw [hplace] at hread; cases hread
  | ok place =>
      rw [hplace] at hread
      refine ⟨place, rfl, ?_⟩
      have hentry : ∃ text, fs.entry? place = some (.file text) := by
        simp only [Except.bind, FileSystem.textAt] at hread
        split at hread
        · next heq => exact ⟨_, heq⟩
        all_goals cases hread
      obtain ⟨text, hentry⟩ := hentry
      unfold FileSystem.entry? at hentry
      split at hentry
      · cases hentry
      · obtain ⟨before, after, hentries, -⟩ := List.lookup_eq_some_iff.1 hentry
        simp [hentries]

theorem Way.push {place : List String} (h : Way fs loading) (hplace : fs.resolve path = .ok place)
    (hread : Readable readers fs path) (hnew : place ∉ loading) : Way fs (place :: loading) := by
  obtain ⟨place', hplace', hknown⟩ := hread.exists_place
  obtain rfl : place' = place := Except.ok.inj (hplace'.symm.trans hplace)
  exact ⟨List.nodup_cons.2 ⟨hnew, h.nodup⟩, List.forall_mem_cons.2 ⟨hknown, h.known⟩⟩

/-! ## Fuel -/

/-- Loading that gives the answer `spent` when there is no fuel left. -/
def loadOr (readers : Readers) (spent : Loader) (fs : FileSystem) :
    (fuel : Nat) → (loading : List (List String)) → Loader
  | 0, _ => spent
  | fuel + 1, loading => fun path =>
    match fs.resolve path with
    | .error fault => .error (.file path fault)
    | .ok place =>
      if loading.contains place then .error (.includeCycle path)
      else
        match readers.ofFile fs path with
        | .error error => .error error
        | .ok doc =>
          includeSources (loadOr readers spent fs fuel (place :: loading))
            (FileSystem.directoryOf path) doc

theorem loadOr_includeCycle (fuel : Nat) (loading : List (List String)) (path : String) :
    loadOr readers (fun path => .error (.includeCycle path)) fs fuel loading path =
      readers.loadWith fs fuel loading path := by
  induction fuel generalizing loading path with
  | zero => rfl
  | succ fuel ih =>
      have hinside : ∀ loading,
          loadOr readers (fun path => .error (.includeCycle path)) fs fuel loading =
            readers.loadWith fs fuel loading := fun loading => funext (ih loading)
      simp only [loadOr, hinside]
      rfl

/-- As long as the way can grow no longer than the fuel lasts, the fuel is not used up. -/
theorem loadOr_eq {spent spent' : Loader} {fuel fuel' : Nat} (hway : Way fs loading)
    (hfuel : fs.entries.length < fuel + loading.length)
    (hfuel' : fs.entries.length < fuel' + loading.length) (path : String) :
    loadOr readers spent fs fuel loading path = loadOr readers spent' fs fuel' loading path := by
  induction fuel generalizing fuel' loading path with
  | zero => exact absurd hway.length_le (by omega)
  | succ fuel ih =>
      obtain ⟨fuel', rfl⟩ : ∃ n, fuel' = n + 1 := by
        have hlength := hway.length_le
        exact ⟨fuel' - 1, by omega⟩
      simp only [loadOr]
      split
      · rfl
      next place hplace =>
      split
      · rfl
      next hnew =>
      split
      · rfl
      next doc hdoc =>
      have hpush := hway.push hplace ⟨doc, hdoc⟩ (by simpa using hnew)
      have hinside : loadOr readers spent fs fuel (place :: loading) =
          loadOr readers spent' fs fuel' (place :: loading) := by
        refine funext fun path => ih hpush ?_ ?_ path
        · rw [List.length_cons]; omega
        · rw [List.length_cons]; omega
      rw [hinside]

/-! ## Success -/

/-- The path is loaded while some files are being loaded: it is none of these, it can be
read, and what it includes is loaded while it is being loaded as well. -/
inductive Loads (readers : Readers) (fs : FileSystem) : List (List String) → String → Prop where
  | intro {loading : List (List String)} {path : String} {place : List String} {doc : Document} :
      fs.resolve path = .ok place → place ∉ loading → readers.ofFile fs path = .ok doc →
      (∀ included, Includes readers fs path included →
        Loads readers fs (place :: loading) included) →
      Loads readers fs loading path

theorem includes_iff {doc : Document} {included : String}
    (hdoc : readers.ofFile fs path = .ok doc) :
    Includes readers fs path included ↔
      ∃ src ∈ doc.sources, FileSystem.join (FileSystem.directoryOf path) src = included := by
  constructor
  · rintro ⟨doc', src, hdoc', hsrc, rfl⟩
    obtain rfl : doc' = doc := Except.ok.inj (hdoc'.symm.trans hdoc)
    exact ⟨src, hsrc, rfl⟩
  · rintro ⟨src, hsrc, rfl⟩
    exact ⟨doc, src, hdoc, hsrc, rfl⟩

theorem loadWith_succ {fuel : Nat} {place : List String} {doc : Document}
    (hplace : fs.resolve path = .ok place) (hnew : place ∉ loading)
    (hdoc : readers.ofFile fs path = .ok doc) :
    readers.loadWith fs (fuel + 1) loading path =
      includeSources (readers.loadWith fs fuel (place :: loading))
        (FileSystem.directoryOf path) doc := by
  rw [Readers.loadWith, hplace]
  dsimp only
  rw [if_neg (by simpa using hnew), hdoc]

theorem loads_of_ok {fuel : Nat} {doc : Document}
    (h : readers.loadWith fs fuel loading path = .ok doc) :
    Loads readers fs loading path := by
  induction fuel generalizing loading path doc with
  | zero => cases h
  | succ fuel ih =>
      have hsucc := h
      rw [Readers.loadWith] at h
      split at h
      · cases h
      next place hplace =>
      split at h
      · cases h
      next hnew =>
      split at h
      · cases h
      next read hread =>
      refine .intro hplace (by simpa using hnew) hread fun included hincluded => ?_
      obtain ⟨src, hsrc, rfl⟩ := (includes_iff hread).1 hincluded
      obtain ⟨inside, hinside⟩ := exists_includeSources_iff.1 ⟨doc, h⟩ src hsrc
      exact ih hinside

theorem exists_ok_of_loads {fuel : Nat} (hway : Way fs loading) (h : Loads readers fs loading path)
    (hfuel : fs.entries.length < fuel + loading.length) :
    ∃ doc, readers.loadWith fs fuel loading path = .ok doc := by
  induction h generalizing fuel with
  | @intro loading path place doc hplace hnew hdoc _ ih =>
      obtain ⟨fuel, rfl⟩ : ∃ n, fuel = n + 1 := by
        have hlength := hway.length_le
        exact ⟨fuel - 1, by omega⟩
      have hpush := hway.push hplace ⟨doc, hdoc⟩ hnew
      rw [loadWith_succ hplace hnew hdoc, exists_includeSources_iff]
      intro src hsrc
      refine ih _ ((includes_iff hdoc).2 ⟨src, hsrc, rfl⟩) hpush ?_
      rw [List.length_cons]
      omega

/-- None of the files that a path reaches is being loaded. -/
def Avoids (readers : Readers) (fs : FileSystem) (loading : List (List String))
    (path : String) : Prop :=
  ∀ reached place, ReflTransGen (Includes readers fs) path reached →
    fs.resolve reached = .ok place → place ∉ loading

theorem Loads.avoids (h : Loads readers fs loading path) : Avoids readers fs loading path := by
  induction h with
  | intro hplace hnew _ _ ih =>
      intro reached place hreach hreached
      rcases hreach.cases_head with rfl | ⟨included, hincluded, hreach⟩
      · obtain rfl := Except.ok.inj (hplace.symm.trans hreached)
        exact hnew
      · exact fun hmem => ih included hincluded reached place hreach hreached
          (List.mem_cons_of_mem _ hmem)

theorem Loads.includable (h : Loads readers fs loading path) : Includable readers fs path := by
  induction h with
  | intro hplace _ hdoc hinside ih =>
      constructor
      · intro reached hreach
        rcases hreach.cases_head with rfl | ⟨included, hincluded, hreach⟩
        · exact ⟨_, hdoc⟩
        · exact (ih included hincluded).readable reached hreach
      · intro reached again hreach hagain
        rcases hreach.cases_head with rfl | ⟨included, hincluded, hreach⟩
        · -- What the path itself includes is loaded while its own place is being loaded.
          rintro ⟨place, hfirst, hsecond⟩
          obtain rfl := Except.ok.inj (hplace.symm.trans hfirst)
          obtain ⟨included, hincluded, hreach⟩ := TransGen.head'_iff.1 hagain
          exact (hinside included hincluded).avoids again _ hreach hsecond List.mem_cons_self
        · exact (ih included hincluded).acyclic reached again hreach hagain

theorem Includable.of_includes {included : String} (h : Includable readers fs path)
    (hincluded : Includes readers fs path included) : Includable readers fs included where
  readable reached hreach := h.readable reached (.head hincluded hreach)
  acyclic reached again hreach hagain := h.acyclic reached again (.head hincluded hreach) hagain

/-- The induction is on how much longer the way can get. -/
theorem loads_of_includable (left : Nat) (hway : Way fs loading)
    (hleft : fs.entries.length < left + loading.length) (h : Includable readers fs path)
    (havoids : Avoids readers fs loading path) : Loads readers fs loading path := by
  induction left generalizing loading path with
  | zero => exact absurd hway.length_le (by omega)
  | succ left ih =>
      have hread := h.readable path .refl
      obtain ⟨place, hplace, -⟩ := hread.exists_place
      obtain ⟨doc, hdoc⟩ := hread
      have hnew := havoids path place .refl hplace
      refine .intro hplace hnew hdoc fun included hincluded => ?_
      refine ih (hway.push hplace ⟨doc, hdoc⟩ hnew) ?_ (h.of_includes hincluded) ?_
      · rw [List.length_cons]
        omega
      · intro reached other hreach hreached hmem
        rcases List.mem_cons.1 hmem with rfl | hmem
        · exact h.acyclic path reached .refl (.head' hincluded hreach) ⟨_, hplace, hreached⟩
        · exact havoids reached other (.head hincluded hreach) hreached hmem

theorem loadWith_resolves (fuel : Nat) (loading : List (List String)) :
    Resolves (readers.loadWith fs fuel loading) := by
  induction fuel generalizing loading with
  | zero =>
      intro path doc h
      cases h
  | succ fuel ih =>
      intro path doc h
      rw [Readers.loadWith] at h
      split at h
      · cases h
      split at h
      · cases h
      split at h
      · cases h
      exact sources_of_includeSources (ih _) h

theorem exists_load_iff :
    (∃ doc, readers.load fs path = .ok doc) ↔ Includable readers fs path := by
  constructor
  · rintro ⟨doc, h⟩
    exact (loads_of_ok h).includable
  · intro h
    have havoids : Avoids readers fs [] path := fun _ _ _ _ hmem => by cases hmem
    have hloads := loads_of_includable (fs.entries.length + 1) way_nil (by simp) h havoids
    exact exists_ok_of_loads way_nil hloads (by simp)

/-- However the texts of files are read, loading ends, as the fuel is never used up: more of it
changes nothing, and neither does what would be answered without any.  It succeeds exactly if
everything that the path reaches can be read and nothing that it reaches includes itself; a file
may be included in several places.  What is loaded has no sources left at any depth, so no model
is refused for one. -/
theorem load_include_graph (readers : Readers) (fs : FileSystem) (path : String) :
    (∀ spent fuel, fs.entries.length < fuel →
      loadOr readers spent fs fuel [] path = readers.load fs path) ∧
    ((∃ doc, readers.load fs path = .ok doc) ↔ Includable readers fs path) ∧
    ∀ doc, readers.load fs path = .ok doc → doc.sources = [] ∧
      ∀ registry state src, Model.build doc registry ≠ .error (.unloadedSource state src) := by
  refine ⟨fun spent fuel hfuel => ?_, exists_load_iff, fun doc hdoc => ?_⟩
  · rw [Readers.load, ← loadOr_includeCycle]
    exact loadOr_eq way_nil hfuel (by simp) path
  · have hsources : doc.sources = [] := loadWith_resolves _ _ path doc hdoc
    exact ⟨hsources, fun registry => Model.sourced_build hsources⟩

/-- Two files that include one and the same file. -/
def diamond : FileSystem := FileSystem.ofFiles ["w"]
  [("top", .file (some ("\x7b\"states\":[\x7b\"id\":\"a\",\"src\":\"left\"\x7d," ++
      "\x7b\"id\":\"b\",\"src\":\"d/right\"\x7d]\x7d"))),
    ("left", .file (some "\x7b\"states\":[\x7b\"id\":\"c\",\"src\":\"d/leaf\"\x7d]\x7d")),
    ("d/right", .file (some "\x7b\"states\":[\x7b\"id\":\"e\",\"src\":\"leaf\"\x7d]\x7d")),
    ("d/leaf", .file (some "\x7b\x7d"))]

theorem includes_of_sources {sources : List String} {src : String}
    (h : (readers.ofFile fs path).toOption.map Document.sources = some sources)
    (hsrc : src ∈ sources) :
    Includes readers fs path (FileSystem.join (FileSystem.directoryOf path) src) := by
  obtain ⟨doc, hdoc, rfl⟩ := Option.map_eq_some_iff.1 h
  cases hread : readers.ofFile fs path with
  | error error => rw [hread] at hdoc; cases hdoc
  | ok doc' =>
      rw [hread] at hdoc
      cases hdoc
      exact ⟨_, src, hread, hsrc, rfl⟩

theorem load_include_graph_diamond :
    let readers := Command.readers
    Includes readers diamond "left" "d/leaf" ∧ Includes readers diamond "d/right" "d/leaf" ∧
      ∃ doc, readers.load diamond "top" = .ok doc ∧ doc.sources = [] ∧
        ∀ again, TransGen (Includes readers diamond) "top" again →
          ¬ SameFile diamond "top" again := by
  intro readers
  have hleft : (readers.ofFile diamond "left").toOption.map Document.sources =
      some ["d/leaf"] := by
    decide +kernel
  have hright : (readers.ofFile diamond "d/right").toOption.map Document.sources =
      some ["leaf"] := by
    decide +kernel
  have hload : (readers.load diamond "top").toBool = true := by decide +kernel
  obtain ⟨doc, hdoc⟩ : ∃ doc, readers.load diamond "top" = .ok doc := by
    cases h : readers.load diamond "top" with
    | error error => rw [h] at hload; cases hload
    | ok doc => exact ⟨doc, rfl⟩
  obtain ⟨-, hiff, hsources⟩ := load_include_graph readers diamond "top"
  have hincludable := hiff.1 ⟨doc, hdoc⟩
  exact ⟨includes_of_sources hleft List.mem_cons_self,
    includes_of_sources hright List.mem_cons_self, doc, hdoc, (hsources doc hdoc).1,
    fun again => hincludable.acyclic "top" again .refl⟩

end Document
end Statechart
