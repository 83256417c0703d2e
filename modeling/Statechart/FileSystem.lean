import Statechart.Text.Split

/-!
# File systems

A snapshot of files and directories without links, with a working directory.  A
path is resolved name by name from the working directory, or from the root if it
starts with a slash; `.` and empty names stay, `..` goes up, and the root is its
own parent.  Resolving gives the one list of names from the root that all
spellings of a place share.

A directory has no names of more than 255 bytes, and a path that is read must be
shorter than 4096 bytes.
-/

namespace Statechart

/-- Why a path cannot be resolved or read. -/
inductive FileFault where
  /-- The path has a NUL character. -/
  | badPath
  | notFound
  | notDirectory
  | isDirectory
  /-- The path, or a name in it, has too many bytes. -/
  | tooLong
  | notText
  deriving Repr, DecidableEq

/-- The words for a fault. -/
def FileFault.message : FileFault → String
  | badPath => "file name contained an unexpected NUL byte"
  | notFound => "No such file or directory (os error 2)"
  | notDirectory => "Not a directory (os error 20)"
  | isDirectory => "Is a directory (os error 21)"
  | tooLong => "File name too long (os error 36)"
  | notText => "stream did not contain valid UTF-8"

/-- What stands at a place. -/
inductive FileEntry where
  /-- A file, with its text if its bytes are one. -/
  | file (text : Option String)
  | directory
  deriving Repr, DecidableEq

/-- Files and directories by their names from the root. -/
structure FileSystem where
  entries : List (List String × FileEntry)
  /-- The names of the working directory. -/
  here : List String

namespace FileSystem

/-- The names of a path, empty ones included. -/
def namesOf (path : String) : List String :=
  (Text.splitOn (· == '/') path.toList).map String.ofList

/-- Holds of a path that starts at the root. -/
def isAbsolute (path : String) : Bool := path.toList.head? == some '/'

/-- What stands at a place; the root is a directory. -/
def entry? (fs : FileSystem) (names : List String) : Option FileEntry :=
  if names.isEmpty then some .directory else fs.entries.lookup names

/-- The most bytes that a name in a directory has. -/
def nameLimit : Nat := 255

/-- The number of bytes from which on a path cannot be read. -/
def pathLimit : Nat := 4096

/-- Follows names from a place.  Each name, even one that stays, has to be looked
up in a directory. -/
def follow (fs : FileSystem) : List String → List String → Except FileFault (List String)
  | place, [] => .ok place
  | place, name :: rest =>
    match fs.entry? place with
    | none => .error .notFound
    | some (.file _) => .error .notDirectory
    | some .directory =>
      if name = "" || name = "." then fs.follow place rest
      else if name = ".." then fs.follow place.dropLast rest
      else if nameLimit < name.utf8ByteSize then .error .tooLong
      else
        let next := place ++ [name]
        if (fs.entry? next).isSome then fs.follow next rest else .error .notFound

/-- The place that a path leads to. -/
def resolve (fs : FileSystem) (path : String) : Except FileFault (List String) :=
  if path.toList.contains '\x00' then .error .badPath
  else if path = "" then .error .notFound
  else fs.follow (if isAbsolute path then [] else fs.here) (namesOf path)

/-- The text of the file at a place. -/
def textAt (fs : FileSystem) (place : List String) : Except FileFault String :=
  match fs.entry? place with
  | some (.file (some text)) => .ok text
  | some (.file none) => .error .notText
  | some .directory => .error .isDirectory
  | none => .error .notFound

/-- The text of the file that a path leads to.  A path that is too long leads
nowhere, whatever its names are. -/
def read (fs : FileSystem) (path : String) : Except FileFault String :=
  if !path.toList.contains '\x00' && pathLimit ≤ path.utf8ByteSize then .error .tooLong
  else (fs.resolve path).bind fs.textAt

/-- The beginnings of a list of names, the shortest first, the list itself left
out. -/
def parents (names : List String) : List (List String) :=
  (List.range names.length).map names.take

/-- The names of a path in normal form. -/
def normalNames (path : String) : List String :=
  (namesOf path).foldl (fun place name =>
    if name = "" || name = "." then place
    else if name = ".." then place.dropLast
    else place ++ [name]) []

/-- Adds an entry with the directories above it; what is there already stays. -/
def add (fs : FileSystem) (place : List String) (entry : FileEntry) : FileSystem :=
  let above := (parents place).map fun names => (names, FileEntry.directory)
  { fs with entries := fs.entries ++ above ++ [(place, entry)] }

/-- A file system with nothing but its working directory. -/
def empty (here : List String) : FileSystem :=
  ⟨(parents here ++ [here]).map fun names => (names, .directory), here⟩

/-- A working directory with the given files, by their paths in it. -/
def ofFiles (here : List String) (files : List (String × FileEntry)) : FileSystem :=
  files.foldl (fun fs (path, entry) => fs.add (here ++ normalNames path) entry) (empty here)

/-! ## Paths as texts -/

/-- The path that `src` means in a file of the directory `base`. -/
def join (base src : String) : String :=
  if isAbsolute src then src
  else if base = "" || base.toList.getLast? == some '/' then base ++ src
  else base ++ "/" ++ src

/-- Drops slashes and names that stay at the end of a path, last character
first. -/
def dropStays : List Char → List Char
  | '/' :: rest => dropStays rest
  | '.' :: '/' :: rest => dropStays ('/' :: rest)
  | cs => cs

/-- The path of the directory that a path's file is in, as it is written. -/
def directoryOf (path : String) : String :=
  let body := dropStays path.toList.reverse
  let above := body.dropWhile (· != '/')
  match dropStays above with
  | [] => if above.isEmpty then "" else "/"
  | cs => String.ofList cs.reverse

/-- The last name of a path. -/
def fileName (path : String) : String :=
  String.ofList ((dropStays path.toList.reverse).takeWhile (· != '/')).reverse

/-- The extension of the last name of a path: what follows its last dot, unless
the dot is its first character. -/
def extension? (path : String) : Option String :=
  let name := (fileName path).toList
  if name = ['.', '.'] then none
  else
    let ending := name.reverse.takeWhile (· != '.')
    if ending.length + 1 < name.length then some (String.ofList ending.reverse) else none

end FileSystem
end Statechart
