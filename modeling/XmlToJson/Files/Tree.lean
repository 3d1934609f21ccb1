import XmlToJson.Entries
import XmlToJson.Files.Path
import XmlToJson.Text.Printable

/-!
# Files and directories

The files that a run of the program can read and write.  A tree is the list of what the names below
the root stand for, together with the directory that paths start from and with what the user who
runs the program may do with each file and directory.

A path is walked name by name, so that every name but the last one has to stand for a directory
that may be entered, also where two points lead out of it again.  Names have a greatest length, and
so have the texts of paths; no name holds U+0000.

Looking for what is in a directory is another matter than walking: it passes over a directory that
may not be looked into, and comes to names in a directory that may be looked into but not entered,
about which nothing can be asked then.
-/

namespace XmlToJson

/-- What a name stands for. -/
inductive FileEntry where
  | file (content : List UInt8)
  | directory
  deriving DecidableEq, Repr

/-- What a user may do with a file or a directory. -/
structure Access where
  /-- Reading the bytes of a file, or the names in a directory. -/
  read : Bool := true
  /-- Changing the bytes of a file, or the names in a directory. -/
  write : Bool := true
  /-- Following the names in a directory. -/
  enter : Bool := true
  deriving DecidableEq, Repr

/-- Why a file cannot be read or written. -/
inductive FileFault where
  | missing
  | notADirectory
  | isADirectory
  /-- The user may not do what would have to be done. -/
  | denied
  /-- A name in the path, or the path as a whole, is too long. -/
  | tooLong
  /-- The path holds U+0000. -/
  | unnameable
  deriving DecidableEq, Repr

/-- Whether a fault keeps anyone from telling what a path stands for. -/
def FileFault.hidesEntry : FileFault → Bool
  | .denied | .tooLong => true
  | .missing | .notADirectory | .isADirectory | .unnameable => false

/-- A file that cannot be read or written. -/
structure FileError where
  fault : FileFault
  path : Path
  deriving DecidableEq, Repr

namespace FileError

def describe : FileFault → String
  | .missing => "[Errno 2] No such file or directory"
  | .denied => "[Errno 13] Permission denied"
  | .notADirectory => "[Errno 20] Not a directory"
  | .isADirectory => "[Errno 21] Is a directory"
  | .tooLong => "[Errno 36] File name too long"
  | .unnameable => "No file name holds U+0000"

def message (error : FileError) : String :=
  s!"{describe error.fault}: {Text.quoted error.path.text}"

end FileError

/-- Files and directories. -/
structure FileTree where
  /-- What the names from the root on stand for. -/
  entries : List (List String × FileEntry) := []
  /-- Where paths start that do not begin with a slash. -/
  workingDirectory : List String := []
  /-- What may be done with what the names from the root on stand for. -/
  access : List String → Access := fun _ => {}

namespace FileTree

/-- What names from the root on stand for; the root is a directory. -/
def entryAt? (tree : FileTree) : List String → Option FileEntry
  | [] => some .directory
  | names => tree.entries.lookup names

/-- The greatest number of bytes in a name. -/
def maxNameBytes : Nat := 255

/-- The greatest number of bytes in the text of a path. -/
def maxPathBytes : Nat := 4095

/-- Where a path leads from the place `here`. -/
def walk (tree : FileTree) (here : List String) : List String → Except FileFault (List String)
  | [] => .ok here
  | part :: rest =>
      match tree.entryAt? here with
      | none => .error .missing
      | some (.file _) => .error .notADirectory
      | some .directory =>
          if (tree.access here).enter = false then .error .denied
          else if maxNameBytes < part.utf8ByteSize then .error .tooLong
          else walk tree (if part = ".." then here.dropLast else here ++ [part]) rest

/-- The names from the root on that a path stands for. -/
def locate (tree : FileTree) (path : Path) : Except FileFault (List String) :=
  if path.text.toList.contains '\x00' then .error .unnameable
  else if maxPathBytes < path.text.utf8ByteSize then .error .tooLong
  else tree.walk (if path.isAbsolute then [] else tree.workingDirectory) path.parts

/-- What a path stands for.  A path that leads nowhere stands for nothing, but there are paths that
cannot be asked about. -/
def find (tree : FileTree) (path : Path) : Except FileError (Option (List String × FileEntry)) :=
  match tree.locate path with
  | .ok names => .ok ((tree.entryAt? names).map fun entry => (names, entry))
  | .error fault => if fault.hidesEntry then .error ⟨fault, path⟩ else .ok none

def read (tree : FileTree) (path : Path) : Except FileError (List UInt8) :=
  match tree.locate path with
  | .error fault => .error ⟨fault, path⟩
  | .ok names =>
      match tree.entryAt? names with
      | none => .error ⟨.missing, path⟩
      | some entry =>
          if (tree.access names).read = false then .error ⟨.denied, path⟩
          else
            match entry with
            | .directory => .error ⟨.isADirectory, path⟩
            | .file content => .ok content

/-- The tree in which names from the root on stand for something else. -/
def set (tree : FileTree) (names : List String) (entry : FileEntry) : FileTree :=
  { tree with entries := Entries.set names entry tree.entries }

/-- Whether a file may be written; one that is not there is a new name in its directory. -/
def mayWrite (tree : FileTree) (names : List String) : Bool :=
  match tree.entryAt? names with
  | some _ => (tree.access names).write
  | none => (tree.access names.dropLast).write

/-- Writes a file, which need not be there before; its directory has to be. -/
def write (tree : FileTree) (path : Path) (content : List UInt8) : Except FileError FileTree :=
  match tree.locate path with
  | .error fault => .error ⟨fault, path⟩
  | .ok names =>
      if tree.entryAt? names = some .directory then .error ⟨.isADirectory, path⟩
      else if tree.mayWrite names = false then .error ⟨.denied, path⟩
      else .ok (tree.set names (.file content))

/-- Makes the names from `here` on directories, each inside the one before. -/
def makeDirectories (tree : FileTree) (here : List String) : List String → FileTree
  | [] => tree
  | name :: rest =>
      let names := here ++ [name]
      let tree := if tree.entryAt? names = none then tree.set names .directory else tree
      makeDirectories tree names rest

/-- The tree with another entry, and with the directories that it needs. -/
def add (tree : FileTree) (names : List String) (entry : FileEntry) : FileTree :=
  let tree := tree.makeDirectories [] names.dropLast
  if entry = .directory then tree.makeDirectories [] names else tree.set names entry

/-- Whether looking for what is below the place `here` comes to the given names: every directory on
the way may be looked into, and all but the last one have to be entered for that. -/
def reaches (tree : FileTree) (here : List String) : List String → Bool
  | [] => true
  | name :: rest =>
      (tree.access here).read && (rest.isEmpty || (tree.access here).enter) &&
        reaches tree (here ++ [name]) rest

/-- What is found in a directory, and with `recursive` also what is found further below: the names
that lead there, and whether they lead to a directory. -/
def found (tree : FileTree) (directory : List String) (recursive : Bool) :
    List (List String × Bool) :=
  tree.entries.filterMap fun (names, entry) =>
    let below := names.drop directory.length
    if names.take directory.length = directory ∧ below ≠ [] ∧
        (recursive ∨ below.length = 1) ∧ tree.reaches directory below then
      some (below, entry = .directory)
    else none

/-- Setting what names stand for changes nothing else. -/
theorem entryAt?_set (tree : FileTree) {names : List String} (other : List String)
    (entry : FileEntry) (hnames : names ≠ []) :
    (tree.set names entry).entryAt? other =
      if other = names then some entry else tree.entryAt? other := by
  rcases other with - | ⟨first, rest⟩
  · simp [entryAt?, hnames.symm]
  · exact Entries.lookup_set names (first :: rest) entry tree.entries

end FileTree

end XmlToJson
