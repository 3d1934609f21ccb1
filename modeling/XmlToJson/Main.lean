import XmlToJson.CommandLine.Run

/-!
# The program

Looks at the files that the arguments name, runs, and prints and writes what came of it.
-/

namespace XmlToJson.CommandLine

/-- Takes away something that could be done with what is at some place. -/
def restrict (files : FileTree) (names : List String) (change : Access → Access) : FileTree :=
  { files with access := fun other =>
      if other = names then change (files.access other) else files.access other }

/-- Does something with files, or something else where the user may not do it. -/
def unlessDenied (action : IO FileTree) (otherwise : FileTree) : IO FileTree := do
  try action
  catch
    | .permissionDenied .. => return otherwise
    | error => throw error

/-- Adds a file, with its bytes if they may be read. -/
def addFile (files : FileTree) (place : String) (names : List String) : IO FileTree :=
  unlessDenied (do return files.add names (.file (← IO.FS.readBinFile place).toList))
    (restrict (files.add names (.file [])) names fun access => { access with read := false })

/-- Adds what is in a directory; only documents are read. -/
partial def addDirectory (files : FileTree) (place : String) (names : List String)
    (recursive : Bool) : IO FileTree :=
  unlessDenied (do
      let mut files := files
      for item in ← (← IO.FS.realPath place).readDir do
        let inside := place ++ "/" ++ item.fileName
        let below := names ++ [item.fileName]
        -- Where a directory may not be entered, its names say nothing about what they stand for.
        let closed := restrict (files.add below (.file [])) names fun access =>
          { access with enter := false }
        files ← unlessDenied (do
            if ← (← IO.FS.realPath inside).isDir then
              let files := files.add below .directory
              if recursive then addDirectory files inside below recursive else return files
            else if files.entryAt? below ≠ none then return files
            else if isDocumentName item.fileName then addFile files inside below
            else return files.add below (.file []))
          closed
      return files)
    (restrict files names fun access => { access with read := false })

/-- Adds what a path leads to, and every place on the way. -/
def addPath (files : FileTree) (path : Path) : IO FileTree := do
  let mut files := files
  for count in List.range (path.parts.length + 1) do
    let here := { path with parts := path.parts.take count }
    if let .ok names := files.locate here then
      try
        if ← (← IO.FS.realPath here.text).isDir then
          files := files.add names .directory
        else
          files ← addFile files here.text names
      catch
        | .permissionDenied .. =>
            files := restrict files names.dropLast fun access => { access with enter := false }
        | _ => pure ()
  return files

/-- Adds what a path of documents leads to, and the documents in it if it leads to a directory. -/
def addDocuments (files : FileTree) (recursive : Bool) (path : Path) : IO FileTree := do
  let files ← addPath files path
  match files.locate path with
  | .ok names =>
      if files.entryAt? names = some .directory then
        try addDirectory files path.text names recursive
        catch _ => return files
      else return files
  | .error _ => return files

/-- The files that a command line names. -/
def filesFor (arguments : List String) : IO FileTree := do
  let home := (Path.ofText (← IO.currentDir).toString).parts
  let files : FileTree := { workingDirectory := home }
  let files := files.add home .directory
  match Invocation.read arguments with
  | .ok ⟨_, some command⟩ =>
      let (paths, recursive) := command.documents
      let files ← paths.foldlM (fun files path => addDocuments files recursive path) files
      command.otherPaths.foldlM addPath files
  | _ => return files

/-- Writes the files that a run has changed. -/
def writeChanges (before after : FileTree) : IO Unit := do
  for (names, entry) in after.entries do
    if let .file content := entry then
      if before.entryAt? names != some entry then
        IO.FS.writeBinFile ("/" ++ "/".intercalate names) ⟨content.toArray⟩

/-- Prints and writes what came of a run, and gives its status. -/
def present (files : FileTree) : Except RunFailure Outcome → IO UInt32
  | .ok outcome => do
      writeChanges files outcome.files
      IO.eprint (textOf outcome.messages)
      IO.print (textOf outcome.output)
      return UInt32.ofNat outcome.status
  | .error failure => do
      IO.eprint (textOf failure.lines)
      return UInt32.ofNat failure.status

end XmlToJson.CommandLine

open XmlToJson.CommandLine in
/-- Runs the program. -/
def main (arguments : List String) : IO UInt32 := do
  let files ← filesFor arguments
  present files (run {} files arguments)
