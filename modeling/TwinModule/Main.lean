import TwinModule.CommandLine.Run
/-!
The program itself: the files below the current directory become a store, a run is made on it, and what the run
has changed is written back.
-/
set_option autoImplicit false

namespace TwinModule

def locationOf (path : String) : Location := (FilePath.read path).names

/-- What is at an entry of a directory and below it. A link is not followed. -/
partial def entriesAt (e : IO.FS.DirEntry) : IO (List (Location × Entry)) := do
  let place := locationOf e.path.toString
  try
    let real := (← IO.FS.realPath e.path).toString
    if real != e.path.toString then return [(place, .link (FilePath.read real))]
    if ← e.path.isDir then
      let inner ← (← e.path.readDir).toList.mapM entriesAt
      return (place, .directory) :: inner.flatten
    return [(place, .file (← IO.FS.readBinFile e.path))]
  catch _ => return []

/-- The current directory and what is below it, as a store. -/
def currentStore : IO (FilePath × Store) := do
  let here ← IO.currentDir
  let inner ← (← here.readDir).toList.mapM entriesAt
  let cwd := FilePath.read here.toString
  let above := (List.range cwd.names.length).map fun n => (cwd.names.take (n + 1), Entry.directory)
  return (cwd, ⟨above ++ inner.flatten⟩)

def writeBack (before after : Store) : IO Unit := do
  for (l, e) in after.entries do
    if before.find? l != some e then
      let path := (FilePath.mk .slash l).text
      match e with
      | .directory => IO.FS.createDirAll path
      | .file bytes => IO.FS.writeBinFile path bytes
      | .link _ => pure ()

end TwinModule

open TwinModule in
def main (args : List String) : IO UInt32 := do
  let (cwd, store) ← currentStore
  let outcome := CommandLine.run store cwd args
  writeBack store outcome.store
  IO.print outcome.output
  IO.eprint outcome.diagnostics
  match outcome.exit with
  | .ok code => return UInt32.ofNat code
  | .error f =>
    IO.eprintln f.message
    return 1
