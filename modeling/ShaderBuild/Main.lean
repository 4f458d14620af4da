import ShaderBuild.Command.Run
import ShaderBuild.FileTree.Listing
import ShaderBuild.Shell.System

namespace ShaderBuild

/-- Put entries of a directory, and all that is below them, into a tree. A file that names its
interpreter counts as one that may be run. -/
partial def gather (base : String) (entries : Array IO.FS.DirEntry) (t : FileTree) :
    IO FileTree := do
  let mut t := t
  for e in entries do
    let path := Path.join base e.fileName
    if ← e.path.isDir then
      let inner := (t.createDirectories path).1
      t ← gather path (← e.path.readDir) inner
    else
      let bytes := (← IO.FS.readBinFile e.path).toList
      t := (t.put path bytes).toOption.getD t
      if (Shell.Program.interpreter? bytes).isSome then
        t := (t.allowRunning path).toOption.getD t
  return t

/-- Write what a tree holds below its home and another one does not. -/
def publish (old new : FileTree) : IO Unit := do
  let rows := (new.listing ".").toOption.getD []
  for (path, entry) in rows do
    if (old.lookup path).toOption != some entry then
      match entry with
      | .directory => IO.FS.createDirAll path
      | .file bytes _ => IO.FS.writeBinFile path ⟨bytes.toArray⟩

/-- Print the entries of a journal, each where it belongs. -/
def printJournal (j : Journal) (time : String) : IO Unit := do
  for e in j.entries do
    if e.isAlert then IO.eprintln (e.line time) else IO.println (e.line time)

end ShaderBuild

open ShaderBuild in
def main (words : List String) : IO UInt32 := do
  let here ← IO.currentDir
  let home := (here.toString.splitOn "/").filter (· != "")
  let (base, _) := (FileTree.withHome home).createDirectories defaultScratch
  let files ← gather "" (← here.readDir) base
  let process := (← IO.monoNanosNow) % 32768
  let build := Command.execute (Shell.system process) words (← IO.getEnv "DXC_PATH")
  let (result, w) := build.run.run { files, process }
  publish files w.files
  printJournal w.journal (toString w.clock)
  match result with
  | .ok c =>
    IO.print c.stdout
    IO.eprint c.stderr
    return .ofNat c.status
  | .error f =>
    if let .breakdown message := f then IO.eprintln message
    return 101
