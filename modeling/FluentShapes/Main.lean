import FluentShapes.Command.Run

/-! # The program

The files below the working directory are read into a tree, the command line is carried out on it,
and what has changed is written back.
-/

namespace FluentShapes.Main

/-- Add what is below a directory to a tree. A link is followed, and what it leads to counts as being
where the link is. A file that may not be read ends the program. -/
partial def snapshot (path : String) (l : Location) (tree : FileTree) : IO FileTree := do
  let mut tree := tree
  for entry in ← (← IO.FS.realPath path).readDir do
    let child := l ++ [entry.fileName]
    let childPath := Path.join path entry.fileName
    -- A link that leads nowhere.
    unless ← entry.path.pathExists do continue
    match (← entry.path.metadata).type with
    | .dir => tree ← snapshot childPath child (tree.insert child .directory)
    | .file =>
        let bytes ← IO.FS.readBinFile childPath
        tree := tree.insert child (.file (.ofBytes bytes))
    | _ => pure ()
  return tree

/-- The tree of the files below a directory, with the directories above it. -/
def treeOf (cwd : String) : IO FileTree := do
  let l := (Path.names cwd).filter (!Path.isIdle ·)
  let above := ((List.range (l.length + 1)).drop 1).map l.take
  snapshot cwd l (above.foldl (fun t p ↦ t.insert p .directory) Table.empty)

def writeBack (before after : FileTree) : IO Unit := do
  for l in FileTree.newDirectories before after do
    IO.FS.createDirAll ("/" ++ "/".intercalate l)
  for (l, text) in FileTree.changes before after do
    IO.FS.writeFile ("/" ++ "/".intercalate l) text

end FluentShapes.Main

open FluentShapes in
def main (arguments : List String) : IO UInt32 := do
  let cwd := (← IO.currentDir).toString
  let tree ← Main.treeOf cwd
  let result := Command.runLine cwd arguments tree
  Main.writeBack tree result.session.tree
  IO.print result.session.stdout
  IO.eprint result.session.stderr
  return result.exit.toUInt32
