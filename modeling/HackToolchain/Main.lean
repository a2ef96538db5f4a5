import HackToolchain.CommandLine.Execute

/-!
The program. The files that an execution looks at are read into a tree, the execution is a function of
that tree, and the files it changed are written back.
-/

namespace HackToolchain.CommandLine

/-- The paths an execution looks at, as far as a tree tells. Settings that are not known yet name none. -/
def pathsOf (tree : Tree) (arguments : List Text) : List Text :=
  match Request.ofArguments arguments with
  | .answer _ => []
  | .translation o input =>
    let configured := match settingsOf .standard tree o with
      | .ok s => [s.output, s.log.file]
      | .error _ => []
    let derived := match Build.Inputs.resolve tree input with
      | .ok inputs => [inputs.output]
      | .error _ => []
    (o.config.toList ++ [input] ++ configured ++ derived).filter (· ≠ [])

def placesOf (tree : Tree) (path : Text) : List Place :=
  let step : List Place → Text → List Place := fun found name =>
    let place := found.head?.getD []
    if name = [] ∨ name = "." then found
    else if name = ".." then place.dropLast :: found
    else (place ++ [name]) :: found
  ((Path.names path).foldl step [tree.origin path]).reverse

/-- A place as the system names it. -/
def systemName (place : Place) : String :=
  (String.fromUTF8? ⟨(Path.slash :: Text.join [Path.slash] place).toArray⟩).getD ""

/-- The place that the system names so. -/
def placeNamed (name : String) : Place := (Path.names (Text.ofString name)).filter (· ≠ [])

/-- Adds the file or directory at a place to a tree. -/
def observeNode (tree : Tree) (place : Place) : IO Tree := do
  let path := (← IO.currentDir) / systemName place
  if ← path.isDir then return tree.put place .directory
  else return tree.write place (← IO.FS.readBinFile path).data.toList

/-- Adds what stands at a place to a tree. Where that is a link, what it leads to is added too, with the
directories above; a link that leads nowhere is passed over, and two names of one file are taken for two files. -/
def observe (tree : Tree) (place : Place) : IO Tree := do
  let path := (← IO.currentDir) / systemName place
  if ← path.pathExists then
    let target := placeNamed (← IO.FS.realPath path).toString
    let above := (List.range target.length).map fun n => target.take (n + 1)
    let tree ← above.foldlM observeNode tree
    -- A place behind a link is not in the tree by that name.
    if target = place ∨ !tree.isDirectory place.dropLast then return tree
    else return tree.put place (.link (Path.slash :: Text.join [Path.slash] target))
  else return tree

/-- Adds the members of the directory at a place to a tree. -/
def observeMembers (tree : Tree) (place : Place) : IO Tree := do
  let path := (← IO.currentDir) / systemName place
  if ← path.isDir then
    (← path.readDir).foldlM (fun tree entry => observe tree (place ++ [Text.ofString entry.fileName])) tree
  else return tree

/-- Adds what stands along paths to a tree, and the members of directories they lead to. -/
def observePaths (tree : Tree) (paths : List Text) : IO Tree :=
  paths.foldlM (fun tree path => do
    let tree ← (placesOf tree path).foldlM observe tree
    match tree.locate path with
    | .ok place => observeMembers tree place
    | .error _ => return tree) tree

/-- The tree an execution starts from. What the settings name is looked at once they are known. -/
def snapshot (arguments : List Text) : IO Tree := do
  let here := placeNamed (← IO.currentDir).toString
  let tree := { nodes := [], here : Tree }.makeDirectory here
  let tree ← observePaths tree (pathsOf tree arguments)
  observePaths tree (pathsOf tree arguments)

/-- Writes the files that differ between two trees. -/
def commit (start final : Tree) : IO Unit :=
  final.nodes.forM fun (place, node) => do
    match node with
    | .file contents =>
      if start.contents? place ≠ some contents then
        IO.FS.writeBinFile (systemName place) ⟨contents.toArray⟩
    | _ => return

end HackToolchain.CommandLine

open HackToolchain in
/-- Runs the program on the files of the system. -/
def main (args : List String) : IO UInt32 := do
  let arguments := args.map Text.ofString
  let tree ← CommandLine.snapshot arguments
  let done := CommandLine.execute .standard tree arguments
  CommandLine.commit tree done.tree
  let stdout ← IO.getStdout
  stdout.write ⟨done.stdout.toArray⟩
  stdout.flush
  let stderr ← IO.getStderr
  stderr.write ⟨(done.log ++ done.stderr).toArray⟩
  stderr.flush
  return UInt32.ofNat done.code
