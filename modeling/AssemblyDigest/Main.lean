import AssemblyDigest.Command.Run

/-! # The program

The part of the disk that a run reads is copied into a volume, the run is computed, and its
answer is carried out. All decisions are taken by `AssemblyDigest.Command.run`.
-/

namespace AssemblyDigest

namespace Disk

/-- A link whose target does not exist. -/
def dangling : Node := .link ['\x00']

/-- What stands at a path of the disk, without what is below it: a node, what keeps a file from
being read, and the real target of a link. -/
structure Entry where
  node : Node
  obstacle : Option AccessFault := none
  targets : List String := []

/-- Puts what was found on the disk at a place. -/
def Entry.putAt (entry : Entry) (place : Place) (volume : Volume) : Volume :=
  let volume := volume.insert place entry.node
  match entry.obstacle with
  | some cause => volume.obstruct place cause
  | none => volume

/-- The fault for which a file cannot be read. -/
def readFault : IO.Error → AccessFault
  | .permissionDenied .. => .permissionDenied
  | _ => .inputOutput

/-- What stands at a path of the disk. -/
def readEntry (path : String) : IO (Option Entry) := do
  let found := (← IO.currentDir) / path
  match ← found.symlinkMetadata.toBaseIO with
  | .error _ => return none
  | .ok metadata =>
      match metadata.type with
      | .dir => return some ⟨.emptyDirectory, none, []⟩
      | .file =>
          match ← (IO.FS.readBinFile found).toBaseIO with
          | .ok bytes => return some ⟨.file bytes.toList, none, []⟩
          | .error error => return some ⟨.file [], some (readFault error), []⟩
      | .symlink =>
          match ← (IO.FS.realPath found).toBaseIO with
          | .ok target => return some ⟨.link target.toString.toList, none, [target.toString]⟩
          | .error _ => return some ⟨dangling, none, []⟩
      | .other => return none

/-- Copies the node at a real path and everything below it, and gives the real targets of
the links that were met. -/
partial def copyTree (volume : Volume) (path : String) : IO (Volume × List String) := do
  match ← readEntry path with
  | none => return (volume, [])
  | some entry =>
      let mut volume := entry.putAt (Path.elements path.toList) volume
      let mut links := entry.targets
      if entry.node.isDirectory then
        for child in ← ((← IO.currentDir) / path).readDir do
          let (next, more) ← copyTree volume child.path.toString
          volume := next
          links := links ++ more
      return (volume, links)

/-- Copies trees and whatever their links lead to. -/
partial def copyTrees (volume : Volume) (known : List String) : List String → IO Volume
  | [] => return volume
  | path :: rest => do
      if known.any fun tree => path = tree || (tree ++ "/").isPrefixOf path then
        copyTrees volume known rest
      else
        let (volume, links) ← copyTree volume path
        copyTrees volume (path :: known) (rest ++ links)

/-- Copies the nodes that a path passes, one element after the other, and gives the targets
of the links among them. -/
def copyWay (volume : Volume) (path : Text) : IO (Volume × List String) := do
  let current := (← IO.currentDir).toString
  let mut volume := volume
  let mut links := []
  let mut parent := if Path.isAbsolute path then "/" else current
  for name in (Path.elements path).filter (· ≠ []) do
    let place := String.ofList (Path.join parent.toList name)
    if let some entry ← readEntry place then
      let target := Path.elements place.toList
      if (volume.at? target).isNone then
        volume := entry.putAt target volume
      links := links ++ entry.targets
    match ← (IO.FS.realPath place).toBaseIO with
    | .ok next => parent := next.toString
    | .error _ => parent := place
  return (volume, links)

/-- The volume in which a request is run. -/
def copyFor (request : Command.Request) : IO Volume := do
  let current := (← IO.currentDir).toString
  let mut volume : Volume := ⟨.emptyDirectory, Path.elements current.toList, []⟩
  volume := volume.insert volume.current .emptyDirectory
  let mut trees := []
  match ← (IO.FS.realPath (String.ofList request.rootPath)).toBaseIO with
  | .ok root => trees := [root.toString]
  | .error _ => pure ()
  volume ← copyTrees volume [] trees
  let declaration := Path.join request.rootPath (request.overrides.scopeFile.getD [])
  for path in [request.rootPath, declaration] ++ request.config.toList ++ request.output.toList do
    let (next, links) ← copyWay volume path
    volume := next
    for link in links do
      if (volume.at? (Path.elements link.toList)).isNone then
        volume ← copyTrees volume [] [link]
  return volume

end Disk

/-- Carries out the answer of a run. -/
def carryOut (response : Command.Response) : IO UInt32 := do
  if let some saved := response.saved then
    IO.FS.writeBinFile (String.ofList saved.path) ⟨saved.bytes.toArray⟩
  IO.print (String.ofList response.stdout)
  IO.eprint (String.ofList response.stderr)
  return UInt32.ofNat response.exitCode

end AssemblyDigest

open AssemblyDigest in
/-- Runs the program on the disk. -/
def main (arguments : List String) : IO UInt32 := do
  let texts := arguments.map String.toList
  let volume ←
    match Command.Invocation.ofArguments? texts with
    | some (.scan request) => Disk.copyFor request
    | _ => pure ⟨.emptyDirectory, [], []⟩
  carryOut (Command.run volume texts)
