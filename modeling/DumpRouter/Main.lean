import DumpRouter.CommandLine

/-!
# DumpRouter.Main

The program on the system's own disk. What the run may look at is read beforehand, and what it has
changed is written afterwards; in between there is only `CommandLine.run`.
-/

namespace DumpRouter

def Location.text (l : Location) : String := "/" ++ "/".intercalate l.toNames

def look (l : Location) : IO (Option Node) := do
  try
    return some (.file (← IO.FS.readBinFile l.text))
  catch
    | .noFileOrDirectory .. => return none
    | .inappropriateType .. => return some .directory
    | e => throw e

/-- Enters what the system has at a place, and at the places on the way to it. -/
def enter (d : Disk) (l : Location) : IO Disk := do
  let mut d := d
  let mut place := Location.root
  for name in l.toNames do
    let directory := place
    place := directory.below name
    if d.node? directory = some .directory && d.node? place = none then
      match ← look place with
      | some node => d := d.put place node
      | none => pure ()
  return d

def Disk.locate (d : Disk) (p : Path) : Location :=
  p.pieces.foldl
    (fun l name => if name = "." then l else if name = ".." then l.parent else l.below name)
    (if p.isAbsolute then .root else d.here)

def Settings.paths (c : Settings) : List Path :=
  [⟨Text.trim c.input.path⟩, ⟨c.log.dir⟩, ⟨c.split.outputDir⟩] ++
    c.exports.csv.map (⟨·.path⟩) ++ c.exports.json.map (⟨·.path⟩)

/-- The system's disk as far as a run with these arguments looks at it. -/
def survey (args : List String) : IO Disk := do
  let here := Location.ofNames (⟨toString (← IO.currentDir)⟩ : Path).pieces
  let mut d ← enter ⟨Disk.devices, here⟩ here
  d ← enter d (d.locate Settings.standardFile)
  let named := match Settings.load d with
    | .ok c => c.paths
    | .error _ => []
  for p in (args.drop 1).map Path.mk ++ named do
    d ← enter d (d.locate p)
  return d

/-- Makes the directories and writes the files that are not as they were. -/
def settle (before after : Disk) : IO Unit := do
  for (l, node) in after.nodes do
    if before.node? l ≠ some node then
      match node with
      | .directory => IO.FS.createDirAll l.text
      | .file content => IO.FS.writeBinFile l.text content
      | .device _ => pure ()

end DumpRouter

def main (args : List String) : IO UInt32 := do
  let before ← DumpRouter.survey args
  match DumpRouter.CommandLine.run args before with
  | none =>
    IO.eprintln "attempt to multiply with overflow"
    return 101
  | some (answer, after) =>
    DumpRouter.settle before after
    for (level, text) in answer.console do
      IO.println (level.name ++ " " ++ text)
    IO.eprint answer.complaints
    return answer.exit
