import TypingsAudit.CommandLine.Run

set_option autoImplicit false

/-! # The program

The outer layer: it looks at the disk and the clock, and prints what a run comes to. -/

namespace TypingsAudit.Main

/-- A directory on disk with these children, read whole. Children that no package has are not read;
    neither is anything that is no file and no directory. -/
partial def readDirectory (children : Array IO.FS.DirEntry) : IO DiskEntry := do
  let mut entries := []
  for child in children do
    if child.fileName ∉ DiskEntry.skippedNames then
      match (← child.path.symlinkMetadata).type with
      | .file =>
        let contents ← IO.FS.readBinFile child.path
        entries := (child.fileName, .file contents.toList) :: entries
      | .dir => entries := (child.fileName, ← readDirectory (← child.path.readDir)) :: entries
      | _ => pure ()
  return .directory entries

/-- What the path of a package leads to. -/
def findPackage (path : String) : IO (Option DiskEntry) := do
  try
    let real ← IO.FS.realPath path
    if ← real.isDir then some <$> readDirectory (← real.readDir)
    else return some (.file (← IO.FS.readBinFile real).toList)
  catch _ => return none

/-- Whether to print in colors. -/
def wantsColors : IO Bool := do
  return (← (← IO.getStdout).isTty) && (← IO.getEnv "NO_COLOR").isNone

end TypingsAudit.Main

open TypingsAudit in
/-- Check the package that the arguments name. -/
def main (arguments : List String) : IO UInt32 := do
  let start ← IO.monoMsNow
  let outcome ←
    match CommandLine.parse arguments with
    | .error interruption => pure interruption.outcome
    | .ok task =>
      let found ← Main.findPackage task.package
      let examined ← IO.lazyPure fun () => CommandLine.examine task found
      let elapsed := (← IO.monoMsNow) - start
      let painter : Report.Painter := ⟨← Main.wantsColors⟩
      pure (CommandLine.conclude task ⟨painter, toString elapsed, 1⟩ examined)
  IO.print outcome.output
  IO.eprint outcome.errors
  return UInt32.ofNat outcome.status
