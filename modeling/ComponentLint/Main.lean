-- The command line: looks at the files that the words name, runs the program
-- on them and prints what it says.
import ComponentLint.Command.Program

namespace ComponentLint

/-- What is found at a place of the file system. -/
def lookAt (place : String) : IO (Option FileTree) := do
  let target := (← IO.currentDir) / place
  if ← target.isDir then return some (.folder [])
  else if ← target.pathExists then
    return some (.file (← IO.FS.readBinFile target).toList)
  else return none

/-- A workspace with what is found where names lead from the top. -/
def Workspace.addPlace (w : Workspace) (names : List String) : IO Workspace := do
  if (w.tree.find? names).isSome then return w
  else
    match ← lookAt ("/" ++ "/".intercalate names) with
    | some found => return { w with tree := w.tree.insert names found }
    | none => return w

/-- A workspace with what is found along a path. -/
def Workspace.addPath (w : Workspace) (p : Path) : IO Workspace :=
  (List.range p.parts.length).foldlM
    (fun w n => w.addPlace (w.resolve { p with parts := p.parts.take (n + 1) }).reverse) w

/-- The working folder with the files that words may name and the configuration files at it or
above it. -/
def snapshot (words : List String) : IO Workspace := do
  let here := (Path.ofText (toString (← IO.currentDir))).parts
  let start : Workspace := ⟨.folder [], here⟩
  let values := words.flatMap fun word => [word] ++ (Command.splitLong word).2.toList
  let w ← (values.map Path.ofText).foldlM Workspace.addPath (← start.addPath ⟨"/", here⟩)
  let configs := (List.range (here.length + 1)).flatMap fun n =>
    configNames.map fun name => Path.mk "/" (here.take n ++ [name])
  configs.foldlM Workspace.addPath w

end ComponentLint

open ComponentLint

def main (words : List String) : IO UInt32 := do
  let width := ((← IO.getEnv "COLUMNS").bind String.toNat?).getD 80
  let result := Command.run (← snapshot words) width words
  IO.print result.out
  IO.eprint result.err
  if let some failure := result.unexpected then IO.eprintln failure
  return UInt32.ofNat result.exitCode
