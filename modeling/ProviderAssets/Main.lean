import ProviderAssets.CommandLine

/-!
# The program

Runs the command line on the files of the machine.
-/

namespace ProviderAssets

/-- The fault that an error of the system stands for. -/
def faultOf : IO.Error → FileFault
  | .noFileOrDirectory .. => .notFound
  | .permissionDenied .. => .permissionDenied
  | .alreadyExists .. => .alreadyExists
  | .inappropriateType .. => .isDirectory
  | e => .other e.toString

/-- Runs an action on files. -/
def attempt {α : Type} (action : IO α) : IO (Except FileFault α) := do
  try
    return .ok (← action)
  catch e => return .error (faultOf e)

/-- The storage that reads and writes the files of the machine. -/
def machineStorage : Storage IO where
  read p := attempt (return (← IO.FS.readBinFile p.text).toList)
  makeDirs p := attempt (IO.FS.createDirAll p.text)
  write p s := attempt (IO.FS.writeFile p.text s)

end ProviderAssets

/-- Runs the program on its arguments. -/
def main (args : List String) : IO UInt32 := do
  let output ← ProviderAssets.CommandLine.run ProviderAssets.machineStorage args
  IO.print output.stdout
  if output.exitCode = 2 then IO.eprintln output.stderr else IO.eprint output.stderr
  return output.exitCode.toUInt32
