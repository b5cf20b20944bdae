import ReplicaRouting.Cli.Program
/-!
The program as it is started: it reads the file that the command names and prints the report.
-/

namespace ReplicaRouting.Cli

def FileFault.ofIOError : IO.Error → FileFault
  | .noFileOrDirectory .. => .absent
  | .inappropriateType _ code _ => if code = 21 then .directory else .notDirectory
  | e => .other (toString e)

def readFile (path : String) : IO FileState := do
  if let some fault := FileFault.ofPath? path then return .error fault
  try return .ok (← IO.FS.readBinFile path)
  catch e => return .error (FileFault.ofIOError e)

def run (args : List String) : IO UInt32 := do
  let exit ← program readFile args
  IO.print exit.out
  IO.eprint exit.err
  return exit.code

end ReplicaRouting.Cli

def main (args : List String) : IO UInt32 := ReplicaRouting.Cli.run args
