import CallGraph.Command.Run

/-!
# The command

The command on the files of the system. It decides nothing: arguments, files and the variable with
the directives for the log go in, and the reply comes out.
-/

namespace CallGraph

/-- A fault of the system in the words of the library. The system gives the number of a fault with
either sign. -/
def FileFault.ofSystem (fault : IO.Error) : FileFault :=
  match fault with
  | .noFileOrDirectory _ _ _ => .notFound
  | .noSuchThing _ _ _ => .notFound
  | .inappropriateType _ code _ => if code = 20 ∨ code = -20 then .notFolder else .isFolder
  | fault => .other fault.toString

instance : FileStore IO where
  readBytes path := do
    try return .ok (← IO.FS.readBinFile path)
    catch fault => return .error (.ofSystem fault)
  writeBytes path content := do
    try
      IO.FS.writeBinFile path content
      return .ok ()
    catch fault => return .error (.ofSystem fault)

end CallGraph

/-- The command with the arguments it was called with. -/
def main (arguments : List String) : IO UInt32 := do
  let reply : CallGraph.Command.Reply ←
    CallGraph.Command.run arguments (← IO.getEnv "RUST_LOG")
  IO.print reply.output
  IO.eprint reply.errors
  return UInt32.ofNat reply.code
