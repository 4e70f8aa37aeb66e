import Shaderlift.Command

/-!
The program: the command on the files of the system.
-/

open Shaderlift

def readText (path : String) : IO (Except String String) := do
  try
    let text ← IO.FS.readFile path
    pure (.ok text)
  catch error =>
    match error with
    | .noFileOrDirectory _ _ _ => pure (.error "No such file or directory (os error 2)")
    | other => pure (.error (toString other))

/-- Run the command, print what it leaves behind and return its exit code. -/
def main (args : List String) : IO UInt32 := do
  let outcome ← Command.run readText args
  (← IO.getStderr).putStr outcome.errors
  (← IO.getStdout).putStr outcome.output
  pure outcome.code
