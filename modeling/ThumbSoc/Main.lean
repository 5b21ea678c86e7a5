import ThumbSoc.Console

/-!
# The command

The console on the real world: files, standard output and standard error.
-/

namespace ThumbSoc

/-- The reason for which a file could not be read, in the words of the host. -/
private def readFailure (error : IO.Error) : String :=
  match error with
  | .noFileOrDirectory _ code details | .permissionDenied (some _) code details
  | .inappropriateType (some _) code details =>
    s!"{details} (os error {code})"
  | _ => toString error

/-- The real world. -/
private def realWorld : Console.World IO where
  contentOf path := do
    try
      return .ok (← IO.FS.readBinFile path).toList
    catch error => return .error (readFailure error)
  output data := do
    let out ← IO.getStdout
    out.write ⟨data.toArray⟩
    out.flush
  diagnose line := IO.eprintln line

end ThumbSoc

/-- Runs the console on the arguments of the command. -/
def main (arguments : List String) : IO UInt32 :=
  ThumbSoc.Console.run ThumbSoc.realWorld arguments
