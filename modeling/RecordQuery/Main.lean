import RecordQuery.CommandLine.Run

/-!
# The program

Reads the files that the arguments name and prints the outcome of the run.
-/

open RecordQuery.CommandLine

def faultOf : IO.Error → FileFault
  | .noFileOrDirectory .. => .missing
  | .inappropriateType _ 20 _ => .notDirectory
  | .inappropriateType .. => .directory
  | .invalidArgument _ 36 _ => .tooLong
  | .permissionDenied .. => .denied
  | .invalidArgument _ code text | .hardwareFault code text | .otherError code text =>
    .stated s!"{text} (os error {code})"
  | e => .stated (toString e)

def readText (path : String) : IO (Except FileFault String) := do
  try
    -- `readBinFile` would ask for the size first, and report errors under other codes.
    let file ← IO.FS.Handle.mk path .read
    let bytes ← file.readBinToEnd
    match String.fromUTF8? bytes with
    | some text => return .ok text
    | none => return .error .notText
  catch e => return .error (faultOf e)

/-- The text of a file that need not be there. It is missing wherever its path leads nowhere, also because
the path is too long, goes round in links, or passes a directory that may not be searched. -/
def readIfThere (path : String) : IO (Except FileFault String) := do
  try
    discard <| IO.FS.realPath path
  catch _ =>
    return .error .missing
  match ← readText path with
  | .error .tooLong => return .error .missing
  | contents => return contents

/-- The home of the user that runs the program, as it is recorded in the file of passwords. -/
def recordedHome? : IO (Option String) := do
  match ← readText "/proc/self/status", ← readText "/etc/passwd" with
  | .ok status, .ok passwords => return (userOf? status).bind (homeOf? passwords)
  | _, _ => return none

def main (args : List String) : IO UInt32 := do
  let configVariable ← IO.getEnv "QPROJ_CONFIG"
  let configHome ← IO.getEnv "XDG_CONFIG_HOME"
  let env : Environment ← match userConfig? configHome (← IO.getEnv "HOME") (← recordedHome?) with
    | some path => pure ⟨configVariable, path, ← readIfThere path⟩
    | none => pure ⟨configVariable, "", .error .missing⟩
  let paths := match Invocation.parse configVariable args with
    | .ok i => i.files
    | .error _ => []
  let texts ← paths.mapM fun path => return (path, ← readText path)
  let outcome := run env (fun path => (texts.lookup path).getD (.error .missing)) args
  (← IO.getStdout).putStr outcome.output
  (← IO.getStderr).putStr outcome.errors
  return .ofNat outcome.code
