import BugReport.CommandLine.Session
import Std.Time.DateTime.Timestamp

/-!
# The program

Gives a session its surroundings: the files of the system and its clock. No database engine belongs to
this program, so that every database which exists fails to open.
-/

namespace BugReport.CommandLine

/-- What stands at a path of the system. A path through something that is no directory cannot be
opened and leads nowhere, while a directory opens but cannot be read. -/
def systemFile (path : String) : IO FileState := do
  try
    let content ← IO.FS.readBinFile path
    match String.fromUTF8? content with
    | some text => return .text text
    | none => return .unreadable
  catch
    | .noFileOrDirectory .. => return .absent
    | .inappropriateType (some _) .. => return .absent
    | _ => return .unreadable

/-- The surroundings of a session on the system. -/
def systemSurroundings : Surroundings IO where
  file := systemFile
  connector := fun _ => return {
    connect := .error (.connectionFailed "no database engine is available")
    execute := fun _ _ => .ok [] }
  now := return (← Std.Time.Timestamp.now).toSecondsSinceUnixEpoch.val

end BugReport.CommandLine

/-- Runs the command line. -/
def main (args : List String) : IO UInt32 := do
  let outcome ← BugReport.CommandLine.run BugReport.CommandLine.systemSurroundings args
  (← IO.getStdout).putStr outcome.output
  (← IO.getStderr).putStr outcome.errors
  return outcome.code.toUInt32
