import SceneScript.CommandLine.Run

/-!
# The program

The command line on the files and the environment of the machine.
-/

namespace SceneScript.Machine

/-- What an error says about a path that was to be read, and that can be followed to its end or
not. -/
def entryOfError (reachable : Bool) : IO.Error → Entry
  | .noFileOrDirectory .. => .missing
  | .inappropriateType _ code _ => ofCode code
  | .noSuchThing .. => .missing
  | error => if reachable then .unreadable (toString error) else .unreachable (toString error)
where
  /-- A directory is found out when it is read, a file on the way before that. -/
  ofCode (code : UInt32) : Entry := if code = 21 then .directory else .throughFile

/-- The files of the machine. -/
def disk : Disk IO where
  entry path := do
    try return .file (← IO.FS.readBinFile path)
    catch error =>
      let reachable ← try discard (IO.FS.realPath path); pure true catch _ => pure false
      return entryOfError reachable error

/-- The environment of the process. -/
def environment : IO Environment := do
  let stderr ← IO.getStderr
  return {
    scene := ← IO.getEnv "SCENEC_SCENE"
    configHome := ← IO.getEnv "XDG_CONFIG_HOME"
    home := ← IO.getEnv "HOME"
    workingDirectory := toString (← IO.currentDir)
    terminal := ← stderr.isTty }

/-- Writes to the streams of the process.  The log goes to standard error. -/
def write : CommandLine.Output → IO Unit
  | .out text => do (← IO.getStdout).putStr text
  | .err text => do (← IO.getStderr).putStr text
  | .log line => do (← IO.getStderr).putStrLn line.text

/-- A run on this machine, and its exit code. -/
def run (args : List String) : IO UInt32 := do
  let outcome ← CommandLine.runArguments disk (← environment) args
  outcome.outputs.forM write
  if outcome.code = 2 then
    (← IO.getStderr).putStrLn
      "usage: scenec [-v] [--no-color] (parse [FILE] [-e FORM] | check FILE... | tokens [FILE])"
  return outcome.code.toUInt32

end SceneScript.Machine

/-- The program on this machine. -/
def main (args : List String) : IO UInt32 := SceneScript.Machine.run args
