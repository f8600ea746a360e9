import Std.Time
import TabKey.Program

namespace TabKey

def succeeds (action : IO Unit) : IO Bool := do
  match ← action.toBaseIO with
  | .ok () => return true
  | .error _ => return false

def timestamp : IO String := do
  return (← Std.Time.PlainDateTime.now).format "uuuu-MM-dd'T'HH:mm:ss.SSS"

def machine : Program.Host IO where
  read path := do
    match ← (IO.FS.readFile path).toBaseIO with
    | .ok text => return some text
    | .error _ => return none
  write path content := succeeds (IO.FS.writeFile path content)
  append path addition :=
    succeeds (IO.FS.withFile path .append fun handle => handle.putStr addition)
  print text := do (← IO.getStdout).putStr text
  complain line := IO.eprintln line
  now := timestamp

end TabKey

def main (args : List String) : IO UInt32 := do
  let status ← TabKey.Program.run TabKey.machine args
  return status.code.toUInt32
