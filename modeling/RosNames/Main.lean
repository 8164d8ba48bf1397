import RosNames.Cli.Command

/-!
# The executable

Hands the arguments and the setting for the log to the command and prints what it says.
-/

def main (args : List String) : IO UInt32 := do
  let setting ← IO.getEnv "RUST_LOG"
  let done := RosNames.Cli.command setting (args.map RosNames.Utf8.encode)
  (← IO.getStdout).putStr done.output
  done.notes.forM fun line => do (← IO.getStderr).putStrLn line
  return UInt32.ofNat done.status
