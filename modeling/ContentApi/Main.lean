import ContentApi.CommandLine

/-!
# The program

Reads the arguments and the file that they name, and prints the report.
-/

open ContentApi.CommandLine

/-- Prints a report and gives its exit code. -/
def printReport (report : Report) : IO UInt32 := do
  IO.print report.output
  IO.eprint report.errors
  return UInt32.ofNat report.exitCode

/-- Reads the file that a command needs. -/
def readNeeded (command : Command) : IO (Except String String) := do
  match command.settingsPath? with
  | none => return .ok ""
  | some path =>
      try
        return .ok (← IO.FS.readFile path)
      catch failure =>
        return .error failure.toString

/-- Answers the request that the arguments describe. -/
def main (arguments : List String) : IO UInt32 := do
  match Command.ofArguments {} arguments with
  | none => printReport .misuse
  | some command => printReport (report (← readNeeded command) command)
