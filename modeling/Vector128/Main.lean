/-
The program: writes the report of its arguments and exits with its code.
-/
import Vector128.Command

def main (args : List String) : IO UInt32 := do
  let report := Vector128.Command.runArgs args
  IO.print report.stdout
  IO.eprint report.stderr
  return UInt32.ofNat report.exit
