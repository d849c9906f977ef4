import Cascade.CommandLine

/-!
# The program

Gives the command line its arguments and files.
-/

open Cascade

/-- Runs the program. -/
def main (arguments : List String) : IO UInt32 := do
  let readFile (path : Text) : IO (Option (List UInt8)) := do
    try
      return some (← IO.FS.readBinFile (String.ofList path)).toList
    catch _ => return none
  let outcome ← CommandLine.execute readFile (arguments.map String.toList)
  IO.print (String.ofList outcome.output)
  if !outcome.complaint.isEmpty then IO.eprintln (String.ofList outcome.complaint)
  return UInt32.ofNat outcome.code
