import XrpLedger.Demo

/-!
# The program

Runs the demonstration on the environment of the process.
-/

open XrpLedger

/-- The settings of the process. -/
def settings : IO Demo.Environment := do
  let names :=
    ["SECRET_STR", "ADDRESS", "DESTINATION", "AMOUNT_DROPS", "FEE_DROPS", "SEQUENCE"]
  let found ← names.filterMapM fun name => do
    let value ← IO.getEnv name
    return value.map fun text => (name, text)
  return fun name => (found.find? fun entry => entry.1 == name).map Prod.snd

/-- Prints the lines of a run and returns its exit code. -/
def main : IO UInt32 := do
  let env ← settings
  let outcome := Demo.run env
  for line in outcome.lines do
    IO.println line
  match outcome.ending with
  | .finished => pure ()
  | .refused e => IO.eprintln ("Error: " ++ e.message)
  | .aborted reason => IO.eprintln reason
  return outcome.ending.exitCode.toUInt32
