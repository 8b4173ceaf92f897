import FlowCanvas.Command.Run

/-!
# The program

The run is planned from the arguments, the input that the plan needs is fetched, and the outcome is
printed.
-/

namespace FlowCanvas

/-- The number of a system error, which may come with its sign turned. -/
def errorNumber (code : UInt32) : Nat := min code.toNat (-code).toNat

/-- Why the system does not give what is asked of it. -/
def unreadable : IO.Error → Unreadable
  | .noFileOrDirectory .. => .missing
  | .inappropriateType _ code _ => if errorNumber code = 21 then .directory else .notDirectory
  | e@(.invalidArgument _ code _) =>
    if errorNumber code = 36 then .longName else .refused (toString e)
  | e => .refused (toString e)

/-- Fetches the bytes that an action reads. -/
def fetch (action : IO ByteArray) : IO Input := do
  try
    return .ok (← action)
  catch e => return .error (unreadable e)

/-- Fetches a file, or the standard input. -/
def inputOf : Option String → IO Input
  | none => do fetch (← IO.getStdin).readBinToEnd
  | some path => fetch (IO.FS.readBinFile path)

/-- Carries out a plan. -/
def Plan.perform : Plan → IO Outcome
  | .finish outcome => return outcome
  | .withInput file outcome => return outcome (← inputOf file)

end FlowCanvas

/-- Runs the program on its arguments. -/
def main (arguments : List String) : IO UInt32 := do
  let outcome ← (FlowCanvas.Plan.ofArguments arguments).perform
  (← IO.getStdout).putStr outcome.stdout
  (← IO.getStderr).putStr outcome.stderr
  return outcome.exit.toUInt32
