import Lookout.Command.Run
import Std.Time.DateTime.Timestamp

/-!
# The command line

`lookout ARGUMENTS` runs one command. Previews of patterns need no server; a command that asks the
server fails where no way to reach it is built in.
-/

namespace Lookout.Command

/-- What is told to a user whose arguments are refused. -/
def UsageError.text : UsageError → String
  | .help | .nothingGiven => "commands: trigger, pattern, status"
  | .noCommand => "a command is missing"
  | .unknownCommand => "unrecognized command"
  | .unknownArgument => "unexpected argument"
  | .missingArgument => "a required argument is missing"
  | .missingValue => "an option is missing its value"
  | .surplusValue => "an option takes no value"
  | .repeatedOption => "an option is given twice"
  | .badValue reason => "invalid value: " ++ reason

/-- What the program ends with after a failure. -/
def Failure.exitCode : Failure → UInt32
  | .capacity => 101
  | _ => 1

/-- An exchange in which no request is answered. -/
def unreachable : Http.Exchange IO := fun r =>
  return .error ("no connection to " ++ r.address)

/-- The present time. -/
def presentTime : IO Instant := do
  let stamp ← Std.Time.Timestamp.now
  return (Instant.ofWholeSeconds? stamp.toSecondsSinceUnixEpoch.val).getD Instant.epoch

/-- Runs a command and prints its lines. -/
def runProgram (args : List String) : IO UInt32 := do
  let user ← IO.getEnv "USER"
  let address ← IO.getEnv "DATAWATCH_SERVER_URL"
  match Invocation.ofArguments user address args with
  | .error e =>
    IO.eprintln ("error: " ++ e.text)
    return 2
  | .ok invocation =>
    match ← invocation.run unreachable (← presentTime) with
    | .error e =>
      IO.eprintln ("Error: " ++ e.message)
      return e.exitCode
    | .ok lines =>
      for line in lines do IO.println line
      return 0

end Lookout.Command

/-- Runs the command line. -/
def main (args : List String) : IO UInt32 :=
  Lookout.Command.runProgram args
