import AssessmentPlans.Command.Arguments
import AssessmentPlans.Command.Run

/-! A whole run of the program, from its arguments to its exit code. -/
namespace AssessmentPlans

/-- How the program is used, in short. -/
def usage : String :=
  "Usage: complytime [OPTIONS] <COMMAND>\n\nCommands:\n" ++
  "  plan      Generate an assessment plan\n" ++
  "  tailor    Tailor the workspace plan to a scope configuration\n" ++
  "  validate  Validate the workspace plan\n" ++
  "  list      List available frameworks\n\nOptions:\n" ++
  "  -w, --workspace <WORKSPACE>    [default: ./complytime]\n" ++
  "      --bundle-dir <BUNDLE_DIR>\n" ++
  "  -d, --debug\n" ++
  "      --output <OUTPUT>          [default: text] [possible values: text, json]\n" ++
  "  -h, --help\n" ++
  "  -V, --version\n"

/-- What the user is told about refused arguments. -/
def Refusal.reason : Refusal → String
  | .help | .version _ | .nothingGiven => ""
  | .missingCommand => "error: a command is required\n\n"
  | .unknownCommand => "error: unrecognized command\n\n"
  | .unknownArgument => "error: unexpected argument found\n\n"
  | .missingArgument => "error: the framework id is missing\n\n"
  | .invalidValue => "error: a value is missing or invalid\n\n"
  | .surplusValue => "error: a value was not expected\n\n"
  | .repeated => "error: an argument cannot be used twice\n\n"

/-- Answers arguments that lead to no command. What was asked for is output, and
anything else is told beside it. -/
def Refusal.answer : Refusal → Program Unit
  | .help => (Program.perform (.print usage)).bind fun _ => .done ()
  | .version command =>
    (Program.perform (.print (versionText command ++ "\n"))).bind fun _ => .done ()
  | refusal => Program.perform (.tell (refusal.reason ++ usage))

/-- Runs the program. The answer is its exit code. -/
def session (launch : Launch) (args : List String) : Program Nat := do
  match Invocation.ofArguments launch.valueOf? args with
  | .error refusal =>
    refusal.answer
    return refusal.exitCode
  | .ok invocation =>
    match ← ExceptT.run (invocation.run launch) with
    | .ok () => return 0
    | .error fault =>
      Program.perform (.tell ("Error: " ++ fault.message))
      return 1

end AssessmentPlans
