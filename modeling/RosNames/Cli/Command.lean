import RosNames.Cli.Check
import RosNames.Log.Filter

/-!
# The command as a whole

From the arguments and the setting for the log to what the command prints and the status with which
it exits: 0 if no name was rejected, 1 if some was, 2 if the arguments were refused.
-/

namespace RosNames.Cli

structure Completion where
  status : Nat
  output : String
  notes : List String
  deriving DecidableEq, Repr

def logTarget : String := "rmw_z_names"

def logLines (f : Log.Filter) (events : List Event) : List String :=
  (events.filter fun e => f.shows logTarget e).map fun e =>
    e.level.label ++ " " ++ logTarget ++ ": " ++ e.text

def Completion.ofStop : Stop → Completion
  | .help => ⟨0, helpText, []⟩
  | .version => ⟨0, versionText, []⟩
  | .refused r => ⟨2, "", [r.message]⟩

/-- A run that was interrupted exits with a status of its own. -/
def Completion.ofRun (f : Log.Filter) : Except Interruption Summary → Completion
  | .ok t => ⟨if 0 < t.rejected then 1 else 0, t.output, logLines f t.events⟩
  | .error i => ⟨101, i.output, logLines f i.events ++ [Interruption.message]⟩

def command (logSetting : Option String) (args : List Bytes) : Completion :=
  match Settings.ofArguments args with
  | .error stop => .ofStop stop
  | .ok s => .ofRun (.ofSetting logSetting) s.run

end RosNames.Cli
