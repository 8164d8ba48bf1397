import RosNames.Cli.Argument
import RosNames.Text.Terminal

/-!
# Why no name is checked

Arguments are refused for one of eight causes, or they ask for the help or the version. In either
case reading stops at once.
-/

namespace RosNames.Cli

inductive Refusal
  | invalidUtf8
  | missingKind
  | repeatedKind
  | unknownKind (value : String)
  | repeatedFlag (f : Flag)
  | surplusValue (option value : String)
  | unexpected (spelling : String)
  | missingNames
  deriving DecidableEq, Repr

namespace Refusal

/-- What is said of the cause. What the user wrote is quoted as a plain terminal would show it. -/
def text : Refusal → String
  | invalidUtf8 => "error: invalid UTF-8 was detected in one or more arguments"
  | missingKind => "error: a value is required for '--kind <KIND>' but none was supplied"
  | repeatedKind => "error: the argument '--kind <KIND>' cannot be used multiple times"
  | unknownKind value => "error: invalid value '" ++ Terminal.plain value ++ "' for '--kind <KIND>'"
  | repeatedFlag f => "error: the argument '--" ++ f.spelling ++ "' cannot be used multiple times"
  | surplusValue option value =>
    "error: unexpected value '" ++ Terminal.plain value ++ "' for '--" ++ option ++
      "' found; no more were expected"
  | unexpected spelling =>
    "error: unexpected argument '" ++ Terminal.plain spelling ++ "' found"
  | missingNames => "error: the following required arguments were not provided:"

/-- A refusal is told in one line, even if it quotes a line break. -/
def message (r : Refusal) : String := Terminal.firstLine r.text

end Refusal

inductive Stop
  | help
  | version
  | refused (r : Refusal)
  deriving DecidableEq, Repr

def helpText : String :=
  String.join (([
    "Check ROS 2 topic names, namespaces and node names",
    "",
    "Usage: rmw-z-names [OPTIONS] <NAMES>...",
    "",
    "Arguments:",
    "  <NAMES>...  ",
    "",
    "Options:",
    "  -k, --kind <KIND>     Grammar to check the names against [default: topic] " ++
      "[possible values: topic, namespace, node]",
    "      --json            Print one JSON object per name",
    "      --allow-too-long  Only warn about names that are valid but too long",
    "  -h, --help            Print help",
    "  -V, --version         Print version"]).map (· ++ "\n"))

def versionText : String := "rmw-z-names 0.1.0\n"

end RosNames.Cli
