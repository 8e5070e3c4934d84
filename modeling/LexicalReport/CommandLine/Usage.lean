import LexicalReport.CommandLine.Basic
import LexicalReport.Text.Field

/-! What the program says about itself and about command lines that it refuses. -/

namespace LexicalReport.CommandLine

def programName : String := "golex"

def programVersion : String := "0.1.0"

def versionLine : String :=
  programName ++ " " ++ programVersion ++ "\n"

def usage : String :=
  Text.lines [
    "Score grading helpers and a lexical analyzer for Go source",
    "",
    "Usage: golex [OPTIONS] <COMMAND>",
    "",
    "Commands:",
    "  average <SCORE1> <SCORE2>  Print the truncated integer average of two scores",
    "  grade <POINTS>             Print the grade label for a score",
    "  lex [OPTIONS] <PATH>       Tokenize a Go file or every Go file under a directory",
    "  schema                     Print the JSON schema of the JSON output",
    "  version                    Print version and build information",
    "  help [COMMAND]             Print this message",
    "",
    "Options of lex:",
    "      --format <FORMAT>      Output format: terminal or json",
    "      --no-log               Do not write a log file",
    "      --log-dir <DIRECTORY>  Directory for the log file",
    "      --user <USER>          User recorded in the log",
    "      --fail-on-error        Exit non-zero when any lexical error is found",
    "",
    "Options:",
    "  -v, --verbose              Emit debug diagnostics",
    "  -h, --help                 Print this message",
    "  -V, --version              Print version"]

namespace Refusal

def message : Refusal → String
  | helpWanted => "help is wanted"
  | versionWanted => "the version is wanted"
  | nothingGiven => "nothing is given"
  | missingCommand => "a command is missing"
  | unknownCommand => "unknown command"
  | unknownArgument => "unexpected argument"
  | missingArgument => "a required argument is missing"
  | malformedScore => "a score is not a whole number of sixty-four bits"
  | unusableValue => "an option or argument has no usable value"
  | conflict => "an argument is repeated or excludes another one"
  | surplusValue => "a value is given to an argument that takes none"

/-- What is printed in answer to a refused command line, apart from the mistake. -/
def answer : Refusal → String
  | helpWanted => usage
  | versionWanted => versionLine
  | _ => ""

end Refusal

end LexicalReport.CommandLine
