import CodeSmells.Command.Arguments

/-!
# Help texts
-/

namespace CodeSmells
namespace Help

/-- Lines with line ends. -/
def lines (all : List String) : String :=
  String.join (all.map fun line => line ++ "\n")

/-- The help of the program. -/
def overview : String :=
  lines
    ["Code smell detection over pre-parsed source contexts",
     "",
     "Usage: smellguard <COMMAND>",
     "",
     "Commands:",
     "  analyze  Examine context dumps for code smells",
     "  list     List all available detectors",
     "  init     Generate a default .smellguard.toml config file",
     "  help     Print this message or the help of the given subcommand(s)",
     "",
     "Options:",
     "  -h, --help     Print help",
     "  -V, --version  Print version"]

def ofCommand : CommandName → String
  | .analyze => lines
      ["Examine context dumps for code smells",
       "",
       "Usage: smellguard analyze [OPTIONS] <PATH>",
       "",
       "Arguments:",
       "  <PATH>  Path to a .json context dump or a directory containing them",
       "",
       "Options:",
       "  -f, --format <FORMAT>            Output format (default: from config, else text) " ++
         "[possible values: text, json]",
       "  -s, --smell-types <SMELL_TYPES>  Run only these smell types (comma-separated)",
       "  -c, --config <CONFIG>            Path to config file (default: .smellguard.toml)",
       "  -q, --quiet                      Suppress banner and summary",
       "      --no-color                   Disable colored output",
       "  -h, --help                       Print help"]
  | .list => lines
      ["List all available detectors",
       "",
       "Usage: smellguard list",
       "",
       "Options:",
       "  -h, --help  Print help"]
  | .init => lines
      ["Generate a default .smellguard.toml config file",
       "",
       "Usage: smellguard init [OPTIONS] [PATH]",
       "",
       "Arguments:",
       "  [PATH]  Where to write the config file [default: .smellguard.toml]",
       "",
       "Options:",
       "      --force  Overwrite an existing file",
       "  -h, --help   Print help"]

/-- The help of the word that asks for help. -/
def ofHelpWord : String :=
  lines
    ["Print this message or the help of the given subcommand(s)",
     "",
     "Usage: smellguard help [COMMAND]...",
     "",
     "Arguments:",
     "  [COMMAND]...  Print help for the subcommand(s)"]

def text : HelpTopic → String
  | .program => overview
  | .command name => ofCommand name
  | .helpWord => ofHelpWord

/-- What a wrong command line is answered with. -/
def usageError : String :=
  lines
    ["error: the command line is not valid",
     "",
     "Usage: smellguard <COMMAND>",
     "",
     "For more information, try '--help'."]

end Help
end CodeSmells
