/-! # Help

The text that explains the command line.
-/
namespace Restyle.Args

def versionText : String := "clangfmt 0.1.0"

def helpLines : List String := [
  versionText,
  "",
  "Formats files with clang-format using the nearest .clang-format configuration.",
  "",
  "USAGE:",
  "    clangfmt <SUBCOMMAND> [OPTIONS] [--] [files]...",
  "",
  "SUBCOMMANDS:",
  "  fmt            Formats the files and writes the result to the file system.",
  "  check          Checks for any files that haven't been formatted.",
  "  style          Outputs the resolved clang-format style and editor settings for a file as JSON.",
  "  config-path    Outputs the path of the configuration file that applies to a file.",
  "  validate-path  Checks that a path points to a working clang-format executable.",
  "  version        Outputs the version.",
  "",
  "More details at `clangfmt help <SUBCOMMAND>`",
  "",
  "OPTIONS:",
  "  -c, --config <config>         Path to a JSON settings file.",
  "      --clang-format <path>     Path to the clang-format executable. Defaults to searching the PATH.",
  "      --timeout <milliseconds>  Maximum time a clang-format invocation may take.",
  "      --log-level <level>       Set log level: silent, error, warn, info, debug",
  "      --verbose                 Prints additional diagnostic information. Same as --log-level=debug",
  "",
  "ENVIRONMENT VARIABLES:",
  "  CLANG_FORMAT_PATH  Path to the clang-format executable to use instead of",
  "                     searching the PATH.",
  "",
  "EXAMPLES:",
  "  Format files in place:",
  "",
  "    clangfmt fmt src/main.cpp src/lib.h",
  "",
  "  Check for files that haven't been formatted:",
  "",
  "    clangfmt check src/main.cpp",
  "",
  "  Format stdin and write the result to stdout:",
  "",
  "    clangfmt fmt --stdin src/main.cpp < src/main.cpp",
  "",
  "  Output the style clang-format uses for a file:",
  "",
  "    clangfmt style src/main.cpp"]

def helpText : String := String.join (helpLines.map (· ++ "\n"))

end Restyle.Args
