import ShellExpansion.Command.Options

/-!
# Help

The texts that explain the command. Both forms show the value of the variable that sets the strict
option.
-/

namespace ShellExpansion.Command

/-- The version of the command. -/
def versionText : Text := "envsubst 0.1.0 (https://github.com/envsubst-rs/envsubst)\n".toList

/-- The usage line. -/
def usage : Text := "Usage: envsubst [OPTIONS]".toList

/-- The reference to the variable that sets the strict option. -/
def strictReference (env : Environment) : Text :=
  "[env: ".toList ++ strictVariable ++ ['='] ++ Utf8.repair ((env.bytes? strictVariable).getD [])
    ++ [']']

/-- Lines of text. -/
def lines (texts : List Text) : Text := texts.flatMap fun text => text ++ ['\n']

/-- The short help. -/
def shortHelp (env : Environment) : Text :=
  lines [
    "Substitutes environment variables in shell-style strings".toList,
    [],
    usage,
    [],
    "Options:".toList,
    "      --strict         Treat unset variables as unset rather than empty, so default operators apply ".toList
      ++ strictReference env,
    "      --config <FILE>  Path to configuration file (default: `~/.config/envsubst/config.toml`)".toList,
    "      --no-config      Don't load any configuration file".toList,
    "      --debug <EVENT>  Enable debug logging for classes of tracing events [possible values: expand, parse, pattern]".toList,
    "  -h, --help           Print help (see more with '--help')".toList,
    "  -V, --version        Print version".toList]

/-- The long help. -/
def longHelp (env : Environment) : Text :=
  lines [
    "envsubst reads standard input one line at a time, expands every $\x7bvar\x7d and $var".toList,
    "reference in it against the process environment, and writes the result to standard".toList,
    "output.".toList,
    [],
    "The bash parameter expansion operators are supported, including defaults ($\x7bv:-x\x7d),".toList,
    "substrings ($\x7bv:1:3\x7d), pattern trimming ($\x7bv#*.\x7d), replacement ($\x7bv/a/b\x7d) and case".toList,
    "conversion ($\x7bv^^\x7d). A literal dollar sign is written as $$.".toList,
    [],
    [],
    usage,
    [],
    "Options:".toList,
    "      --strict".toList,
    "          Treat unset variables as unset rather than empty, so default operators apply".toList,
    "          ".toList,
    "          ".toList ++ strictReference env,
    [],
    "      --config <FILE>".toList,
    "          Path to configuration file (default: `~/.config/envsubst/config.toml`)".toList,
    [],
    "      --no-config".toList,
    "          Don't load any configuration file".toList,
    [],
    "      --debug <EVENT>".toList,
    "          Enable debug logging for classes of tracing events".toList,
    [],
    "          Possible values:".toList,
    "          - expand:  Traces substitution evaluation".toList,
    "          - parse:   Traces the process of parsing input into a substitution tree".toList,
    "          - pattern: Traces pattern matching".toList,
    [],
    "  -h, --help".toList,
    "          Print help (see a summary with '-h')".toList,
    [],
    "  -V, --version".toList,
    "          Print version".toList]

end ShellExpansion.Command
