import Pageweave.Command.Invocation
/-!
# Help

What the tool prints about itself, and why it refuses a command line.
-/
namespace Pageweave

def programName : String := "hxview"

def versionText : String := programName ++ " 0.1.0\n"

def helpText : String :=
  "Render, inspect and hot-reload server-side templates\n\n" ++
    "Usage: hxview [OPTIONS] <COMMAND>\n\n" ++
    "Commands:\n" ++
    "  render <TEMPLATE>  Render a template to stdout\n" ++
    "  list               List available templates and the provider serving each one\n" ++
    "  eject <NAMES>      Copy bundled components into the project template directory\n" ++
    "  watch              Watch the template directory and report invalidated templates\n\n" ++
    "Options:\n" ++
    "  -v, --verbose        Enable verbose output\n" ++
    "  -q, --quiet          Only report errors\n" ++
    "  -c, --config <FILE>  Path to the configuration file\n" ++
    "  -p, --project <DIR>  Project directory containing the template root\n" ++
    "  -h, --help           Print help\n" ++
    "  -V, --version        Print version\n"

def UsageFault.message : UsageFault → String
  | .showHelp => helpText
  | .showVersion => versionText
  | .noCommand => helpText
  | .missingCommand => "error: a command is required\n"
  | .unknownCommand => "error: unrecognized command\n"
  | .unknownArgument => "error: unexpected argument\n"
  | .missingArgument => "error: a required argument is missing\n"
  | .conflict => "error: arguments cannot be used together\n"
  | .wrongValue => "error: an option has no possible value\n"
  | .malformedValue => "error: an option needs a whole number\n"
  | .surplusValue => "error: an option takes no value\n"

end Pageweave
