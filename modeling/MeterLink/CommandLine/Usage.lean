import MeterLink.CommandLine.Run

/-!
# Help

The texts that answer a wish for help or for the version, and arguments that are no invocation.
-/

namespace MeterLink.CommandLine

/-- The text of a name in capitals, which stands for a value. -/
def placeholder (name : String) : String :=
  "<" ++ name.toUpper ++ ">"

/-- A command with its arguments. -/
def CommandForm.usage (form : CommandForm) : String :=
  " ".intercalate <| form.name ::
    form.grammar.positionals.map (fun p => placeholder p.name) ++
    form.grammar.options.map (fun o => s!"--{o.name} {placeholder o.name}") ++
    form.grammar.switches.map (fun s => s!"[--{s}]")

/-- How the program is called. -/
def usageLine : String := "Usage: emop [OPTIONS] <COMMAND>"

def helpText : String :=
  "\n".intercalate <|
    ["Talk EMOP to Emlite smart meters", "", usageLine, "", "Commands:"] ++
    forms.map (fun form => "  " ++ form.usage) ++
    ["  help [COMMAND]", "", "Options:",
     "  -v, --verbose...     More log output (-v debug, -vv trace)",
     "      --config <FILE>  Settings file",
     "      --host <HOST>    Meter host",
     "      --port <PORT>    Meter port",
     "  -h, --help           Print help",
     "  -V, --version        Print version", ""]

def versionText : String := "emop 0.1.0\n"

/-- What is wrong with the arguments. -/
def UsageFault.message : UsageFault → String
  | .help => "help was asked for"
  | .nothingAsked => "nothing was asked for"
  | .version => "the version was asked for"
  | .impossibleValue => "a value is missing or not possible"
  | .unreadableValue => "a value cannot be read"
  | .unknownArgument => "unexpected argument"
  | .repeatedOption => "an argument cannot be used multiple times"
  | .unwantedValue => "a switch takes no value"
  | .unknownCommand => "unrecognized subcommand"
  | .missingCommand => "a subcommand is required"
  | .missingArgument => "required arguments were not provided"

/-- What the program leaves behind when the arguments are no invocation. -/
def Outcome.ofFault (fault : UsageFault) : Outcome :=
  match fault with
  | .help => ⟨fault.exitCode, helpText, none⟩
  | .version => ⟨fault.exitCode, versionText, none⟩
  | .nothingAsked => ⟨fault.exitCode, "", some ("nothing to do\n\n" ++ helpText)⟩
  | _ => ⟨fault.exitCode, "", some (s!"{fault.message}\n\n" ++ usageLine)⟩

end MeterLink.CommandLine
