import VideoExport.CommandLine.Arguments

/-!
# Help

What is told to those who ask how to call the program, and to those whose
command line is not understood.

* `overview`: the commands and the options for all of them;
* `UsageFault.message`: what is wrong with a command line.
-/

namespace VideoExport.CommandLine

/-- The name and the version of the program. -/
def versionText : String := "clipbridge 0.1.0"

/-- The commands in words. -/
def commandTexts : List (String × String) := [
  ("compile", "Compile export settings into directive tokens"),
  ("parse", "Parse directive tokens back into settings"),
  ("check", "Resolve and validate tracks without converting"),
  ("export", "Run an export to a file"),
  ("subtitles", "Preview the cues of one subtitle track"),
  ("presets", "List the named encoder presets")]

/-- Every command is explained. -/
theorem commandTexts_names : commandTexts.map (·.1) = commandNames := rfl

/-- An option as it is written. -/
def optionText (r : OptionRule) : String :=
  let short := match r.short with
    | some c => "-" ++ String.ofList [c] ++ ", "
    | none => "    "
  let value := match r.role with
    | .value _ _ => " <VALUE>"
    | _ => ""
  short ++ "--" ++ r.long ++ value

/-- How to call the program. -/
def overview : String :=
  let commands := commandTexts.map fun (name, text) => "  " ++ Text.padRight 11 name ++ text
  let options := mainGrammar.options.map fun r => "  " ++ optionText r
  String.intercalate "\n" <|
    ["Usage: clipbridge [OPTIONS] <COMMAND>", "", "Commands:"] ++ commands ++ ["", "Options:"] ++
      options

/-- How to call a command. -/
def commandOverview (name : String) : String :=
  String.intercalate "\n" <|
    [s!"Usage: clipbridge {name} [OPTIONS]", "", "Options:"] ++
      (grammarOf name).options.map fun r => "  " ++ optionText r

/-- What is wrong with a command line, in words. -/
def UsageFault.message : UsageFault → String
  | unknownArgument => "unexpected argument found"
  | invalidValue => "a value is missing or is none of the possible ones"
  | unreadableValue => "invalid value for an argument"
  | conflict => "arguments cannot be used together or more than once"
  | missingArgument => "required arguments were not provided"
  | needlessValue => "unexpected value for an argument"
  | unknownCommand => "unrecognized subcommand"
  | missingCommand => "a subcommand is required but was not provided"
  | nothingGiven | helpWanted => overview
  | versionWanted => versionText

/-- The words that ask for help or for the version are answered, not refused. -/
def UsageFault.isRequest : UsageFault → Bool
  | helpWanted | versionWanted => true
  | _ => false

end VideoExport.CommandLine
