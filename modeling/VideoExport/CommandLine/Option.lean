import VideoExport.Text.Split

/-!
# Options of a command line

The words of a command line name options and give them values; words that do
neither name a command or are left to the command as they are. An option is
named in full after two dashes, with its value after an equals sign or in the
next word, or by a letter after one dash, where letters may be joined and a
value may follow its letter at once.

A value in a word of its own is looked at only when the next option comes, or
at the end: what is wrong with the words in between is found first.

* `Grammar`: the options and commands that are known at some place;
* `Scan.run`: the options that words name, up to the name of a command;
* `Grammar.finish`: the options of a whole line, if they go together.
-/

namespace VideoExport.CommandLine

/-- Why a command line is not carried out. -/
inductive UsageFault
  /-- A word or an option that is not known here. -/
  | unknownArgument
  /-- A value that is missing, or none of those that may be chosen. -/
  | invalidValue
  /-- A value that cannot be read. -/
  | unreadableValue
  /-- Options that exclude each other, or an option that is repeated. -/
  | conflict
  /-- An option that has to be there. -/
  | missingArgument
  /-- A value for an option that takes none. -/
  | needlessValue
  /-- The name of a command that does not exist. -/
  | unknownCommand
  /-- No command. -/
  | missingCommand
  /-- Nothing at all. -/
  | nothingGiven
  /-- A wish for help. -/
  | helpWanted
  /-- A wish for the version. -/
  | versionWanted
  deriving DecidableEq, Repr, Inhabited

/-- What reads the value of an option. -/
abbrev ValueReader (α : Type) := String → Except UsageFault α

/-- What an option is for. -/
inductive OptionRole
  /-- It shows help. -/
  | help
  /-- It shows the version. -/
  | version
  /-- It is there or not. -/
  | flag
  /-- It has a value, which is checked. Some values may begin with a dash. -/
  | value (check : String → Option UsageFault) (dashed : Bool)

/-- An option. It may fall back to the value of a variable of the environment. -/
structure OptionRule where
  long : String
  short : Option Char
  role : OptionRole
  fallback : Option String

namespace OptionRule

/-- The option that shows help. -/
def help : OptionRule := ⟨"help", some 'h', .help, none⟩

/-- The option that shows the version. -/
def version : OptionRule := ⟨"version", some 'V', .version, none⟩

/-- An option that is there or not. -/
def flag (long : String) : OptionRule := ⟨long, none, .flag, none⟩

/-- An option whose value can be read. -/
def value {α : Type} (long : String) (read : ValueReader α) : OptionRule :=
  { long
    short := none
    fallback := none
    role := .value (fun text => match read text with
      | .ok _ => none
      | .error fault => some fault) false }

/-- The same option with a letter. -/
def withShort (r : OptionRule) (c : Char) : OptionRule := { r with short := some c }

/-- The same option with a variable to fall back to. -/
def withVariable (r : OptionRule) (name : String) : OptionRule := { r with fallback := some name }

/-- The same option with values that may begin with a dash. -/
def dashed (r : OptionRule) : OptionRule :=
  match r.role with
  | .value check _ => { r with role := .value check true }
  | _ => r

/-- Whether the values of an option may begin with a dash. -/
def takesDashes (r : OptionRule) : Bool :=
  match r.role with
  | .value _ dashed => dashed
  | _ => false

end OptionRule

/-- What is known at some place of a command line: options; commands, which
    come with options of their own; whether further words are kept; and which
    options go together. -/
structure Grammar where
  options : List OptionRule
  commands : List String
  keepsWords : Bool
  /-- Options of which only one may be given. -/
  excludes : List (String × String)
  /-- Options that have to be given. -/
  demands : List String
  /-- Options that have to be given with another one. -/
  requires : List (String × String)

namespace Grammar

/-- The option of a name. -/
def long? (g : Grammar) (name : String) : Option OptionRule := g.options.find? (·.long == name)

/-- The option of a letter. -/
def short? (g : Grammar) (c : Char) : Option OptionRule := g.options.find? (·.short == some c)

end Grammar

/-- Where a value comes from; the later ones count more. -/
inductive Origin
  | environment
  | words
  deriving DecidableEq, Repr

/-- An option that is given, with its value if it has one. -/
structure GivenOption where
  name : String
  value : Option String
  origin : Origin
  deriving DecidableEq, Repr

/-- What a command line gives. -/
structure Given where
  options : List GivenOption
  words : List String
  deriving Repr

namespace Given

/-- The option of a name, if it is given. -/
def find? (gs : Given) (name : String) : Option GivenOption :=
  gs.options.find? (·.name == name)

/-- Whether an option is given. -/
def has (gs : Given) (name : String) : Bool := (gs.find? name).isSome

/-- The value of an option. -/
def value? {α : Type} (gs : Given) (name : String) (read : ValueReader α) : Option α :=
  match ((gs.find? name).bind (·.value)).map read with
  | some (.ok a) => some a
  | _ => none

end Given

/-! ## Reading words -/

/-- The words read so far. -/
structure Scan where
  /-- The options that are taken. -/
  options : List GivenOption
  /-- An option whose value is not looked at yet, or not even there. -/
  pending : Option (OptionRule × Option String)
  /-- Whether no more options come. -/
  isOver : Bool
  words : List String

namespace Scan

/-- No words. -/
def start : Scan := ⟨[], none, false, []⟩

/-- The option that waits for its value. -/
def awaiting? (s : Scan) : Option OptionRule :=
  match s.pending with
  | some (r, none) => some r
  | _ => none

/-- Whether the next word is a value, whatever it begins with. -/
def takesDashes (s : Scan) : Bool := s.awaiting?.any (·.takesDashes)

/-- The scan with one more option, which was not there before. -/
def add (s : Scan) (name : String) (value : Option String) : Except UsageFault Scan :=
  if s.options.any (·.name == name) then .error .conflict
  else .ok { s with options := s.options ++ [⟨name, value, .words⟩] }

/-- The scan with one more value. -/
def addValue (s : Scan) (r : OptionRule) (text : String) : Except UsageFault Scan := do
  let next ← s.add r.long (some text)
  match r.role with
  | .value check _ =>
    match check text with
    | some fault => throw fault
    | none => return next
  | _ => return next

/-- The scan once a waiting option has been looked at. -/
def settle (s : Scan) : Except UsageFault Scan :=
  match s.pending with
  | none => .ok s
  | some (_, none) => .error .invalidValue
  | some (r, some text) => { s with pending := none }.addValue r text

/-- The scan after a known option, with its value if that came along. -/
def meet (s : Scan) (r : OptionRule) (value : Option String) : Except UsageFault Scan :=
  match r.role, value with
  | .value _ _, some text => do (← s.settle).addValue r text
  | .value _ _, none => do return { (← s.settle) with pending := some (r, none) }
  | _, some _ => .error .needlessValue
  | .flag, none => do (← s.settle).add r.long none
  | .help, none => do
    let _ ← s.settle
    throw .helpWanted
  | .version, none => do
    let _ ← s.settle
    throw .versionWanted

/-- The scan after joined letters. What follows a letter that takes a value is
    the value, with or without an equals sign. -/
def letters (g : Grammar) (s : Scan) : List Char → Except UsageFault Scan
  | [] => .ok s
  | c :: cs =>
    match g.short? c with
    | none => .error .unknownArgument
    | some r =>
      match r.role, cs with
      | .value _ _, [] => s.meet r none
      | .value _ _, '=' :: cs => s.meet r (some (String.ofList cs))
      | .value _ _, cs => s.meet r (some (String.ofList cs))
      | _, cs => do letters g (← s.meet r none) cs

/-- The scan after a word that is no option and no value. -/
def plainWord (g : Grammar) (s : Scan) (word : String) : Except UsageFault Scan :=
  if g.keepsWords then do
    let s ← s.settle
    return { s with isOver := true, words := s.words ++ [word] }
  else if g.commands.isEmpty || (s.isOver && g.commands.contains word) then
    .error .unknownArgument
  else .error .unknownCommand

/-- The scan after a word that is no option: the value of one that waits, or a
    word on its own. -/
def takeWord (g : Grammar) (s : Scan) (word : String) : Except UsageFault Scan :=
  match s.awaiting? with
  | some r => .ok { s with pending := some (r, some word) }
  | none => s.plainWord g word

/-- The scan after a word that is not the name of a command. -/
def step (g : Grammar) (s : Scan) (word : String) : Except UsageFault Scan :=
  if s.isOver then s.plainWord g word
  else if s.takesDashes then s.takeWord g word
  else match word.toList with
    | ['-', '-'] => .ok { s with isOver := true }
    | '-' :: '-' :: named =>
      let (name, value) := match Text.Chars.cutAt? (· == '=') named with
        | some (name, value) => (name, some (String.ofList value))
        | none => (named, none)
      match g.long? (String.ofList name) with
      | some r => s.meet r value
      | none => if g.keepsWords then s.takeWord g word else .error .unknownArgument
    | '-' :: c :: cs =>
      if g.keepsWords && (c :: cs).any fun c => (g.short? c).isNone then s.takeWord g word
      else s.letters g (c :: cs)
    | _ => s.takeWord g word

/-- The scan after all words, or up to the name of a command, with that and the
    words behind it. -/
def run (g : Grammar) (s : Scan) :
    List String → Except UsageFault (Scan × Option (String × List String))
  | [] => .ok (s, none)
  | word :: rest =>
    if !s.isOver && s.awaiting?.isNone && g.commands.contains word then .ok (s, some (word, rest))
    else do run g (← s.step g word) rest

end Scan

namespace Grammar

/-- What is given by words and, where they say nothing, by the environment. -/
def withVariables (g : Grammar) (lookup : String → Option String) (given : List GivenOption) :
    Except UsageFault (List GivenOption) :=
  g.options.foldlM (fun given r =>
    if given.any (·.name == r.long) then .ok given
    else match r.fallback.bind lookup with
      | none => .ok given
      | some text =>
        match r.role with
        | .value check _ =>
          match check text with
          | some fault => .error fault
          | none => .ok (given ++ [⟨r.long, some text, .environment⟩])
        | _ => .ok given) given

/-- What all words give, with what the environment adds. -/
def gather (g : Grammar) (lookup : String → Option String) (s : Scan) :
    Except UsageFault Given := do
  let s ← s.settle
  return ⟨← g.withVariables lookup s.options, s.words⟩

/-- Whether the options that are given go together. -/
def check (g : Grammar) (gs : Given) : Except UsageFault Unit :=
  if g.excludes.any fun (a, b) => gs.has a && gs.has b then .error .conflict
  else if g.demands.any (!gs.has ·) || g.requires.any fun (a, b) => gs.has a && !gs.has b then
    .error .missingArgument
  else .ok ()

/-- What a whole line gives that names no command. -/
def finish (g : Grammar) (lookup : String → Option String) (words : List String) :
    Except UsageFault Given := do
  let (s, _) ← Scan.run g .start words
  let gs ← g.gather lookup s
  g.check gs
  return gs

end Grammar

end VideoExport.CommandLine
