import TextEditor.CommandLine.Argument
import TextEditor.Telemetry.Config

/-!
# Reading the command line

The switches may stand anywhere; the paths are the first run of words.  Help and version end the
reading as soon as they are reached, and so does the first argument that is refused; arguments that
mean nothing are refused together at the end.
-/

namespace TextEditor.CommandLine

/-- What a command line asks for. -/
structure Options where
  paths : List String := []
  withoutServers : Bool := false
  indentWidth : Option Int := none
  logPreset : Option LogPreset := none
  deriving DecidableEq, Repr

/-- Why the program ends before it begins. -/
inductive Ending where
  | help
  | version
  | refused (refusal : Refusal)
  deriving DecidableEq, Repr

/-- How far the run of paths has come. -/
inductive PathRun where
  | ahead
  | going
  | over
  deriving DecidableEq, Repr

/-- What was read so far, and what meant nothing. -/
structure Progress where
  options : Options := {}
  run : PathRun := .ahead
  extras : List String := []
  deriving DecidableEq, Repr

namespace Progress

/-- A switch ends the run of paths. -/
def endRun (p : Progress) : Progress :=
  if p.run = .going then { p with run := .over } else p

/-- A word is a path, or nothing when the run of paths is over. -/
def word (p : Progress) (text : String) : Progress :=
  if p.run = .over then { p with extras := p.extras ++ [text] }
  else
    { p with run := .going, options := { p.options with paths := p.options.paths ++ [text] } }

/-- Two dashes belong to a run of paths without being one. -/
def separator (p : Progress) : Progress :=
  if p.run = .over then { p with extras := p.extras ++ ["--"] } else { p with run := .going }

def unknown (p : Progress) (text : String) : Progress :=
  { p.endRun with extras := p.extras ++ [text] }

/-- The presets that may be named. -/
def presetNames : List String :=
  LogPreset.all.map LogPreset.name

/-- Take the value of a switch that has one. -/
def take (p : Progress) (switch : Switch) (value : String) : Except Ending Progress :=
  match switch with
  | .indentWidth =>
    match Text.readInteger value.toList with
    | .error _ => .error (.refused (.notInteger value))
    | .ok width => .ok { p with options := { p.options with indentWidth := some width } }
  | .logPreset =>
    match LogPreset.all.find? fun preset => preset.name = value with
    | none => .error (.refused (.notPreset value presetNames))
    | some preset => .ok { p with options := { p.options with logPreset := some preset } }
  | _ => .ok p

/-- Take a switch that has no value. -/
def flip (p : Progress) : Switch → Except Ending Progress
  | .help => .error .help
  | .version => .error .version
  | .noServers => .ok { p with options := { p.options with withoutServers := true } }
  | _ => .ok p

/-- How the short switch for help ends, by what follows its letter.  It may be repeated; other
letters mean nothing, but it has no value. -/
def shortHelp : Text → Ending
  | [] => .help
  | 'h' :: '=' :: value => ignored value
  | 'h' :: tail => shortHelp tail
  | '=' :: value => ignored value
  | '-' :: value => ignored ('-' :: value)
  | _ => .help
where
  ignored (value : Text) : Ending :=
    .refused (.valueIgnored .help (String.ofList value))

/-- Read arguments. -/
def read (p : Progress) : List Argument → Except Ending Progress
  | [] => .ok p
  | .word text :: rest => (p.word text).read rest
  | .separator :: rest => p.separator.read rest
  | .unknown text :: rest => (p.unknown text).read rest
  | .shortHelp tail :: _ => .error (shortHelp tail)
  | .long switch (some value) :: rest =>
    if switch.hasValue then
      match p.endRun.take switch value with
      | .error ending => .error ending
      | .ok p => p.read rest
    else .error (.refused (.valueIgnored switch value))
  | .long switch none :: .word value :: rest =>
    if switch.hasValue then
      match p.endRun.take switch value with
      | .error ending => .error ending
      | .ok p => p.read rest
    else
      match p.endRun.flip switch with
      | .error ending => .error ending
      | .ok p => (p.word value).read rest
  | .long switch none :: rest =>
    if switch.hasValue then .error (.refused (.valueExpected switch))
    else
      match p.endRun.flip switch with
      | .error ending => .error ending
      | .ok p => p.read rest

end Progress

/-- What the arguments ask for, or why the program ends. -/
def readOptions (arguments : List String) : Except Ending Options :=
  match Argument.ofTexts arguments with
  | .error refusal => .error (.refused refusal)
  | .ok arguments =>
    match ({} : Progress).read arguments with
    | .error ending => .error ending
    | .ok p =>
      if p.extras.isEmpty then .ok p.options else .error (.refused (.unrecognized p.extras))

/-! ## What is said at the end -/

def programName : String := "keen"

def versionNumber : String := "0.1.0"

def usage : String :=
  "\n".intercalate
    ["usage: keen [-h] [--no-lsp] [--indent-width INDENT_WIDTH]",
      "            [--log-preset \x7bdevelopment,production,performance\x7d] [--version]",
      "            [paths ...]\n"]

def helpText : String :=
  usage ++
  "\n".intercalate
    ["",
      "Edit files with the keen terminal editor.",
      "",
      "positional arguments:",
      "  paths                 Files to open",
      "",
      "options:",
      "  -h, --help            show this help message and exit",
      "  --no-lsp              Do not start language servers",
      "  --indent-width INDENT_WIDTH",
      "                        Spaces per indent level (default: KEEN_INDENT_WIDTH or",
      "                        4)",
      "  --log-preset \x7bdevelopment,production,performance\x7d",
      "                        telelog preset to use instead of the KEEN_LOG_*",
      "                        environment",
      "  --version             show program's version number and exit\n"]

namespace Ending

def exitCode : Ending → Nat
  | .refused _ => 2
  | _ => 0

/-- What goes to the standard output. -/
def output : Ending → String
  | .help => helpText
  | .version => versionNumber ++ "\n"
  | .refused _ => ""

/-- What goes to the error output. -/
def complaint : Ending → String
  | .refused refusal => s!"{usage}{programName}: error: {refusal.message}\n"
  | _ => ""

end Ending

end TextEditor.CommandLine
