import TextEditor.Text.DecimalDigit
import TextEditor.Text.Quoted

/-!
# Arguments of the command line

Each argument is a switch or a word.  A long switch may be cut short as long as it stays the only
one that begins so, and may carry its value behind an equals sign.  What looks like a negative
number or has a space in it is a word, and after two dashes everything is.
-/

namespace TextEditor.CommandLine

/-- The switches. -/
inductive Switch where
  | help
  | noServers
  | indentWidth
  | logPreset
  | version
  deriving DecidableEq, Repr

namespace Switch

def longName : Switch → String
  | .help => "--help"
  | .noServers => "--no-lsp"
  | .indentWidth => "--indent-width"
  | .logPreset => "--log-preset"
  | .version => "--version"

/-- The names of the switch as messages give them. -/
def displayName : Switch → String
  | .help => "-h/--help"
  | switch => switch.longName

def all : List Switch :=
  [.help, .noServers, .indentWidth, .logPreset, .version]

/-- Whether the switch has a value. -/
def hasValue : Switch → Bool
  | .indentWidth | .logPreset => true
  | _ => false

end Switch

/-- What is wrong with a command line. -/
inductive Refusal where
  | ambiguous (argument : String) (candidates : List String)
  | valueExpected (switch : Switch)
  | valueIgnored (switch : Switch) (value : String)
  | notInteger (value : String)
  | notPreset (value : String) (presets : List String)
  | unrecognized (arguments : List String)
  deriving DecidableEq, Repr

namespace Refusal

/-- A text in quotes. -/
def inQuotes (text : String) : String :=
  String.ofList (Text.Quoted.encode text.toList)

def about (switch : Switch) (text : String) : String :=
  s!"argument {switch.displayName}: {text}"

def message : Refusal → String
  | .ambiguous argument candidates =>
    s!"ambiguous option: {argument} could match " ++ ", ".intercalate candidates
  | .valueExpected switch => about switch "expected one argument"
  | .valueIgnored switch value => about switch ("ignored explicit argument " ++ inQuotes value)
  | .notInteger value => about .indentWidth ("invalid int value: " ++ inQuotes value)
  | .notPreset value presets =>
    let choices := ", ".intercalate (presets.map inQuotes)
    about .logPreset s!"invalid choice: {inQuotes value} (choose from {choices})"
  | .unrecognized arguments => "unrecognized arguments: " ++ " ".intercalate arguments

end Refusal

/-- One argument. -/
inductive Argument where
  | word (text : String)
  /-- Two dashes, after which all arguments are words. -/
  | separator
  /-- A long switch, perhaps with a value. -/
  | long (switch : Switch) (value : Option String)
  /-- The short switch for help, with what follows its letter. -/
  | shortHelp (tail : Text)
  | unknown (text : String)
  deriving DecidableEq, Repr

namespace Argument

/-- Whether a text looks like a negative number: a dash and digits, perhaps with a point before the
last of them.  One line break at the end does not count. -/
def isNegativeNumber (t : Text) : Bool :=
  let isDigit (c : Char) : Bool := (Text.decimalValue? c).isSome
  match if t.getLast? = some '\n' then t.dropLast else t with
  | '-' :: rest =>
    match rest.dropWhile isDigit with
    | [] => !rest.isEmpty
    | '.' :: fraction => !fraction.isEmpty && fraction.all isDigit
    | _ => false
  | _ => false

/-- The parts of a text before and after its first equals sign. -/
def splitAtEquals (t : Text) : Text × Option Text :=
  match t.dropWhile (· ≠ '=') with
  | [] => (t, none)
  | _ :: value => (t.takeWhile (· ≠ '='), some value)

/-- The argument of a text that is no switch. -/
def ofOther (t : Text) : Argument :=
  let text := String.ofList t
  if isNegativeNumber t || t.contains ' ' then .word text else .unknown text

/-- The argument of a text with two dashes in front and more behind them. -/
def ofLong (t : Text) : Except Refusal Argument :=
  let (name, value) := splitAtEquals t
  let value := value.map String.ofList
  match Switch.all.find? fun switch => switch.longName.toList = name with
  | some switch => .ok (.long switch value)
  | none =>
    match Switch.all.filter fun switch => name.isPrefixOf switch.longName.toList with
    | [] => .ok (ofOther t)
    | [switch] => .ok (.long switch value)
    | switches => .error (.ambiguous (String.ofList t) (switches.map Switch.longName))

/-- The argument of a text. -/
def ofText (t : Text) : Except Refusal Argument :=
  match t with
  | '-' :: '-' :: _ => ofLong t
  | '-' :: 'h' :: tail => .ok (.shortHelp tail)
  | '-' :: _ :: _ => .ok (ofOther t)
  | _ => .ok (.word (String.ofList t))

/-- The arguments of texts. -/
def ofTexts : List String → Except Refusal (List Argument)
  | [] => .ok []
  | text :: rest =>
    if text = "--" then .ok (.separator :: rest.map .word)
    else do
      let argument ← ofText text.toList
      return argument :: (← ofTexts rest)

end Argument

end TextEditor.CommandLine
