import TextEditor.Text.Integer
import TextEditor.Text.Lowercase

/-!
# Settings

The choices that every open document shares, their defaults, and their overrides from the
environment.  An override that cannot be read, or is below its minimum, leaves the default.
-/

namespace TextEditor

/-- An opening bracket and the closing one that belongs to it. -/
structure BracketPair where
  opening : Text
  closing : Text
  deriving DecidableEq, Repr, Inhabited

namespace BracketPair

/-- Round, square and curly brackets. -/
def standard : List BracketPair :=
  [⟨['('], [')']⟩, ⟨['['], [']']⟩, ⟨['{'], ['}']⟩]

/-- The first pair that the text opens. -/
def opened? (pairs : List BracketPair) (t : Text) : Option BracketPair :=
  pairs.find? fun pair => t = pair.opening

/-- The first pair that the text closes. -/
def closed? (pairs : List BracketPair) (t : Text) : Option BracketPair :=
  pairs.find? fun pair => t = pair.closing

end BracketPair

/-- What a setting may not be. -/
inductive SettingsFault where
  | indentWidth
  | queueSize
  | maxMessageSize
  deriving DecidableEq, Repr

def SettingsFault.message : SettingsFault → String
  | .indentWidth => "indent_width must be positive"
  | .queueSize => "lsp_queue_size must be positive"
  | .maxMessageSize => "lsp_max_message_size must be positive"

/-- The choices that every open document shares. -/
structure Settings where
  indentWidth : Nat := 4
  indentWidth_pos : 0 < indentWidth := by decide
  brackets : List BracketPair := BracketPair.standard
  /-- Lines that one step of the mouse wheel scrolls. -/
  wheelLines : Int := 3
  /-- Half a period of the blinking caret, in milliseconds. -/
  blinkMilliseconds : Int := 500
  /-- The line break of a document that has none. -/
  lineEnding : Text := ['\r', '\n']
  serversEnabled : Bool := true
  /-- How many server messages may wait. -/
  queueSize : Nat := 256
  queueSize_pos : 0 < queueSize := by decide
  /-- The longest server message that is read, in bytes. -/
  maxMessageSize : Nat := 1024 * 1024
  maxMessageSize_pos : 0 < maxMessageSize := by decide
  /-- The language server of each language. -/
  servers : List (String × String) := [("cpp", "clangd"), ("rust", "rust-analyzer")]

/-- The settings of a user who chooses nothing. -/
def Settings.usual : Settings := {}

instance : Inhabited Settings := ⟨Settings.usual⟩

/-- The variables of an environment. -/
abbrev Environment := List (String × String)

/-- The value of a variable of the editor, whose names share a beginning. -/
def Environment.editor? (env : Environment) (name : String) : Option String :=
  env.lookup ("KEEN_" ++ name)

/-- Whether a flag is set; a text other than the four that mean yes is a no. -/
def Environment.flag (env : Environment) (name : String) (fallback : Bool) : Bool :=
  match env.editor? name with
  | none => fallback
  | some raw =>
    ["1", "true", "yes", "on"].contains (String.ofList (Text.lowercase raw.toList))

/-- A number of at least `minimum`. -/
def Environment.number (env : Environment) (name : String) (minimum fallback : Int) : Int :=
  match env.editor? name with
  | none => fallback
  | some raw =>
    match Text.readInteger raw.toList with
    | .error _ => fallback
    | .ok value => if minimum ≤ value then value else fallback

/-- A positive number. -/
def Environment.positive (env : Environment) (name : String) (fallback : Nat) : Nat :=
  (env.number name 1 fallback).toNat

namespace Settings

/-- One level of indentation. -/
def indentUnit (s : Settings) : Text :=
  List.replicate s.indentWidth ' '

/-- The settings with another indent width, which has to be positive. -/
def withIndentWidth (s : Settings) (width : Int) : Except SettingsFault Settings :=
  if h : 0 < width then
    .ok { s with indentWidth := width.toNat, indentWidth_pos := by omega }
  else .error .indentWidth

/-- The settings with another queue size, which has to be positive. -/
def withQueueSize (s : Settings) (size : Int) : Except SettingsFault Settings :=
  if h : 0 < size then .ok { s with queueSize := size.toNat, queueSize_pos := by omega }
  else .error .queueSize

/-- The settings with another limit on messages, which has to be positive. -/
def withMaxMessageSize (s : Settings) (size : Int) : Except SettingsFault Settings :=
  if h : 0 < size then
    .ok { s with maxMessageSize := size.toNat, maxMessageSize_pos := by omega }
  else .error .maxMessageSize

/-- The server of a language. -/
def server? (s : Settings) (language : String) : Option String :=
  s.servers.lookup language

/-- The line break of that name in an environment. -/
def lineEndingNamed? (name : String) : Option Text :=
  match String.ofList (Text.lowercase name.toList) with
  | "crlf" => some ['\r', '\n']
  | "lf" => some ['\n']
  | "cr" => some ['\r']
  | _ => none

theorem positive_pos (env : Environment) (name : String) {fallback : Nat} (h : 0 < fallback) :
    0 < env.positive name fallback := by
  unfold Environment.positive Environment.number
  split
  · omega
  · split
    · omega
    · split <;> omega

/-- The settings that an environment asks for. -/
def ofEnvironment (env : Environment) : Settings :=
  { indentWidth := env.positive "INDENT_WIDTH" 4
    indentWidth_pos := positive_pos env _ (by decide)
    wheelLines := env.number "MOUSEWHEEL_LINES" 1 3
    blinkMilliseconds := env.number "CARET_BLINK_MS" 1 500
    lineEnding := ((env.editor? "LINE_ENDING").bind lineEndingNamed?).getD ['\r', '\n']
    serversEnabled := env.flag "LSP_ENABLED" true
    queueSize := env.positive "LSP_QUEUE_SIZE" 256
    queueSize_pos := positive_pos env _ (by decide)
    maxMessageSize := env.positive "LSP_MAX_MESSAGE_SIZE" (1024 * 1024)
    maxMessageSize_pos := positive_pos env _ (by decide)
    servers :=
      [("cpp", (env.editor? "LSP_CPP").getD "clangd"),
        ("rust", (env.editor? "LSP_RUST").getD "rust-analyzer")] }

@[simp]
theorem length_indentUnit (s : Settings) : s.indentUnit.length = s.indentWidth := by
  simp [indentUnit]

end Settings

end TextEditor
