import TextEditor.Fault
import TextEditor.Json.Reader
import TextEditor.Json.Writer
import TextEditor.Keymap.Registry
import TextEditor.Language.Profile

/-!
# Choices of the user

The JSON form of what a user can choose: settings, the profile of a language, key strokes and what
they are bound to.  A choice that is not made is the usual one; settings and keys that cannot be
had are refused.
-/

namespace TextEditor

open Json (item)

instance : OfJson BracketPair := ⟨fun j => ⟨item j.items 0, item j.items 1⟩⟩

instance : ToJson BracketPair := ⟨fun pair => json (pair.opening, pair.closing)⟩

/-- The brackets that an object names, or the usual ones. -/
def BracketPair.chosen (j : Json) : List BracketPair :=
  if j.has "brackets" then j.key "brackets" else standard

/-- Names and texts of an object. -/
def textFields (j : Json) : List (String × String) :=
  j.fields.map fun (name, value) => (name.shown, value.text)

/-- The settings that an object asks for. -/
def Settings.ofJson (j : Json) : Except SettingsFault Settings := do
  let chosen : Settings :=
    { usual with
      brackets := BracketPair.chosen j
      wheelLines := j.key "mousewheel_lines" (.int usual.wheelLines)
      blinkMilliseconds := j.key "caret_blink_ms" (.int usual.blinkMilliseconds)
      lineEnding := j.key "default_line_ending" (json usual.lineEnding)
      serversEnabled := j.key "lsp_enabled" (.bool true)
      servers := ((j.field? "lsp_servers").map textFields).getD usual.servers }
  let chosen ← chosen.withIndentWidth (j.key "indent_width" (.nat usual.indentWidth))
  let chosen ← chosen.withQueueSize (j.key "lsp_queue_size" (.nat usual.queueSize))
  chosen.withMaxMessageSize (j.key "lsp_max_message_size" (.nat usual.maxMessageSize))

/-- The indentation unit is left out where it would be long. -/
instance : ToJson Settings :=
  ⟨fun s =>
    .obj
      [("indent_width", json s.indentWidth),
        ("indent_unit", if s.indentWidth < 1000 then json s.indentUnit else .null),
        ("brackets", json s.brackets),
        ("mousewheel_lines", json s.wheelLines),
        ("caret_blink_ms", json s.blinkMilliseconds),
        ("default_line_ending", json s.lineEnding),
        ("lsp_enabled", json s.serversEnabled),
        ("lsp_queue_size", json s.queueSize),
        ("lsp_max_message_size", json s.maxMessageSize),
        ("lsp_servers", .obj (s.servers.map fun (name, server) => (.whole name, json server)))]⟩

/-- The profile that an object describes, or the one of a name; C and C++ if there is neither. -/
def Profile.ofJson : Json → Except Fault Profile
  | .obj fields => do
    let j := Json.obj fields
    let name : String := j.key "language" (.str "plain")
    let language ← (Language.ofIdentifier? name).elim (.error (.unknownLanguage name)) .ok
    return {
      language
      extensions := j.key "extensions"
      keywords := j.key "keywords"
      lineComment := j.key "line_comment" (.str "//")
      blockComment := j.key "block_comment" (.strings ["/*", "*/"])
      stringQuote := j.key "string_quote" (.str "\"")
      escapeChar := j.key "escape_char" (.str "\\")
      directiveStart := j.key "preprocessor_prefix" }
  | .str name => .ok (ofIdentifier name.shown)
  | _ => .ok cpp

instance : ToJson Profile :=
  ⟨fun p =>
    .obj
      [("identifier", json p.identifier),
        ("server", json p.server),
        ("line_comment", json p.lineComment),
        ("block_comment", json p.blockComment),
        ("string_quote", json p.stringQuote),
        ("escape_char", json p.escapeChar),
        ("preprocessor_prefix", json p.directiveStart),
        ("extensions", json (p.extensions.mergeSort fun a b => a ≤ b)),
        ("legend", json p.tokenTypes)]⟩

/-- A stroke is a token, or a key with its modifiers and its text. -/
def Stroke.ofJson : Json → Except KeymapFault Stroke
  | .str token => parse token.shown
  | j => make (item j.items 0) (item j.items 1) (item j.items 2)

/-- An action of the host: its identifier, whether it can be run, its name in reports and its
description. -/
def Action.ofJson (j : Json) : Except KeymapFault Action :=
  make (item j.items 0) none (item j.items 2) (item j.items 3) (item j.items 1 (.bool true))

instance : ToJson Action := ⟨fun a => json [a.id, a.telemetryName, a.description]⟩

/-- A binding: its identifier, the stroke, the action, a description and where it comes from.  A
stroke that is no token is looked at first. -/
def Binding.ofJson (j : Json) : Except KeymapFault Binding := do
  let bound (stroke : Except KeymapFault Stroke) : Except KeymapFault Binding :=
    make (item j.items 0) stroke (item j.items 2) (item j.items 3) (item j.items 4)
  match j.items[1]?.getD .null with
  | .str token => bound (Stroke.parse token.shown)
  | parts => bound (.ok (← Stroke.ofJson parts))

instance : ToJson Binding :=
  ⟨fun b => .arr [json b.id, json b.token, json b.actionId, json b.description, json b.source]⟩

end TextEditor
