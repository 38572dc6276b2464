import TextEditor.Json.Reader
import TextEditor.Json.Writer
import TextEditor.Telemetry.Call

/-!
# Reports for other programs

The JSON form of the calls on a log: the logger, what is called, and the arguments.
-/

namespace TextEditor

/-- The choice and what was chosen. -/
def LogChoice.named : LogChoice → String × Json
  | .minLevel level => ("with_min_level", .str level.name.toUpper)
  | .console on => ("with_console_output", .bool on)
  | .colored on => ("with_colored_output", .bool on)
  | .json on => ("with_json_format", .bool on)
  | .file path => ("with_file_output", ToJson.json path)
  | .buffering on => ("with_buffering", .bool on)
  | .bufferSize size => ("with_buffer_size", .int size)
  | .profiling on => ("with_profiling", .bool on)

/-- What is called, with the arguments. -/
def LoggerCall.parts : LoggerCall → List Json
  | .write level message data => [json (level.name ++ "_with"), json message, json data]
  | .addContext key value => [json "add_context", json key, json value]
  | .removeContext key => [json "remove_context", json key]
  | .startComponent name => [json "track_component", json name]
  | .endComponent name => [json "end_track_component", json name]
  | .startProfile name => [json "profile", json name]
  | .endProfile name => [json "end_profile", json name]

instance : ToJson LogCall :=
  ⟨fun
    | .choose choice =>
      let (name, value) := choice.named
      .arr [.str "config", .str name, value]
    | .openLogger name => json ["logger", name]
    | .on logger call => .arr (.str logger :: call.parts)⟩

/-- The data of a report from the fields of an object: bytes as the text that they encode, as far
as they do, and other values as texts. -/
def pairsOfJson (fields : List (Json.Literal × Json)) : Pairs :=
  fields.map fun (key, value) =>
    match value.field? "$bytes" with
    | some digits =>
      (key.shown, String.ofList (Utf8.decodeLossy (Json.hexBytes digits.text.toList)))
    | none => (key.shown, value.display)

end TextEditor
