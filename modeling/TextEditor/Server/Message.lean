import TextEditor.History.Delta
import TextEditor.Json.Basic
import TextEditor.Json.Shape
import TextEditor.Server.Uri

/-!
# Messages to a server

The JSON-RPC messages of the part of the language server protocol that the editor speaks: start,
documents and their changes, semantic tokens, and the answers to a server's own requests.
-/

namespace TextEditor.Server

namespace Method

def start : String := "initialize"
def started : String := "initialized"
def didOpen : String := "textDocument/didOpen"
def didChange : String := "textDocument/didChange"
def semanticTokens : String := "textDocument/semanticTokens/full"
def configuration : String := "workspace/configuration"

end Method

/-- What a request asked for, by which its answer is understood. -/
inductive RequestKind where
  | start (path : String)
  | tokens (uri : String) (version : Int)
  deriving DecidableEq, Repr

namespace RequestKind

/-- The method of the request. -/
def method : RequestKind → String
  | .start _ => Method.start
  | .tokens _ _ => Method.semanticTokens

end RequestKind

namespace Message

/-- The member that carries the parameters, if there are any. -/
def params (value : Option Json) : List (Json.Literal × Json) :=
  match value with
  | some v => [("params", v)]
  | none => []

def request (id : Int) (method : String) (parameters : Option Json) : Json :=
  .obj (("jsonrpc", .str "2.0") :: ("id", .int id) :: ("method", .str method) :: params parameters)

def notification (method : String) (parameters : Option Json) : Json :=
  .obj (("jsonrpc", .str "2.0") :: ("method", .str method) :: params parameters)

def response (id result : Json) : Json :=
  .obj [("jsonrpc", .str "2.0"), ("id", id), ("result", result)]

/-- The encodings that the editor can count columns in. -/
def encodings : Json :=
  .strings [Encoding.utf32.name, Encoding.utf16.name]

/-- Capabilities that one server understands besides those of the protocol. -/
def extraCapabilities (server : String) : List (Json.Literal × Json) :=
  if server = "clangd" then [("offsetEncoding", encodings)] else []

/-- Options that one server takes when it starts. -/
def startOptions (server : String) : List (Json.Literal × Json) :=
  if server = "clangd" then
    [("initializationOptions", .obj [("clangdFileStatus", .bool true)])]
  else []

/-- The capabilities of the editor. -/
def capabilities (server : String) : Json :=
  .obj
    (("general", .obj [("positionEncodings", encodings)]) ::
      ("textDocument",
        .obj
          [("synchronization",
              .obj [("didSave", .bool false), ("dynamicRegistration", .bool false)]),
            ("semanticTokens",
              .obj
                [("requests", .obj [("full", .bool true)]), ("tokenTypes", .arr []),
                  ("tokenModifiers", .arr []), ("formats", .strings ["relative"])])]) ::
      extraCapabilities server)

/-- The parameters with which a server is started; an empty root is none. -/
def startParams (server : String) (root : Option String) : Json :=
  let rootUri :=
    match root with
    | some path => if path.isEmpty then .null else .str (Uri.ofPath path)
    | none => .null
  .obj
    (("processId", .int 0) :: ("clientInfo", .obj [("name", .str "Keen")]) ::
      ("rootUri", rootUri) :: ("capabilities", capabilities server) :: startOptions server)

/-- The encoding that an answer to the start chooses; UTF-16 unless it names another known one. -/
def negotiatedEncoding (result : Json) : Except ShapeFault Encoding :=
  match result with
  | .obj _ => do
    let capabilities := (← result.member "capabilities").orEmpty
    let chosen ← capabilities.member "positionEncoding"
    let chosen ← if chosen.truthy then pure chosen else result.member "offsetEncoding"
    match chosen with
    | .str (.whole name) => return (Encoding.ofName? name).getD .utf16
    | _ => return .utf16
  | _ => .ok .utf16

/-- The names of token types that an answer to the start gives, as far as it does. -/
def tokenTypes (result : Json) : Except ShapeFault (List String) :=
  match result with
  | .obj _ => do
    let capabilities := (← result.member "capabilities").orEmpty
    let provider := (← capabilities.member "semanticTokensProvider").orEmpty
    let legend := (← provider.member "legend").orEmpty
    let names ← (← legend.member "tokenTypes").itemsOrNone
    return names.map Json.display
  | _ => .ok []

def started : Json :=
  notification Method.started (some (.obj []))

def didOpenParams (uri language : String) (text : Text) (version : Int) : Json :=
  .obj
    [("textDocument",
      .obj
        [("uri", .str uri), ("languageId", .str language), ("version", .int version),
          ("text", .str (String.ofList text))])]

def didOpen (uri language : String) (text : Text) (version : Int) : Json :=
  notification Method.didOpen (some (didOpenParams uri language text version))

def position (p : Position) : Json :=
  .obj [("line", .int p.line), ("character", .int p.column)]

/-- A change that replaces all of the text. -/
def fullChange (text : Text) : Json :=
  .obj [("text", .str (String.ofList text))]

/-- A change that replaces the range of a delta. -/
def rangeChange (delta : Delta) (encoding : Encoding) : Json :=
  let (start, stop) := delta.range encoding
  .obj
    [("range", .obj [("start", position start), ("end", position stop)]),
      ("text", .str (String.ofList delta.text))]

/-- Changes of which each applies to the result of the one before. -/
def didChangeParams (uri : String) (version : Int) (changes : List Json) : Json :=
  .obj
    [("textDocument", .obj [("uri", .str uri), ("version", .int version)]),
      ("contentChanges", .arr changes)]

def didChange (uri : String) (version : Int) (changes : List Json) : Json :=
  notification Method.didChange (some (didChangeParams uri version changes))

def semanticTokensParams (uri : String) : Json :=
  .obj [("textDocument", .obj [("uri", .str uri)])]

/-- The least answer to a request of the server that lets it go on: nothing, or as many nothings as
it asked for items of the configuration. -/
def reply (message : Json) : Except ShapeFault Json := do
  let method ← message.member "method"
  let parameters := (← message.member "params").orEmpty
  let id ← message.member "id"
  match method with
  | .str (.whole name) =>
    if name = Method.configuration then
      let items ← (← parameters.member "items").itemsOrNone
      return response id (.arr (items.map fun _ => .null))
    else return response id .null
  | _ => return response id .null

end Message

end TextEditor.Server
