import TextEditor.Buffer.Basic
import TextEditor.Highlight.Semantic
import TextEditor.Json.Parser
import TextEditor.Server.Fleet

/-!
# Sessions of servers

The hub joins open buffers with language servers.  Each language has one session at most, with the
client of its server and the documents that the server is told of.  A document is announced when
its server is ready, its changes follow, and the semantic tokens that the server sends for its
present version are kept with it.
-/

namespace TextEditor.Server

/-- A buffer that a server is told of. -/
structure TrackedDocument where
  /-- The number of the buffer. -/
  buffer : Nat
  uri : String
  version : Int := 0
  /-- Whether the server was told to open it. -/
  opened : Bool := false
  tokens : List SemanticToken := []
  tokensVersion : Int := -1

/-- The server of one language and its documents. -/
structure Session where
  language : String
  /-- The number of the client. -/
  client : Nat
  legend : List String := []
  encoding : Encoding := .utf16
  documents : Table TrackedDocument := []

/-- The open buffers, the sessions, and the processes that they talk to. -/
structure Hub where
  settings : Settings
  root : Option String
  fleet : Fleet
  sessions : Table Session := []
  /-- The buffers by their numbers, closed ones included. -/
  buffers : List Buffer := []
  /-- Whether crashes are noted for someone to look at. -/
  notesCrashes : Bool := true
  /-- The crashes that were noted: client and reason. -/
  crashes : List (String × String) := []

namespace Hub

/-! ## Parts -/

/-- Add a report. -/
def report (h : Hub) (level : Level) (name : String) (data : Pairs) : Hub :=
  { h with fleet := h.fleet.report level name data }

/-- Add reports that were made elsewhere. -/
def collect (h : Hub) (entries : Journal) : Hub :=
  { h with fleet := { h.fleet with journal := h.fleet.journal ++ entries } }

/-- A step on the processes. -/
def onFleet {α : Type} (step : Step Fleet α) : Step Hub α :=
  Step.zoom Hub.fleet (fun h fleet => { h with fleet }) step

/-- Change one buffer. -/
def alterBuffer (h : Hub) (id : Nat) (change : Buffer → Buffer) : Hub :=
  { h with buffers := h.buffers.modify id change }

/-- Change the session of a language. -/
def alterSession (h : Hub) (language : String) (change : Session → Session) : Hub :=
  match h.sessions.find? language with
  | none => h
  | some session => { h with sessions := h.sessions.put language (change session) }

/-- Change a document of a session. -/
def alterDocument (h : Hub) (language uri : String) (change : TrackedDocument → TrackedDocument) :
    Hub :=
  h.alterSession language fun s =>
    match s.documents.find? uri with
    | none => s
    | some document => { s with documents := s.documents.put uri (change document) }

/-- A document of a session. -/
def document? (h : Hub) (language uri : String) : Option TrackedDocument :=
  (h.sessions.find? language).bind fun s => s.documents.find? uri

/-- How far the server of a session has come. -/
def stateOf (h : Hub) (s : Session) : ClientState :=
  h.fleet.stateOf s.client

def isReady (h : Hub) (s : Session) : Bool :=
  h.stateOf s = .ready

/-- The first session whose client has the given name. -/
def sessionOfClient? (h : Hub) (name : String) : Option Session :=
  h.sessions.values.find? fun s => h.fleet.nameOf s.client = name

/-- The address of a buffer. -/
def uriOf (b : Buffer) : String :=
  Uri.ofPath b.path

/-- Let no server follow the buffers of documents. -/
def release (h : Hub) (documents : List TrackedDocument) : Hub :=
  documents.foldl (fun h document => h.alterBuffer document.buffer Buffer.untrack) h

/-- The document that a buffer is told of by. -/
def documentFor (h : Hub) (b : Buffer) : Option TrackedDocument :=
  h.document? b.language (uriOf b)

/-! ## Telling the server -/

/-- Write to the server of a session; a message that cannot be written is reported and dropped. -/
def guarded (s : Session) (step : Step Fleet Unit) : Step Hub Bool := do
  match ← Step.attempt (onFleet step) with
  | .ok () => return true
  | .error (.write fault) =>
    modify fun h =>
      h.report .error "lsp.write_failed"
        [("language", s.language), ("client", fault.client), ("method", fault.method),
          ("reason", fault.message)]
    return false
  | .error fault => throw fault

/-- Ask for the tokens of a document. -/
def requestTokens (s : Session) (document : TrackedDocument) : Step Hub Unit := do
  let _ ← guarded s do
    let _ ← Fleet.sendTokensRequest s.client document.uri document.version
  return ()

/-- Tell the server of a document with its present text, and follow the buffer from there on. -/
def announce (s : Session) (uri : String) : Step Hub Unit := do
  let some document := (← get).document? s.language uri | return ()
  modify fun h => h.alterBuffer document.buffer Buffer.track
  let some b := (← get).buffers[document.buffer]? | return ()
  let opened ← guarded s (Fleet.sendDidOpen s.client uri b.language b.text document.version)
  if opened then
    modify fun h => h.alterDocument s.language uri fun d => { d with opened := true }
    requestTokens s document

/-- Tell the server of the changes of a document since the last time; whether there were any and it
was told. -/
def syncDocument (s : Session) (uri : String) : Step Hub Bool := do
  let some document := (← get).document? s.language uri | return false
  let some b := (← get).buffers[document.buffer]? | return false
  let changes := b.changes
  modify fun h => h.alterBuffer document.buffer fun b => b.drainChanges.2
  if changes.isEmpty || !document.opened then return false
  let document := { document with version := document.version + 1 }
  modify fun h => h.alterDocument s.language uri fun d => { d with version := document.version }
  let payload := changes.map fun delta => Message.rangeChange delta s.encoding
  let sent ← guarded s (Fleet.sendDidChange s.client uri document.version payload)
  if sent then requestTokens s document
  return sent

/-- Tell the servers that are ready of all changes; how many documents had some. -/
def syncChanges : Step Hub Nat := do
  let h ← get
  h.sessions.values.foldlM (fun total s => do
    if h.isReady s then
      s.documents.foldlM (fun total entry => do
        let sent ← syncDocument s entry.1
        return if sent then total + 1 else total) total
    else return total) 0

/-! ## Sessions and documents -/

/-- Start the server of a language for a document.  A server that does not start is reported, and
there is no session then. -/
def startSession (language path : String) : Step Hub (Option Session) := do
  let h ← get
  match h.settings.server? language with
  | none => return none
  | some "" => return none
  | some server =>
    let spawned ← Step.attempt
      (onFleet (Fleet.spawn server [] h.root path h.settings.maxMessageSize))
    let failed (reason : String) : Step Hub (Option Session) := do
      modify fun h =>
        h.report .warning "lsp.spawn_failed"
          [("language", language), ("server", server), ("reason", reason)]
      return none
    match spawned with
    | .ok client =>
      let session : Session := { language, client }
      modify fun h => { h with sessions := h.sessions.put language session }
      return some session
    | .error (.write fault) => failed fault.message
    | .error (.pipe fault) =>
      match fault.kind with
      | .system _ => failed fault.message
      | _ => throw (.pipe fault)
    | .error fault => throw fault

/-- The session that a buffer belongs to, started if there is none or its server stopped; the
documents of the stopped one go over to it. -/
def sessionFor (b : Buffer) : Step Hub (Option Session) := do
  let h ← get
  let old := h.sessions.find? b.language
  match old with
  | some s => if (h.stateOf s).isAlive then return some s
  | none => pure ()
  let some session ← startSession b.language b.path | return none
  let documents := (old.map Session.documents).getD []
  modify fun h =>
    h.alterSession b.language fun s =>
      { s with documents := s.documents.putAll documents, legend := b.profile.tokenTypes }
  return some session

/-- Have the server of its language follow a buffer; whether it does. -/
def openDocument (id : Nat) : Step Hub (Option TrackedDocument) := do
  let h ← get
  let some b := h.buffers[id]? | return none
  if !h.settings.serversEnabled then return none
  if (h.settings.server? b.language).isNone then return none
  let some session ← sessionFor b | return none
  let document : TrackedDocument := { buffer := id, uri := uriOf b }
  modify fun h =>
    (h.alterSession b.language fun s =>
      { s with documents := s.documents.put document.uri document }).alterBuffer id Buffer.track
  if (← get).isReady session then announce session document.uri
  return (← get).document? b.language document.uri

/-- Have no server follow a buffer. -/
def closeDocument (h : Hub) (id : Nat) : Hub :=
  match h.buffers[id]? with
  | none => h
  | some b =>
    let uri := uriOf b
    let sessions := h.sessions.map fun entry =>
      (entry.1, { entry.2 with documents := entry.2.documents.erase uri })
    { h with sessions }.alterBuffer id Buffer.untrack

/-- Replace the server of a language by a new one, which its documents go over to; whether there
was one with documents and the new one starts. -/
def restart (language : String) : Step Hub Bool := do
  let h ← get
  let old := h.sessions.find? language
  modify fun h => { h with sessions := h.sessions.erase language }
  let some old := old | return false
  let some first := old.documents.values.head? | return false
  modify fun h => { h with fleet := h.fleet.terminate old.client }
  let some b := h.buffers[first.buffer]? | return false
  let some session ← startSession language b.path
    | do
      modify fun h => h.release old.documents.values
      return false
  let documents := old.documents.map fun entry =>
    (entry.1, { entry.2 with opened := false, tokens := [], tokensVersion := -1 })
  modify fun h =>
    h.alterSession session.language fun s =>
      { s with legend := b.profile.tokenTypes, documents := s.documents.putAll documents }
  modify fun h => h.report .info "lsp.restart" [("language", language)]
  return true

/-- Stop all servers. -/
def shutdown (h : Hub) : Hub :=
  let stopped := h.sessions.values.foldl
    (fun h s => { h with fleet := h.fleet.terminate s.client }.release s.documents.values) h
  { stopped with sessions := [] }

/-! ## Hearing from the server -/

/-- A server ended: its documents are not followed any more, unless its successor took over. -/
def handleCrash (h : Hub) (client reason : String) : Hub :=
  let session := h.sessionOfClient? client
  let released :=
    match session with
    | some s => if h.stateOf s = ClientState.crashed then h.release s.documents.values else h
    | none => h
  let language := (session.map Session.language).getD ""
  let reported := released.report .error "lsp.session_lost"
    [("client", client), ("language", language), ("reason", reason)]
  if reported.notesCrashes then
    { reported with crashes := reported.crashes ++ [(client, reason)] }
  else reported

/-- The server is started: what it said of itself holds from now on, and it is told of the
documents. -/
def handleStarted (s : Session) (result : Json) : Step Hub Unit := do
  let legend ← Step.ofExcept .shape (Message.tokenTypes result)
  if !legend.isEmpty then
    modify fun h => h.alterSession s.language fun s => { s with legend }
  let encoding ← Step.ofExcept .shape (Message.negotiatedEncoding result)
  modify fun h =>
    { h.alterSession s.language fun s => { s with encoding } with
      fleet := h.fleet.modifyClient s.client Client.markReady }
  let h ← get
  let some s := h.sessions.find? s.language | return ()
  modify fun h =>
    h.report .info "lsp.ready"
      [("client", h.fleet.nameOf s.client), ("legend", toString s.legend.length),
        ("encoding", s.encoding.name)]
  if ← guarded s (Fleet.sendStarted s.client) then
    s.documents.forM fun entry => announce s entry.1

/-- The server sent the tokens of a document.  Those of an earlier version are dropped. -/
def handleTokens (s : Session) (uri : String) (version : Int) (result : Json) : Step Hub Unit := do
  let stale : Step Hub Unit :=
    modify fun h =>
      h.report .debug "lsp.stale_tokens" [("uri", uri), ("version", toString version)]
  match s.documents.find? uri with
  | none => stale
  | some document =>
    if document.version ≠ version then stale
    else
      let data ←
        match result with
        | .obj _ => Step.ofExcept .shape ((result.member "data").bind Json.itemsOrNone)
        | _ => pure []
      let tokens ← Step.ofExcept .shape (SemanticToken.decode s.legend data)
      modify fun h =>
        (h.alterDocument s.language uri fun d =>
          { d with tokens, tokensVersion := d.version }).alterBuffer document.buffer fun b =>
            { b with dirty := true }

/-- A value as reports show it, if there is room to show it. -/
def shown (value : Json) : Step Hub String := do
  if (← get).fleet.nesting.reported < value.nesting 1 then throw .nesting
  return value.display

/-- The server answered a request. -/
def handleAnswer (s : Session) (client : String) (message : Json) : Step Hub Unit := do
  let id := (message.field? "id").getD .null
  let some number := id.whole? | return ()
  let (kind, fleet) := (← get).fleet.popRequest s.client number
  modify fun h => { h with fleet }
  let some kind := kind | return ()
  match message.field? "error" with
  | some error =>
    let error := error.orEmpty
    let part (name : String) : Step Hub String := do
      let value ← Step.ofExcept .shape (error.member name)
      if (error.field? name).isSome then shown value else return ""
    let code ← part "code"
    let text ← part "message"
    modify fun h =>
      h.report .warning "lsp.error"
        [("client", client), ("id", id.display), ("code", code), ("message", text)]
  | none =>
    let result := (message.field? "result").getD .null
    match kind with
    | .start _ => handleStarted s result
    | .tokens uri version => handleTokens s uri version result

/-- The server sent an object: a request, a notification or an answer. -/
def handleMessage (s : Session) (client : String) (message : Json) : Step Hub Unit := do
  match message.field? "method" with
  | some method =>
    if (message.field? "id").isSome then
      let _ ← guarded s (Fleet.sendResponse s.client message)
    else
      let method ← shown method
      modify fun h =>
        h.report .debug "lsp.notification_received" [("client", client), ("method", method)]
  | none => handleAnswer s client message

/-- Why a body holds no value that can be read. -/
inductive BodyFault where
  /-- There is no room for its lists and objects. -/
  | nesting
  | invalid (reason : String)

/-- The JSON value that a body holds, read with the given room. -/
def readBody (payload : Bytes) (room : Option Nat := none) : Except BodyFault Json :=
  match Utf8.decode payload with
  | .error defect => .error (.invalid defect.message)
  | .ok text =>
    match Json.parse text room with
    | .error defect =>
      if defect.cause = .nesting then .error .nesting
      else .error (.invalid (defect.message text))
    | .ok value => .ok value

/-- A body arrived from a server. -/
def handleResponse (client : String) (payload : Bytes) : Step Hub Unit := do
  let h ← get
  let some s := h.sessionOfClient? client | return ()
  match readBody payload (some h.fleet.nesting.read) with
  | .error .nesting => throw .nesting
  | .error (.invalid reason) =>
    modify fun h =>
      h.report .warning "lsp.invalid_json" [("client", client), ("reason", reason)]
  | .ok (.obj fields) => handleMessage s client (.obj fields)
  | .ok _ => return ()

/-- Take one event off the queue and handle it. -/
def handleNext : Step Hub Unit := do
  match (← get).fleet.queue with
  | [] => return ()
  | event :: rest =>
    modify fun h => { h with fleet := { h.fleet with queue := rest } }
    match event with
    | .crash client reason => modify fun h => h.handleCrash client reason
    | .response client payload => handleResponse client payload

/-- Handle all events of the queue; how many there were. -/
def drain : Step Hub Nat := do
  let count := (← get).fleet.queue.length
  (List.range count).forM fun _ => handleNext
  return count

/-- The spans of the tokens of a buffer that show in its view. -/
def semanticSpans (h : Hub) (b : Buffer) : Except ShapeFault (List Span) :=
  match h.sessions.find? b.language, h.documentFor b with
  | some session, some document =>
    SemanticToken.spans document.tokens b.document b.viewport.start b.viewport.stop session.encoding
  | _, _ => .ok []

end Hub

end TextEditor.Server
