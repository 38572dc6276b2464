import TextEditor.Fault
import TextEditor.Journal

/-!
# Processes, clients and their queue

The processes that were started, each with its client, and the bounded queue that their readers
fill.  The host writes and stops; each reader takes one message after the other off the output of
its process and posts it when the queue has room.
-/

namespace TextEditor.Server

/-- How many values may lie in one another where they are taken apart by calls that lie in one
another.  There is room for a thousand calls, less those that lead to the place.  The names of token
types need none of their own: they lie six deep in a body that could be read. -/
structure Nesting where
  /-- Lists and objects of a body that is read. -/
  read : Nat := 993
  /-- Lists and objects of an answer that is written. -/
  written : Nat := 988
  /-- Values in a value that is reported. -/
  reported : Nat := 991
  /-- Values in the method of a request that is answered. -/
  named : Nat := 994

/-- All connections, by the numbers of their processes, and what they share. -/
structure Fleet where
  /-- What the next starts lead to; after them all goes well. -/
  plans : List SpawnPlan := []
  connections : List Connection := []
  queue : List Event := []
  /-- How many events the queue holds. -/
  capacity : Nat
  /-- Everything that was written, with the number of the process it went to. -/
  deliveries : List (Nat × Bytes) := []
  /-- What was reported and not collected yet. -/
  journal : Journal := []
  nesting : Nesting := {}

namespace Fleet

/-- Add a report. -/
def report (f : Fleet) (level : Level) (name : String) (data : Pairs) : Fleet :=
  { f with journal := f.journal ++ [.event level name data] }

/-- Change one connection. -/
def alter (f : Fleet) (id : Nat) (change : Connection → Connection) : Fleet :=
  { f with connections := f.connections.modify id change }

/-- Change one client. -/
def modifyClient (f : Fleet) (id : Nat) (change : Client → Client) : Fleet :=
  f.alter id fun c => { c with client := change c.client }

/-- Change one process. -/
def modifyProcess (f : Fleet) (id : Nat) (change : Subprocess → Subprocess) : Fleet :=
  f.alter id fun c => { c with process := change c.process }

def client? (f : Fleet) (id : Nat) : Option Client :=
  f.connections[id]?.map Connection.client

/-- How far the server of a client has come; one that is not there was terminated. -/
def stateOf (f : Fleet) (id : Nat) : ClientState :=
  ((f.client? id).map Client.state).getD .terminated

/-! ## Writing -/

/-- Why a message cannot be written to a connection, if it cannot. -/
def writeFault? (c : Connection) (method : String) : Option Fault :=
  if !c.process.hasInput || !c.client.state.isAlive then
    some (.write ⟨c.client.name, method, .notRunning c.client.state⟩)
  else
    match c.process.inputFault with
    | none => none
    | some fault =>
      if fault.isExpected then some (.write ⟨c.client.name, method, .failed fault⟩)
      else some (.pipe fault)

/-- The fleet after bytes arrived at a process. -/
def deliver (f : Fleet) (id : Nat) (data : Bytes) : Fleet :=
  let f := f.modifyProcess id fun p => { p with received := p.received ++ [data] }
  { f with deliveries := f.deliveries ++ [(id, data)] }

/-- Write a message in its frame. -/
def write (id : Nat) (message : Json) (method : String) : Step Fleet Unit := do
  let f ← get
  match f.connections[id]? with
  | none => throw (.write ⟨"", method, .notRunning .terminated⟩)
  | some c =>
    match writeFault? c method with
    | some fault => throw fault
    | none => set (f.deliver id (Frame.encodeJson message))

/-- The name of a client. -/
def nameOf (f : Fleet) (id : Nat) : String :=
  ((f.client? id).map Client.name).getD ""

/-- Send a request and remember what it asked for; its number is the answer. -/
def sendRequest (id : Nat) (method : String) (params : Option Json) (kind : RequestKind) :
    Step Fleet Nat := do
  let number := (((← get).client? id).map Client.nextId).getD 0
  write id (Message.request number method params) method
  modify fun f =>
    (f.modifyClient id (·.sent kind)).report .debug "lsp.request"
      [("client", f.nameOf id), ("method", method), ("id", toString number)]
  return number

def sendNotification (id : Nat) (method : String) (params : Option Json := none) :
    Step Fleet Unit := do
  write id (Message.notification method params) method
  modify fun f =>
    f.report .debug "lsp.notification" [("client", f.nameOf id), ("method", method)]

/-- The answer to a request of the server, if it can be put into a message and its method can be
named. -/
def answerTo (room : Nesting) (message : Json) : Except Fault Json :=
  match Message.reply message with
  | .error fault => .error (.shape fault)
  | .ok answer =>
    if room.written < answer.nesting 0 then .error .nesting
    else if !answer.isWhole then .error .halves
    else if room.named < ((message.field? "method").getD .null).nesting 1 then .error .nesting
    else .ok answer

/-- Answer a request of the server. -/
def sendResponse (id : Nat) (message : Json) : Step Fleet Unit := do
  let answer ← Step.ofExcept (fun fault => fault) (answerTo (← get).nesting message)
  let method := ((message.field? "method").map Json.display).getD ""
  write id answer method

/-- Ask the server to start; `path` is the document it is started for. -/
def sendStart (id : Nat) (path : String) : Step Fleet Nat := do
  let c := (← get).client? id
  let root := c.bind Client.root
  let name := (c.map Client.name).getD ""
  sendRequest id Method.start (some (Message.startParams name root)) (.start path)

def sendStarted (id : Nat) : Step Fleet Unit :=
  sendNotification id Method.started (some (.obj []))

def sendDidOpen (id : Nat) (uri language : String) (text : Text) (version : Int := 0) :
    Step Fleet Unit :=
  sendNotification id Method.didOpen (some (Message.didOpenParams uri language text version))

def sendDidChange (id : Nat) (uri : String) (version : Int) (changes : List Json) :
    Step Fleet Unit :=
  sendNotification id Method.didChange (some (Message.didChangeParams uri version changes))

def sendTokensRequest (id : Nat) (uri : String) (version : Int := 0) : Step Fleet Nat :=
  sendRequest id Method.semanticTokens (some (Message.semanticTokensParams uri))
    (.tokens uri version)

/-! ## Matching and stopping -/

/-- What the request of a number asked for, once. -/
def popRequest (f : Fleet) (id : Nat) (number : Int) : Option RequestKind × Fleet :=
  match f.client? id with
  | none => (none, f)
  | some c =>
    let (kind, c) := c.pop number
    (kind, f.modifyClient id fun _ => c)

/-- Stop a server on purpose. -/
def terminate (f : Fleet) (id : Nat) : Fleet :=
  if f.stateOf id = .terminated then f
  else
    let f := f.modifyClient id Client.terminated
    let f := f.modifyProcess id fun p =>
      { p with
        inputClosed := p.hasInput
        ending := .closed
        returnCode := some (-15)
        killed := p.killed || p.hangs }
    f.report .info "lsp.terminate" [("client", f.nameOf id)]

/-! ## Reading -/

/-- The fleet after the reader of a connection ended for a reason. -/
def crashed (f : Fleet) (id : Nat) (c : Client) (reason : String) : Fleet :=
  let (client, event) := { c with reading := false }.crash reason
  let f := f.modifyClient id fun _ => { client with held := event }
  match event with
  | none => f
  | some _ => f.report .error "lsp.crash" [("client", c.name), ("reason", reason)]

/-- The reason that a reader gives for bytes that are no frame. -/
def refusalReason (name : String) : FrameFault → String
  | .endlessLength digits =>
    s!"read from {name} failed: {(FrameFault.endlessLength digits).message}"
  | fault => fault.message

/-- The reason that a reader gives for a pipe that fails. -/
def breakReason (name : String) (fault : PipeFault) : String :=
  if fault.isExpected then s!"read from {name} failed: {fault.message}"
  else s!"reader for {name} stopped: {fault.quoted}"

/-- One step of the reader of a connection: it posts the event it holds, or takes the next message.
Nothing comes of it when the reader ended, or has to wait for bytes or for room in the queue. -/
def readStep? (f : Fleet) (id : Nat) : Option Fleet :=
  match f.connections[id]? with
  | none => none
  | some ⟨process, client⟩ =>
    match client.held with
    | some event =>
      if f.queue.length < f.capacity then
        let f := f.modifyClient id fun c => { c with held := none }
        some { f with queue := f.queue ++ [event] }
      else none
    | none =>
      if !client.reading then none
      else if !process.hasOutput then some (f.crashed id client "no stdout pipe")
      else
        match Frame.read (some client.limit) process.ending process.output with
        | .waits => none
        | .gives (some body) rest =>
          let f := f.modifyProcess id fun p => { p with output := rest }
          some (f.modifyClient id fun c => { c with held := some (.response c.name body) })
        | .gives none _ => some (f.crashed id client s!"{client.name} closed its output")
        | .refuses fault _ => some (f.crashed id client (refusalReason client.name fault))
        | .breaks fault => some (f.crashed id client (breakReason client.name fault))

/-- Take steps of one reader until nothing comes of them; each message takes a byte and two
steps. -/
def runReader (id : Nat) : (fuel : Nat) → Fleet → Fleet
  | 0, f => f
  | fuel + 1, f =>
    match f.readStep? id with
    | none => f
    | some f => runReader id fuel f

/-- Let one reader go on until it waits or ends. -/
def settleReader (f : Fleet) (id : Nat) : Fleet :=
  let bytes := (f.connections[id]?.map fun c => c.process.output.length).getD 0
  runReader id (2 * bytes + 4) f

/-- Let all readers go on until they wait or end. -/
def settle (f : Fleet) : Fleet :=
  (List.range f.connections.length).foldl settleReader f

/-! ## Starting -/

/-- The lines of the error output of a process. -/
def complaintLines (bytes : Bytes) : List Bytes :=
  bytes.splitBy fun b _ => b ≠ 10

/-- Report what a process says on its error output. -/
def reportComplaints (f : Fleet) (name : String) (bytes : Bytes) : Fleet :=
  (complaintLines bytes).foldl
    (fun f line =>
      f.report .debug "lsp.stderr"
        [("client", name), ("line", String.ofList (Text.trimRight (Utf8.decodeLossy line)))]) f

/-- The process and the client of a start that goes well. -/
def connect (plan : SpawnPlan) (name : String) (args : List String) (root : Option String)
    (limit : Int) : Connection where
  process :=
    { command := name :: args
      directory := root
      hasInput := plan.hasInput
      inputFault := plan.inputFault
      hasOutput := plan.hasOutput
      hangs := plan.hangs }
  client := { name, root, limit }

/-- Start a server for a document and ask it to initialize; its number is the answer.  A server
that cannot be asked is stopped again. -/
def spawn (name : String) (args : List String) (root : Option String) (path : String)
    (limit : Int) : Step Fleet Nat := do
  let f ← get
  let plan := f.plans.head?.getD {}
  set { f with plans := f.plans.tail }
  if let some fault := plan.failure then throw (.pipe fault)
  let id := f.connections.length
  modify fun f => { f with connections := f.connections ++ [connect plan name args root limit] }
  modify fun f => f.report .info "lsp.spawn" [("client", name), ("root", root.getD "")]
  match ← Step.attempt (sendStart id path) with
  | .error (.write fault) =>
    modify fun f => f.terminate id
    throw (.write fault)
  | .error fault => throw fault
  | .ok _ => pure ()
  modify fun f => (f.modifyClient id fun c => { c with reading := true }).settleReader id
  modify fun f => f.reportComplaints name plan.complaints
  return id

end Fleet

end TextEditor.Server
