import TextEditor.Json.Basic
import TextEditor.Server.Frame
import TextEditor.Server.Message
import TextEditor.Table

/-!
# Clients of servers

A client talks to one server process.  It numbers its requests, remembers what each that was sent
asked for until the answer is matched with it, and knows whether the server is starting, ready,
crashed or terminated.  What its reader takes from the process goes to the queue of the editor as
events.
-/

namespace TextEditor.Server

/-- How far a server has come.  It is alive while it starts and while it is ready. -/
inductive ClientState where
  | starting
  | ready
  | crashed
  | terminated
  deriving DecidableEq, Repr, Inhabited

namespace ClientState

def name : ClientState → String
  | .starting => "starting"
  | .ready => "ready"
  | .crashed => "crashed"
  | .terminated => "terminated"

def isAlive : ClientState → Bool
  | .starting | .ready => true
  | .crashed | .terminated => false

end ClientState

/-- Why a message could not be written. -/
inductive WriteCause where
  | notRunning (state : ClientState)
  | failed (fault : PipeFault)
  deriving DecidableEq, Repr

/-- A message that could not be written to a server. -/
structure WriteFault where
  client : String
  method : String
  cause : WriteCause
  deriving DecidableEq, Repr

def WriteFault.message (f : WriteFault) : String :=
  match f.cause with
  | .notRunning state => s!"{f.client} is not running ({state.name})"
  | .failed fault => s!"write to {f.client} failed: {fault.message}"

/-- What a reader posts: the body of a message as it was framed, or the end of the server. -/
inductive Event where
  | response (client : String) (payload : Bytes)
  | crash (client reason : String)
  deriving DecidableEq, Repr

/-- A client of a server. -/
structure Client where
  name : String
  root : Option String
  /-- The longest message that is read. -/
  limit : Int
  state : ClientState := .starting
  nextId : Nat := 0
  /-- The requests that wait for their answers, in the order in which they were sent. -/
  pending : List (Nat × RequestKind) := []
  /-- Whether the reader is at work. -/
  reading : Bool := false
  /-- An event for which the queue has no room. -/
  held : Option Event := none
  deriving Repr

namespace Client

/-- The client after a request was sent. -/
def sent (c : Client) (kind : RequestKind) : Client :=
  { c with pending := c.pending ++ [(c.nextId, kind)], nextId := c.nextId + 1 }

/-- What the request of that number asked for; it is answered once. -/
def pop (c : Client) (id : Int) : Option RequestKind × Client :=
  match c.pending.find? fun entry => (entry.1 : Int) = id with
  | none => (none, c)
  | some (n, kind) => (some kind, { c with pending := c.pending.filter fun entry => entry.1 ≠ n })

/-- The server answered its start. -/
def markReady (c : Client) : Client :=
  if c.state = .starting then { c with state := .ready } else c

/-- The server is stopped on purpose. -/
def terminated (c : Client) : Client :=
  { c with state := .terminated, pending := [] }

/-- The output of the server ended or cannot be read; nothing happens to a client that stopped
before.  The event is the one to post. -/
def crash (c : Client) (reason : String) : Client × Option Event :=
  if c.state.isAlive then
    ({ c with state := .crashed, pending := [] }, some (.crash c.name reason))
  else (c, none)

theorem crash_of_not_alive {c : Client} (h : c.state.isAlive = false) (reason : String) :
    c.crash reason = (c, none) := by
  simp [crash, h]

end Client

/-- A process and its pipes. -/
structure Subprocess where
  command : List String
  directory : Option String
  hasInput : Bool := true
  /-- Why writing fails, if it does. -/
  inputFault : Option PipeFault := none
  inputClosed : Bool := false
  hasOutput : Bool := true
  /-- The output that was not read yet. -/
  output : Bytes := []
  ending : Ending := .awaited
  /-- Whether it ignores being told to stop. -/
  hangs : Bool := false
  returnCode : Option Int := none
  killed : Bool := false
  /-- What was written to it, in order. -/
  received : List Bytes := []
  deriving Repr

/-- What a start leads to: a failure, or a process with these properties. -/
structure SpawnPlan where
  failure : Option PipeFault := none
  /-- What the process says on its error output when it starts. -/
  complaints : Bytes := []
  hasInput : Bool := true
  inputFault : Option PipeFault := none
  hasOutput : Bool := true
  hangs : Bool := false
  deriving Repr, Inhabited

/-- A process with the client that talks to it. -/
structure Connection where
  process : Subprocess
  client : Client
  deriving Repr

end TextEditor.Server
