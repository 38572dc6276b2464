import TextEditor.Proofs.Server.Frames
import TextEditor.Proofs.Server.Writing

/-!
# Moves of the host and of the readers

Each client is at the disposal of two: the host, which sends, matches answers and stops it, and its
reader, which takes messages off the output of the process and posts them.  What either does under
the lock of the client is one move, and moves come in any order, with those of the process between
them.  For one client at a time it is said once what a move can do to it; all that is proved of
readers follows from that.
-/

namespace TextEditor.Server

/-- Whether bytes can still come out of the process. -/
def Subprocess.isOpen (p : Subprocess) : Bool :=
  p.hasOutput && p.ending = .awaited

/-- Why the reader of a connection ends at its next step, if it does. -/
def Connection.failure? (c : Connection) : Option String :=
  if c.client.held.isSome || !c.client.reading then none
  else if !c.process.hasOutput then some "no stdout pipe"
  else
    match Frame.read (some c.client.limit) c.process.ending c.process.output with
    | .waits => none
    | .gives (some _) _ => none
    | .gives none _ => some s!"{c.client.name} closed its output"
    | .refuses fault _ => some (Fleet.refusalReason c.client.name fault)
    | .breaks fault => some (Fleet.breakReason c.client.name fault)

/-- The client after its reader ended for a reason. -/
def Client.failed (c : Client) (reason : String) : Client :=
  let (client, event) := { c with reading := false }.crash reason
  { client with held := event }

theorem Client.failed_eq (c : Client) (reason : String) :
    (c.failed reason).name = c.name ∧ (c.failed reason).limit = c.limit := by
  unfold Client.failed Client.crash
  cases c.state.isAlive <;> exact ⟨rfl, rfl⟩

/-- What is done by the host, a process or a reader. -/
inductive Move where
  /-- A client is started; its reader has not done anything yet. -/
  | launch (name : String) (args : List String) (root : Option String) (path : String) (limit : Int)
  | request (id : Nat) (method : String) (params : Option Json) (kind : RequestKind)
  | notify (id : Nat) (method : String) (params : Option Json)
  | respond (id : Nat) (message : Json)
  | pop (id : Nat) (number : Int)
  | markReady (id : Nat)
  /-- The client takes note that it is to stop; its process has not noticed yet. -/
  | retire (id : Nat)
  | terminate (id : Nat)
  /-- The oldest event is taken off the queue. -/
  | take
  /-- An event comes from elsewhere. -/
  | post (event : Event)
  /-- Writing to a process fails from now on. -/
  | breakPipe (id : Nat) (fault : PipeFault)
  /-- A process writes bytes, if its output is open. -/
  | emit (id : Nat) (bytes : Bytes)
  /-- The output of a process ends. -/
  | finish (id : Nat) (ending : Ending)
  /-- A reader takes one step, if it can. -/
  | read (id : Nat)

namespace Fleet

variable {f f' f'' : Fleet} {id : Nat} {c c' c'' : Connection}

/-- Start a server as `spawn` does, and leave its reader for later. -/
def launch (name : String) (args : List String) (root : Option String) (path : String)
    (limit : Int) (f : Fleet) : Except Fault Nat × Fleet :=
  let plan := f.plans.head?.getD {}
  let id := f.connections.length
  match plan.failure with
  | some fault => (.error (.pipe fault), { f with plans := f.plans.tail })
  | none =>
    let planned : Fleet :=
      { f with
        plans := f.plans.tail
        connections := f.connections ++ [connect plan name args root limit] }
    let asked := (sendStart id path).start
      (planned.report .info "lsp.spawn" [("client", name), ("root", root.getD "")])
    match asked.1 with
    | .error (.write fault) => (.error (.write fault), asked.2.terminate id)
    | .error fault => (.error fault, asked.2)
    | .ok _ => (.ok id, asked.2.modifyClient id fun c => { c with reading := true })

/-- The fleet after a move, whether it fails or not. -/
def act (f : Fleet) : Move → Fleet
  | .launch name args root path limit => (f.launch name args root path limit).2
  | .request id method params kind => ((sendRequest id method params kind).start f).2
  | .notify id method params => ((sendNotification id method params).start f).2
  | .respond id message => ((sendResponse id message).start f).2
  | .pop id number => (f.popRequest id number).2
  | .markReady id => f.modifyClient id Client.markReady
  | .retire id => f.modifyClient id Client.terminated
  | .terminate id => f.terminate id
  | .take => { f with queue := f.queue.tail }
  | .post event => { f with queue := f.queue ++ [event] }
  | .breakPipe id fault => f.modifyProcess id fun p => { p with inputFault := some fault }
  | .emit id bytes =>
    f.modifyProcess id fun p => if p.isOpen then { p with output := p.output ++ bytes } else p
  | .finish id ending =>
    f.modifyProcess id fun p => if p.ending = .awaited then { p with ending } else p
  | .read id => (f.readStep? id).getD f

/-- The bytes that come out of a process by a move. -/
def emits (f : Fleet) (id : Nat) : Move → Bytes
  | .emit i bytes => if i = id ∧ f.connections[i]?.any (·.process.isOpen) then bytes else []
  | _ => []

/-- The events that the reader of a client adds to the queue by a move. -/
def posts (f : Fleet) (id : Nat) : Move → List Event
  | .read i => if i = id then (f.act (.read i)).queue.drop f.queue.length else []
  | _ => []

/-- The bytes that come out of a process by some moves. -/
def emitted (f : Fleet) (id : Nat) : List Move → Bytes
  | [] => []
  | move :: rest => f.emits id move ++ (f.act move).emitted id rest

/-- The events that the reader of a client adds to the queue by some moves. -/
def posted (f : Fleet) (id : Nat) : List Move → List Event
  | [] => []
  | move :: rest => f.posts id move ++ (f.act move).posted id rest

theorem emitted_append (f : Fleet) (id : Nat) (first second : List Move) :
    f.emitted id (first ++ second) =
      f.emitted id first ++ (first.foldl act f).emitted id second := by
  induction first generalizing f with
  | nil => rfl
  | cons move rest ih =>
    rw [List.cons_append, emitted, emitted, ih, List.append_assoc]
    rfl

theorem posted_append (f : Fleet) (id : Nat) (first second : List Move) :
    f.posted id (first ++ second) =
      f.posted id first ++ (first.foldl act f).posted id second := by
  induction first generalizing f with
  | nil => rfl
  | cons move rest ih =>
    rw [List.cons_append, posted, posted, ih, List.append_assoc]
    rfl

/-! ## What the host does to a connection -/

end Fleet

/-- The connection after bytes arrived at its process. -/
def Connection.receive (c : Connection) (data : Bytes) : Connection :=
  { c with process := { c.process with received := c.process.received ++ [data] } }

/-- The connection after a request of its client arrived at its process. -/
def Connection.ask (c : Connection) (data : Bytes) (kind : RequestKind) : Connection :=
  { c.receive data with client := c.client.sent kind }

/-- A client that is not alive waits for no answers. -/
def Client.Quits (c : Client) : Prop :=
  c.state.isAlive = false → c.pending = []

/-- The host leaves the output and the reader alone; it may end the output, and it brings no client
back to life. -/
structure Connection.Rests (c c' : Connection) : Prop where
  output : c'.process.output = c.process.output
  hasOutput : c'.process.hasOutput = c.process.hasOutput
  ending : c'.process.ending = .awaited → c.process.ending = .awaited
  name : c'.client.name = c.client.name
  limit : c'.client.limit = c.client.limit
  reading : c'.client.reading = c.client.reading
  held : c'.client.held = c.client.held
  alive : c'.client.state.isAlive = true → c.client.state.isAlive = true
  quits : c.client.Quits → c'.client.Quits

/-- What a move can do to a connection, with the bytes that come out of its process and the events
that its reader posts. -/
inductive Connection.Goes (c : Connection) : Connection → Bytes → List Event → Prop
  | rests {c' : Connection} (hrests : c.Rests c') : c.Goes c' [] []
  | emits {bytes : Bytes} (hopen : c.process.isOpen = true) :
    c.Goes { c with process := { c.process with output := c.process.output ++ bytes } } bytes []
  | takes {body rest : Bytes} (hheld : c.client.held = none) (hreading : c.client.reading = true)
    (houtput : c.process.hasOutput = true)
    (hread : Frame.read (some c.client.limit) c.process.ending c.process.output =
      .gives (some body) rest) :
    c.Goes
      { process := { c.process with output := rest }
        client := { c.client with held := some (.response c.client.name body) } } [] []
  | posts {event : Event} (hheld : c.client.held = some event) :
    c.Goes { c with client := { c.client with held := none } } [] [event]
  | fails {reason : String} (hfailure : c.failure? = some reason) :
    c.Goes { c with client := c.client.failed reason } [] []

namespace Connection

variable {c c' c'' : Connection}

theorem Rests.refl (c : Connection) : c.Rests c :=
  ⟨rfl, rfl, fun h => h, rfl, rfl, rfl, rfl, fun h => h, fun h => h⟩

theorem Rests.trans (h : c.Rests c') (h' : c'.Rests c'') : c.Rests c'' where
  output := h'.output.trans h.output
  hasOutput := h'.hasOutput.trans h.hasOutput
  ending := fun hending => h.ending (h'.ending hending)
  name := h'.name.trans h.name
  limit := h'.limit.trans h.limit
  reading := h'.reading.trans h.reading
  held := h'.held.trans h.held
  alive := fun halive => h.alive (h'.alive halive)
  quits := fun hquits => h'.quits (h.quits hquits)

/-- A change of the process that is not of its output. -/
theorem rests_process (c : Connection) {p : Subprocess} (houtput : p.output = c.process.output)
    (hhas : p.hasOutput = c.process.hasOutput)
    (hending : p.ending = .awaited → c.process.ending = .awaited) :
    c.Rests { c with process := p } :=
  ⟨houtput, hhas, hending, rfl, rfl, rfl, rfl, fun h => h, fun h => h⟩

theorem rests_receive (c : Connection) (data : Bytes) : c.Rests (c.receive data) :=
  c.rests_process rfl rfl fun h => h

theorem rests_ask (halive : c.client.state.isAlive = true) (data : Bytes) (kind : RequestKind) :
    c.Rests (c.ask data kind) := by
  refine ⟨rfl, rfl, fun h => h, rfl, rfl, rfl, rfl, fun _ => halive, fun _ hdead => ?_⟩
  exact absurd (halive.symm.trans hdead) (by decide)

theorem rests_pop (c : Connection) (number : Int) :
    c.Rests { c with client := (c.client.pop number).2 } := by
  unfold Client.pop
  split
  · exact Rests.refl c
  · refine ⟨rfl, rfl, fun h => h, rfl, rfl, rfl, rfl, fun h => h, fun hquits hdead => ?_⟩
    exact List.filter_eq_nil_iff.2 fun entry hentry => by
      rw [hquits hdead] at hentry
      cases hentry

theorem rests_markReady (c : Connection) : c.Rests { c with client := c.client.markReady } := by
  unfold Client.markReady
  split
  · next hstarting =>
    have halive : c.client.state.isAlive = true := by rw [hstarting]; rfl
    refine ⟨rfl, rfl, fun h => h, rfl, rfl, rfl, rfl, fun _ => halive, ?_⟩
    intro _ hdead
    cases hdead
  · exact Rests.refl c

theorem rests_terminated (c : Connection) : c.Rests { c with client := c.client.terminated } :=
  ⟨rfl, rfl, fun h => h, rfl, rfl, rfl, rfl, nofun, fun _ _ => rfl⟩

end Connection

namespace Fleet

variable {f f' f'' : Fleet} {id i : Nat} {c c' : Connection}

/-- From one fleet to the other only the host had to do with a connection. -/
def RestsAt (id : Nat) (f f' : Fleet) : Prop :=
  ∀ c, f.connections[id]? = some c → ∃ c', f'.connections[id]? = some c' ∧ c.Rests c'

theorem RestsAt.of_eq (h : f'.connections[id]? = f.connections[id]?) : RestsAt id f f' :=
  fun c hc => ⟨c, h.trans hc, Connection.Rests.refl c⟩

theorem RestsAt.trans (h : RestsAt id f f') (h' : RestsAt id f' f'') : RestsAt id f f'' := by
  intro c hc
  obtain ⟨c', hc', hrests⟩ := h c hc
  obtain ⟨c'', hc'', hrests'⟩ := h' c' hc'
  exact ⟨c'', hc'', hrests.trans hrests'⟩

theorem connections_alter (f : Fleet) (i : Nat) (change : Connection → Connection) (id : Nat) :
    (f.alter i change).connections[id]? =
      if i = id then f.connections[id]?.map change else f.connections[id]? := by
  rw [alter, List.getElem?_modify]
  split <;> simp

theorem restsAt_alter {change : Connection → Connection}
    (h : ∀ c, f.connections[i]? = some c → c.Rests (change c)) :
    RestsAt id f (f.alter i change) := by
  intro c hc
  rw [connections_alter]
  split
  · next hid =>
    subst hid
    exact ⟨change c, by rw [hc, Option.map_some], h c hc⟩
  · exact ⟨c, hc, Connection.Rests.refl c⟩

theorem restsAt_alter_of_ne (h : i ≠ id) (change : Connection → Connection) :
    RestsAt id f (f.alter i change) :=
  .of_eq (by rw [connections_alter, if_neg h])

theorem restsAt_modifyProcess (f : Fleet) (i : Nat) (change : Subprocess → Subprocess)
    (h : ∀ p, (change p).output = p.output ∧ (change p).hasOutput = p.hasOutput ∧
      ((change p).ending = .awaited → p.ending = .awaited)) :
    RestsAt id f (f.modifyProcess i change) := by
  apply restsAt_alter
  intro c _
  obtain ⟨houtput, hhas, hending⟩ := h c.process
  exact c.rests_process houtput hhas hending

/-! ## Sending -/

/-- What a step that sends comes to: it fails and does nothing, or something happens to the
connection of a client that is alive, and to nothing else but the records. -/
inductive Sent {α : Type} (f : Fleet) (i : Nat) (change : Connection → Connection) :
    Except Fault α × Fleet → Prop
  | failed (fault : Fault) : Sent f i change (.error fault, f)
  | done {c : Connection} {f' : Fleet} (a : α) (hc : f.connections[i]? = some c)
    (halive : c.client.state.isAlive = true)
    (hconnections : f'.connections = (f.alter i change).connections) (hqueue : f'.queue = f.queue)
    (hcapacity : f'.capacity = f.capacity) : Sent f i change (.ok a, f')

theorem Sent.restsAt {α : Type} {change : Connection → Connection}
    {result : Except Fault α × Fleet} (h : Sent f i change result)
    (hrests : ∀ c, f.connections[i]? = some c → c.client.state.isAlive = true →
      c.Rests (change c)) : RestsAt id f result.2 := by
  cases h with
  | failed fault => exact .of_eq rfl
  | done a hc halive hconnections =>
    have halter : RestsAt id f (f.alter i change) := by
      apply restsAt_alter
      intro c' hc'
      obtain rfl := Option.some.inj (hc.symm.trans hc')
      exact hrests _ hc halive
    intro c' hc'
    obtain ⟨c'', hc'', hrest⟩ := halter c' hc'
    exact ⟨c'', by rw [hconnections, hc''], hrest⟩

theorem sent_write (f : Fleet) (i : Nat) (message : Json) (method : String) :
    Sent f i (·.receive (Frame.encodeJson message)) ((write i message method).start f) := by
  rw [write, Step.start_bind, Step.start_get]
  dsimp only
  cases hc : f.connections[i]? with
  | none => exact .failed _
  | some c =>
    dsimp only
    cases hfault : writeFault? c method with
    | some fault => exact .failed fault
    | none => exact .done () hc (takes_of_writeFault?_eq_none hfault).1 rfl rfl rfl

/-- The bytes of the next request of a client. -/
def requestFrame (f : Fleet) (i : Nat) (method : String) (params : Option Json) : Bytes :=
  Frame.encodeJson (Message.request (((f.client? i).map Client.nextId).getD 0) method params)

theorem sent_sendRequest (f : Fleet) (i : Nat) (method : String) (params : Option Json)
    (kind : RequestKind) :
    Sent f i (·.ask (f.requestFrame i method params) kind)
      ((sendRequest i method params kind).start f) := by
  have hwrite := sent_write f i
    (Message.request (((f.client? i).map Client.nextId).getD 0) method params) method
  rw [sendRequest, Step.start_bind, Step.start_get]
  dsimp only
  rw [Step.start_bind]
  generalize (write i _ method).start f = result at hwrite ⊢
  cases hwrite with
  | failed fault => exact .failed fault
  | done a hc halive hconnections hqueue hcapacity =>
    refine .done _ hc halive ?_ hqueue hcapacity
    simp only [report, modifyClient, alter] at hconnections ⊢
    rw [hconnections, List.modify_modify_eq]
    rfl

theorem sent_sendNotification (f : Fleet) (i : Nat) (method : String) (params : Option Json) :
    Sent f i (·.receive (Frame.encodeJson (Message.notification method params)))
      ((sendNotification i method params).start f) := by
  have hwrite := sent_write f i (Message.notification method params) method
  rw [sendNotification, Step.start_bind]
  generalize (write i _ method).start f = result at hwrite ⊢
  cases hwrite with
  | failed fault => exact .failed fault
  | done a hc halive hconnections hqueue hcapacity =>
    exact .done _ hc halive hconnections hqueue hcapacity

/-- What is sent to answer a request is an answer; one that can be put into no message is not
sent. -/
theorem sent_sendResponse (f : Fleet) (i : Nat) (message : Json) :
    ∃ number result, Sent f i (·.receive (Outgoing.reply number result).frame)
      ((sendResponse i message).start f) := by
  rw [start_sendResponse]
  cases hanswer : answerTo f.nesting message with
  | error fault => exact ⟨.null, .null, .failed _⟩
  | ok answer =>
    obtain ⟨number, result, rfl⟩ := reply_eq_ok (answerTo_eq_ok hanswer)
    exact ⟨number, result, sent_write f i _ _⟩

theorem restsAt_sendRequest (f : Fleet) (i : Nat) (method : String) (params : Option Json)
    (kind : RequestKind) : RestsAt id f ((sendRequest i method params kind).start f).2 :=
  (sent_sendRequest f i method params kind).restsAt fun c _ halive => c.rests_ask halive _ kind

theorem restsAt_sendNotification (f : Fleet) (i : Nat) (method : String) (params : Option Json) :
    RestsAt id f ((sendNotification i method params).start f).2 :=
  (sent_sendNotification f i method params).restsAt fun c _ _ => c.rests_receive _

theorem restsAt_sendResponse (f : Fleet) (i : Nat) (message : Json) :
    RestsAt id f ((sendResponse i message).start f).2 := by
  obtain ⟨number, result, hsent⟩ := sent_sendResponse f i message
  exact hsent.restsAt fun c _ _ => c.rests_receive _

theorem restsAt_terminate (f : Fleet) (i : Nat) : RestsAt id f (f.terminate i) := by
  unfold terminate
  split
  · exact .of_eq rfl
  · have hclient : RestsAt id f (f.modifyClient i Client.terminated) :=
      restsAt_alter fun c _ => c.rests_terminated
    refine hclient.trans (restsAt_alter fun c _ => ?_)
    exact c.rests_process rfl rfl fun h => by cases h

theorem restsAt_popRequest (f : Fleet) (i : Nat) (number : Int) :
    RestsAt id f (f.popRequest i number).2 := by
  unfold popRequest
  cases hc : f.client? i with
  | none => exact .of_eq rfl
  | some client =>
    obtain ⟨c, hconnection, rfl⟩ := Option.map_eq_some_iff.1 hc
    refine restsAt_alter fun c' hc' => ?_
    obtain rfl : c = c' := Option.some.inj (hconnection.symm.trans hc')
    exact c.rests_pop number

theorem sent_sendStart (f : Fleet) (i : Nat) (path : String) :
    Sent f i (·.ask (f.requestFrame i Method.start
        (some (Message.startParams (((f.client? i).map Client.name).getD "")
          ((f.client? i).bind Client.root)))) (.start path))
      ((sendStart i path).start f) := by
  rw [sendStart, Step.start_bind, Step.start_get]
  exact sent_sendRequest f i _ _ _

/-- A start leaves the connections alone that are there. -/
theorem restsAt_launch (name : String) (args : List String) (root : Option String) (path : String)
    (limit : Int) (f : Fleet) : RestsAt id f (f.launch name args root path limit).2 := by
  by_cases hid : id < f.connections.length
  · have hne : f.connections.length ≠ id := by omega
    unfold launch
    dsimp only
    generalize f.plans.head?.getD {} = plan
    cases plan.failure with
    | some fault => exact .of_eq rfl
    | none =>
      dsimp only
      generalize hplanned : report _ .info "lsp.spawn" _ = planned
      have hsame : planned.connections[id]? = f.connections[id]? := by
        rw [← hplanned]
        exact List.getElem?_append_left hid
      have hsent : RestsAt id planned ((sendStart f.connections.length path).start planned).2 :=
        (sent_sendStart planned f.connections.length path).restsAt
          fun c _ halive => c.rests_ask halive _ _
      have hasked := (RestsAt.of_eq hsame).trans hsent
      generalize (sendStart f.connections.length path).start planned = asked at hasked ⊢
      obtain ⟨outcome, f'⟩ := asked
      cases outcome with
      | ok number => exact hasked.trans (restsAt_alter_of_ne hne _)
      | error fault =>
        cases fault with
        | write fault => exact hasked.trans (restsAt_terminate f' _)
        | _ => exact hasked
  · intro c hc
    rw [List.getElem?_eq_none (by omega)] at hc
    cases hc

/-! ## What a reader does -/

/-- What the next step of a reader comes to. -/
theorem readStep?_cases (hc : f.connections[i]? = some c) :
    (f.readStep? i = none ∧ c.failure? = none ∧
      (f.queue.length < f.capacity → c.client.held = none ∧ (c.client.reading = true →
        c.process.hasOutput = true ∧
          Frame.read (some c.client.limit) c.process.ending c.process.output = .waits))) ∨
    (∃ event, c.client.held = some event ∧ f.queue.length < f.capacity ∧
      f.readStep? i = some { f.modifyClient i fun c => { c with held := none } with
        queue := f.queue ++ [event] }) ∨
    (∃ body rest, c.client.held = none ∧ c.client.reading = true ∧ c.process.hasOutput = true ∧
      Frame.read (some c.client.limit) c.process.ending c.process.output =
        .gives (some body) rest ∧
      f.readStep? i = some ((f.modifyProcess i fun p => { p with output := rest }).modifyClient i
        fun c => { c with held := some (.response c.name body) })) ∨
    ∃ reason, c.failure? = some reason ∧ f.readStep? i = some (f.crashed i c.client reason) := by
  obtain ⟨process, client⟩ := c
  rw [readStep?, hc]
  dsimp only [Connection.failure?]
  cases hheld : client.held with
  | some event =>
    dsimp only
    split
    · next hroom => exact .inr (.inl ⟨event, rfl, hroom, rfl⟩)
    · next hfull => exact .inl ⟨rfl, rfl, fun hroom => absurd hroom hfull⟩
  | none =>
    cases hreading : client.reading with
    | false => exact .inl ⟨rfl, rfl, fun _ => ⟨rfl, nofun⟩⟩
    | true =>
      cases houtput : process.hasOutput with
      | false => exact .inr (.inr (.inr ⟨_, rfl, rfl⟩))
      | true =>
        cases hread : Frame.read (some client.limit) process.ending process.output with
        | waits => exact .inl ⟨rfl, rfl, fun _ => ⟨rfl, fun _ => ⟨rfl, rfl⟩⟩⟩
        | refuses fault rest => exact .inr (.inr (.inr ⟨_, rfl, rfl⟩))
        | breaks fault => exact .inr (.inr (.inr ⟨_, rfl, rfl⟩))
        | gives value rest =>
          cases value with
          | none => exact .inr (.inr (.inr ⟨_, rfl, rfl⟩))
          | some body => exact .inr (.inr (.inl ⟨body, rest, rfl, rfl, rfl, rfl, rfl⟩))

theorem connections_crashed (f : Fleet) (i : Nat) (client : Client) (reason : String) :
    (f.crashed i client reason).connections =
      (f.alter i fun c => { c with client := client.failed reason }).connections := by
  unfold crashed Client.failed
  dsimp only
  split <;> rfl

theorem queue_crashed (f : Fleet) (i : Nat) (client : Client) (reason : String) :
    (f.crashed i client reason).queue = f.queue := by
  unfold crashed
  dsimp only
  split <;> rfl

/-- A reader leaves the connections of others alone. -/
theorem restsAt_read (hid : i ≠ id) (f : Fleet) : RestsAt id f (f.act (.read i)) := by
  rw [act]
  cases hc : f.connections[i]? with
  | none =>
    rw [readStep?, hc]
    exact .of_eq rfl
  | some c =>
    rcases readStep?_cases hc with ⟨hstep, -⟩ | ⟨event, -, -, hstep⟩ |
      ⟨body, rest, -, -, -, -, hstep⟩ | ⟨reason, -, hstep⟩
    · rw [hstep]
      exact .of_eq rfl
    · rw [hstep]
      exact restsAt_alter_of_ne hid _
    · rw [hstep]
      exact (restsAt_alter_of_ne hid _).trans (restsAt_alter_of_ne hid _)
    · rw [hstep]
      exact .of_eq (by rw [Option.getD_some, connections_crashed, connections_alter, if_neg hid])

theorem goes_read (hc : f.connections[id]? = some c) :
    ∃ c', (f.act (.read id)).connections[id]? = some c' ∧ c.Goes c' [] (f.posts id (.read id)) := by
  rw [posts, if_pos rfl, act]
  rcases readStep?_cases hc with ⟨hstep, -⟩ | ⟨event, hheld, -, hstep⟩ |
    ⟨body, rest, hheld, hreading, houtput, hread, hstep⟩ | ⟨reason, hfailure, hstep⟩
  · rw [hstep, Option.getD_none, List.drop_length]
    exact ⟨c, hc, .rests (Connection.Rests.refl c)⟩
  · rw [hstep, Option.getD_some, List.drop_left]
    refine ⟨_, ?_, .posts hheld⟩
    exact (connections_alter f id _ id).trans (by rw [if_pos rfl, hc, Option.map_some])
  · rw [hstep, Option.getD_some]
    have hqueue : ((f.modifyProcess id fun p => { p with output := rest }).modifyClient id
        fun c => { c with held := some (.response c.name body) }).queue.drop f.queue.length = [] :=
      List.drop_length
    rw [hqueue]
    refine ⟨_, ?_, .takes hheld hreading houtput hread⟩
    rw [modifyClient, connections_alter, if_pos rfl, modifyProcess, connections_alter, if_pos rfl,
      hc, Option.map_some, Option.map_some]
  · rw [hstep, Option.getD_some, queue_crashed, List.drop_length]
    refine ⟨_, ?_, .fails hfailure⟩
    rw [connections_crashed, connections_alter, if_pos rfl, hc, Option.map_some]

theorem goes_emit (hc : f.connections[id]? = some c) (bytes : Bytes) :
    ∃ c', (f.act (.emit id bytes)).connections[id]? = some c' ∧
      c.Goes c' (f.emits id (.emit id bytes)) [] := by
  rw [emits, act, modifyProcess, connections_alter, if_pos rfl, hc, Option.map_some]
  refine ⟨_, rfl, ?_⟩
  cases hopen : c.process.isOpen with
  | true =>
    rw [if_pos rfl, if_pos ⟨rfl, hopen⟩]
    exact .emits hopen
  | false =>
    rw [if_neg Bool.false_ne_true, if_neg fun h => Bool.false_ne_true (hopen.symm.trans h.2)]
    exact .rests (Connection.Rests.refl c)

/-- But for what a process writes and a step of its reader, a move has to do with a connection as the
host has. -/
theorem restsAt_act (f : Fleet) {move : Move} (hemit : ∀ bytes, move ≠ .emit id bytes)
    (hread : move ≠ .read id) : RestsAt id f (f.act move) := by
  cases move with
  | launch name args root path limit => exact restsAt_launch name args root path limit f
  | request i method params kind => exact restsAt_sendRequest f i method params kind
  | notify i method params => exact restsAt_sendNotification f i method params
  | respond i message => exact restsAt_sendResponse f i message
  | pop i number => exact restsAt_popRequest f i number
  | markReady i => exact restsAt_alter fun c _ => c.rests_markReady
  | retire i => exact restsAt_alter fun c _ => c.rests_terminated
  | terminate i => exact restsAt_terminate f i
  | take | post event => exact .of_eq rfl
  | breakPipe i fault => exact restsAt_modifyProcess f i _ fun _ => ⟨rfl, rfl, fun h => h⟩
  | emit i bytes => exact restsAt_alter_of_ne (fun hid => hemit bytes (by rw [hid])) _
  | finish i ending =>
    refine restsAt_modifyProcess f i _ fun p => ?_
    split
    · next hawaited => exact ⟨rfl, rfl, fun _ => hawaited⟩
    · exact ⟨rfl, rfl, fun h => h⟩
  | read i => exact restsAt_read (fun hid => hread (by rw [hid])) f

/-- What a move does to a connection. -/
theorem goes_act (hc : f.connections[id]? = some c) (move : Move) :
    ∃ c', (f.act move).connections[id]? = some c' ∧
      c.Goes c' (f.emits id move) (f.posts id move) := by
  by_cases hemit : ∃ bytes, move = .emit id bytes
  · obtain ⟨bytes, rfl⟩ := hemit
    exact goes_emit hc bytes
  by_cases hread : move = .read id
  · subst hread
    exact goes_read hc
  obtain ⟨c', hc', hrests⟩ := restsAt_act f (fun bytes h => hemit ⟨bytes, h⟩) hread c hc
  have hemits : f.emits id move = [] := by
    cases move with
    | emit i bytes =>
      exact if_neg fun h => hemit ⟨bytes, by rw [h.1]⟩
    | _ => rfl
  have hposts : f.posts id move = [] := by
    cases move with
    | read i => exact if_neg fun h => hread (by rw [h])
    | _ => rfl
  rw [hemits, hposts]
  exact ⟨c', hc', .rests hrests⟩

/-- Only its own step can end a reader. -/
theorem reading_act (hc : f.connections[id]? = some c) {move : Move} (hread : move ≠ .read id) :
    ∃ c', (f.act move).connections[id]? = some c' ∧ c'.client.reading = c.client.reading := by
  by_cases hemit : ∃ bytes, move = .emit id bytes
  · obtain ⟨bytes, rfl⟩ := hemit
    rw [act, modifyProcess, connections_alter, if_pos rfl, hc, Option.map_some]
    exact ⟨_, rfl, rfl⟩
  · obtain ⟨c', hc', hrests⟩ := restsAt_act f (fun bytes h => hemit ⟨bytes, h⟩) hread c hc
    exact ⟨c', hc', hrests.reading⟩

/-! ## Starting -/

/-- A start is a launch, after which its reader goes on until it waits. -/
theorem start_spawn_launch (f : Fleet) (name : String) (args : List String) (root : Option String)
    (path : String) (limit : Int) :
    (spawn name args root path limit).start f =
      match f.launch name args root path limit with
      | (.ok id, f') =>
        (.ok id, (f'.settleReader id).reportComplaints name (f.plans.head?.getD {}).complaints)
      | (.error fault, f') => (.error fault, f') := by
  rw [start_spawn, launch]
  dsimp only
  cases (f.plans.head?.getD {}).failure with
  | some fault => rfl
  | none =>
    dsimp only
    generalize (sendStart f.connections.length path).start _ = asked
    obtain ⟨outcome, f'⟩ := asked
    cases outcome with
    | ok number => rfl
    | error fault => cases fault <;> rfl

theorem runReader_eq_foldl (id fuel : Nat) (f : Fleet) :
    runReader id fuel f = (List.replicate fuel (.read id)).foldl act f := by
  induction fuel generalizing f with
  | zero => rfl
  | succ fuel ih =>
    rw [runReader, List.replicate_succ, List.foldl_cons]
    cases hstep : f.readStep? id with
    | some f' =>
      dsimp only
      rw [ih, act, hstep, Option.getD_some]
    | none =>
      have hstays : f.act (.read id) = f := by rw [act, hstep, Option.getD_none]
      have hall : ∀ n : Nat, (List.replicate n (.read id)).foldl act f = f := by
        intro n
        induction n with
        | zero => rfl
        | succ n ih => rw [List.replicate_succ, List.foldl_cons, hstays, ih]
      rw [hstays, hall]

theorem settleReader_eq_foldl (f : Fleet) (id : Nat) :
    ∃ count, f.settleReader id = (List.replicate count (.read id)).foldl act f :=
  ⟨_, runReader_eq_foldl id _ f⟩

/-- The connection of a server that was asked to start: its first request is on the way. -/
def launched (plan : SpawnPlan) (name : String) (args : List String) (root : Option String)
    (path : String) (limit : Int) : Connection :=
  let c := connect plan name args root limit
  { process := { c.process with received := [(Outgoing.start 0 name root).frame] }
    client := { c.client.sent (.start path) with reading := true } }

theorem connection_launch {name : String} {args : List String} {root : Option String}
    {path : String} {limit : Int} (hlaunch : (f.launch name args root path limit).1 = .ok id) :
    id = f.connections.length ∧ ∃ plan,
      (f.launch name args root path limit).2.connections[id]? =
        some (launched plan name args root path limit) := by
  unfold launch at hlaunch ⊢
  dsimp only at hlaunch ⊢
  generalize f.plans.head?.getD {} = plan at hlaunch ⊢
  cases hfailure : plan.failure with
  | some fault => simp [hfailure] at hlaunch
  | none =>
    simp only [hfailure] at hlaunch ⊢
    generalize hplanned : report _ .info "lsp.spawn" _ = planned at hlaunch ⊢
    have hc : planned.connections[f.connections.length]? =
        some (connect plan name args root limit) := by
      rw [← hplanned]
      exact List.getElem?_concat_length
    have hclient : planned.client? f.connections.length =
        some (connect plan name args root limit).client := by
      rw [client?, hc, Option.map_some]
    have hsent := sent_sendStart planned f.connections.length path
    cases hasked : (sendStart f.connections.length path).start planned with
    | mk outcome asked =>
    rw [hasked] at hsent hlaunch
    cases hsent with
    | failed fault => cases fault <;> simp at hlaunch
    | done a hc' halive hconnections =>
      obtain rfl := Except.ok.inj hlaunch
      refine ⟨rfl, plan, ?_⟩
      dsimp only
      rw [modifyClient, connections_alter, if_pos rfl, hconnections, connections_alter, if_pos rfl,
        hc, Option.map_some, Option.map_some, requestFrame, hclient]
      rfl

theorem reportComplaints_eq (f : Fleet) (name : String) (bytes : Bytes) :
    ∃ journal, f.reportComplaints name bytes = { f with journal } := by
  unfold reportComplaints
  induction complaintLines bytes generalizing f with
  | nil => exact ⟨f.journal, rfl⟩
  | cons line rest ih =>
    obtain ⟨journal, hjournal⟩ := ih (f.report .debug "lsp.stderr"
      [("client", name), ("line", String.ofList (Text.trimRight (Utf8.decodeLossy line)))])
    exact ⟨journal, hjournal⟩

/-- A start is a launch and some steps of the new reader, but for what is reported. -/
theorem spawn_eq_moves (f : Fleet) (name : String) (args : List String) (root : Option String)
    (path : String) (limit : Int) :
    ∃ count journal, ((spawn name args root path limit).start f).2 =
      { (List.replicate count (.read f.connections.length)).foldl act
          (f.act (.launch name args root path limit)) with journal } := by
  rw [start_spawn_launch, act]
  cases hlaunch : f.launch name args root path limit with
  | mk outcome f' =>
  cases outcome with
  | error fault => exact ⟨0, f'.journal, rfl⟩
  | ok id =>
    obtain ⟨hid, -⟩ := connection_launch (congrArg Prod.fst hlaunch)
    obtain ⟨count, hcount⟩ := settleReader_eq_foldl f' f.connections.length
    obtain ⟨journal, hjournal⟩ := reportComplaints_eq
      ((List.replicate count (.read f.connections.length)).foldl act f') name
      (f.plans.head?.getD {}).complaints
    refine ⟨count, journal, ?_⟩
    dsimp only
    rw [hid, hcount, hjournal]

end Fleet

end TextEditor.Server
