import TextEditor.Proofs.Server.Moves

/-!
# What a process was asked

A client waits for answers to requests that its own process was sent.  Before a process has answered
its start it is sent nothing else, but for answers to requests of its own.  Whether it has answered
is not for the fleet to know: here it is a condition on the number of the process, and a step of the
fleet is harmless if it holds of every process that the step writes something else to.
-/

namespace TextEditor.Server

/-- The message is the request of that number and kind. -/
def Outgoing.asks : Outgoing → Nat → RequestKind → Prop
  | .start number _ _, n, .start _ => number = n
  | .tokens number uri, n, .tokens uri' _ => number = n ∧ uri = uri'
  | _, _, _ => False

/-- Whether a process may be sent the message before it answered its start. -/
def Outgoing.early : Outgoing → Bool
  | .start _ _ _ | .reply _ _ => true
  | _ => false

def Event.client : Event → String
  | .response client _ => client
  | .crash client _ => client

/-- The process was asked whatever its client waits for, and sent nothing before its time. -/
structure Connection.Honest (answered : Prop) (c : Connection) : Prop where
  ready : c.client.state = .ready → answered
  stream : ∃ messages : List Outgoing, c.process.received = messages.map Outgoing.frame ∧
    (∀ m ∈ messages, m.early = false → answered) ∧
    ∀ entry ∈ c.client.pending, ∃ m ∈ messages, m.asks entry.1 entry.2
  numbered : ∀ entry ∈ c.client.pending, entry.1 < c.client.nextId
  /-- What the reader holds is in the name of the client. -/
  held : ∀ event, c.client.held = some event → event.client = c.client.name

namespace Connection.Honest

variable {answered answered' : Prop} {c c' : Connection} {m : Outgoing}

theorem mono (h : c.Honest answered) (hanswered : answered → answered') : c.Honest answered' where
  ready := fun hready => hanswered (h.ready hready)
  stream := by
    obtain ⟨messages, hreceived, hearly, hpending⟩ := h.stream
    exact ⟨messages, hreceived, fun m hm hlate => hanswered (hearly m hm hlate), hpending⟩
  numbered := h.numbered
  held := h.held

/-- Nothing is written, no request is new, and the server is not made ready. -/
theorem quiet (h : c.Honest answered) (hreceived : c'.process.received = c.process.received)
    (hpending : ∀ entry ∈ c'.client.pending, entry ∈ c.client.pending)
    (hnextId : c'.client.nextId = c.client.nextId)
    (hready : c'.client.state = .ready → c.client.state = .ready)
    (hheld : ∀ event, c'.client.held = some event → event.client = c'.client.name) :
    c'.Honest answered where
  ready := fun hnow => h.ready (hready hnow)
  stream := by
    obtain ⟨messages, hmessages, hearly, hall⟩ := h.stream
    exact ⟨messages, hreceived.trans hmessages, hearly,
      fun entry hentry => hall entry (hpending entry hentry)⟩
  numbered := fun entry hentry => hnextId ▸ h.numbered entry (hpending entry hentry)
  held := hheld

theorem receive (h : c.Honest answered) (hm : m.early = false → answered) :
    (c.receive m.frame).Honest answered where
  ready := h.ready
  stream := by
    obtain ⟨messages, hreceived, hearly, hpending⟩ := h.stream
    refine ⟨messages ++ [m], ?_, fun m' hm' hlate => ?_, fun entry hentry => ?_⟩
    · rw [Connection.receive, hreceived, List.map_append]
      rfl
    · rcases List.mem_append.1 hm' with hold | hnew
      · exact hearly m' hold hlate
      · rw [List.mem_singleton.1 hnew] at hlate
        exact hm hlate
    · obtain ⟨m', hm', hasks⟩ := hpending entry hentry
      exact ⟨m', List.mem_append_left _ hm', hasks⟩
  numbered := h.numbered
  held := h.held

theorem ask (h : c.Honest answered) {kind : RequestKind} (hm : m.early = false → answered)
    (hasks : m.asks c.client.nextId kind) : (c.ask m.frame kind).Honest answered where
  ready := h.ready
  stream := by
    obtain ⟨messages, hreceived, hearly, hpending⟩ := h.stream
    refine ⟨messages ++ [m], ?_, fun m' hm' hlate => ?_, fun entry hentry => ?_⟩
    · rw [Connection.ask, Connection.receive, hreceived, List.map_append]
      rfl
    · rcases List.mem_append.1 hm' with hold | hnew
      · exact hearly m' hold hlate
      · rw [List.mem_singleton.1 hnew] at hlate
        exact hm hlate
    · rcases List.mem_append.1 hentry with hold | hnew
      · obtain ⟨m', hm', hasks'⟩ := hpending entry hold
        exact ⟨m', List.mem_append_left _ hm', hasks'⟩
      · rw [List.mem_singleton.1 hnew]
        exact ⟨m, List.mem_append_right _ (List.mem_singleton.2 rfl), hasks⟩
  numbered := by
    intro entry hentry
    rcases List.mem_append.1 hentry with hold | hnew
    · exact Nat.lt_succ_of_lt (h.numbered entry hold)
    · rw [List.mem_singleton.1 hnew]
      exact Nat.lt_succ_self _
  held := h.held

theorem connect (plan : SpawnPlan) (name : String) (args : List String) (root : Option String)
    (limit : Int) : (Fleet.connect plan name args root limit).Honest answered :=
  ⟨nofun, ⟨[], rfl, nofun, nofun⟩, nofun, nofun⟩

theorem terminated (h : c.Honest answered) :
    ({ c with client := c.client.terminated } : Connection).Honest answered :=
  h.quiet rfl nofun rfl nofun h.held

theorem pop (h : c.Honest answered) (number : Int) :
    ({ c with client := (c.client.pop number).2 } : Connection).Honest answered := by
  unfold Client.pop
  split
  · exact h
  · exact h.quiet rfl (fun entry hentry => (List.mem_filter.1 hentry).1) rfl
      (fun hready => hready) h.held

theorem markReady (h : c.Honest answered) (hanswered : answered) :
    ({ c with client := c.client.markReady } : Connection).Honest answered := by
  unfold Client.markReady
  split
  · exact ⟨fun _ => hanswered, h.stream, h.numbered, h.held⟩
  · exact h

theorem failed (h : c.Honest answered) (reason : String) :
    ({ c with client := c.client.failed reason } : Connection).Honest answered := by
  unfold Client.failed Client.crash
  cases c.client.state.isAlive with
  | true =>
    refine h.quiet rfl nofun rfl nofun fun event hevent => ?_
    obtain rfl := Option.some.inj hevent
    rfl
  | false => exact h.quiet rfl (fun entry hentry => hentry) rfl (fun hready => hready) nofun

end Connection.Honest

/-- The client has its name, gives no number twice, and waits for nothing again. -/
structure Connection.Leads (c c' : Connection) : Prop where
  name : c'.client.name = c.client.name
  nextId : c.client.nextId ≤ c'.client.nextId
  pending : ∀ entry ∈ c'.client.pending, entry ∈ c.client.pending ∨ c.client.nextId ≤ entry.1

namespace Connection

variable {c c' c'' : Connection}

theorem Leads.of_eq (hname : c'.client.name = c.client.name)
    (hnextId : c'.client.nextId = c.client.nextId)
    (hpending : c'.client.pending = c.client.pending) : c.Leads c' :=
  ⟨hname, Nat.le_of_eq hnextId.symm, fun _ hentry => .inl (hpending ▸ hentry)⟩

theorem Leads.refl (c : Connection) : c.Leads c :=
  .of_eq rfl rfl rfl

theorem Leads.trans (h : c.Leads c') (h' : c'.Leads c'') : c.Leads c'' where
  name := h'.name.trans h.name
  nextId := Nat.le_trans h.nextId h'.nextId
  pending := by
    intro entry hentry
    rcases h'.pending entry hentry with hold | hnew
    · exact h.pending entry hold
    · exact .inr (Nat.le_trans h.nextId hnew)

theorem leads_ask (c : Connection) (data : Bytes) (kind : RequestKind) :
    c.Leads (c.ask data kind) := by
  refine ⟨rfl, Nat.le_succ _, fun entry hentry => ?_⟩
  rcases List.mem_append.1 hentry with hold | hnew
  · exact .inl hold
  · rw [List.mem_singleton.1 hnew]
    exact .inr (Nat.le_refl _)

theorem leads_terminated (c : Connection) :
    c.Leads { c with client := c.client.terminated } :=
  ⟨rfl, Nat.le_refl _, nofun⟩

theorem leads_pop (c : Connection) (number : Int) :
    c.Leads { c with client := (c.client.pop number).2 } := by
  unfold Client.pop
  split
  · exact .of_eq rfl rfl rfl
  · exact ⟨rfl, Nat.le_refl _, fun entry hentry => .inl (List.mem_filter.1 hentry).1⟩

theorem leads_markReady (c : Connection) :
    c.Leads { c with client := c.client.markReady } := by
  unfold Client.markReady
  split
  · exact .of_eq rfl rfl rfl
  · exact .of_eq rfl rfl rfl

theorem leads_failed (c : Connection) (reason : String) :
    c.Leads { c with client := c.client.failed reason } := by
  unfold Client.failed Client.crash
  cases c.client.state.isAlive with
  | true => exact ⟨rfl, Nat.le_refl _, nofun⟩
  | false => exact .of_eq rfl rfl rfl

end Connection

namespace Fleet

variable {answered : Nat → Prop} {reader : Nat} {f f' f'' : Fleet} {id : Nat}

/-- Every connection is honest. -/
def Honest (answered : Nat → Prop) (f : Fleet) : Prop :=
  ∀ (id : Nat) (c : Connection), f.connections[id]? = some c → c.Honest (answered id)

/-- Connections stay honest, each leads to what becomes of it, and no reader posts but that of one
client, in its name. -/
structure Minds (answered : Nat → Prop) (reader : Nat) (f f' : Fleet) : Prop where
  honest : f.Honest answered → f'.Honest answered
  leads : ∀ (id : Nat) (c : Connection), f.connections[id]? = some c →
    ∃ c', f'.connections[id]? = some c' ∧ c.Leads c'
  queue : f.Honest answered → ∃ events, f'.queue = f.queue ++ events ∧
    ∀ event ∈ events, ∃ c, f'.connections[reader]? = some c ∧ event.client = c.client.name

theorem Minds.of_eq (hconnections : f'.connections = f.connections) (hqueue : f'.queue = f.queue) :
    Minds answered reader f f' where
  honest := by
    rw [Honest, Honest, hconnections]
    exact fun h => h
  leads := fun id c hc => ⟨c, by rw [hconnections, hc], .refl c⟩
  queue := fun _ => ⟨[], by rw [hqueue, List.append_nil], nofun⟩

theorem Minds.trans (h : Minds answered reader f f') (h' : Minds answered reader f' f'') :
    Minds answered reader f f'' where
  honest := fun hhonest => h'.honest (h.honest hhonest)
  leads := by
    intro id c hc
    obtain ⟨c', hc', hleads⟩ := h.leads id c hc
    obtain ⟨c'', hc'', hleads'⟩ := h'.leads id c' hc'
    exact ⟨c'', hc'', hleads.trans hleads'⟩
  queue := by
    intro hhonest
    obtain ⟨events, hqueue, hevents⟩ := h.queue hhonest
    obtain ⟨events', hqueue', hevents'⟩ := h'.queue (h.honest hhonest)
    refine ⟨events ++ events', by rw [hqueue', hqueue, List.append_assoc], fun event hevent => ?_⟩
    rcases List.mem_append.1 hevent with hold | hnew
    · obtain ⟨c, hc, hname⟩ := hevents event hold
      obtain ⟨c', hc', hleads⟩ := h'.leads reader c hc
      exact ⟨c', hc', hname.trans hleads.name.symm⟩
    · exact hevents' event hnew

/-- A step in which no reader posts leaves the queue as it is. -/
theorem Minds.queue_eq (h : ∀ reader, Minds answered reader f f') (hhonest : f.Honest answered) :
    f'.queue = f.queue := by
  obtain ⟨events, hqueue, hevents⟩ := (h f'.connections.length).queue hhonest
  have hnone : events = [] := List.eq_nil_iff_forall_not_mem.2 fun event hevent => by
    obtain ⟨c, hc, -⟩ := hevents event hevent
    rw [List.getElem?_eq_none (Nat.le_refl _)] at hc
    cases hc
  rw [hqueue, hnone, List.append_nil]

theorem minds_alter {change : Connection → Connection}
    (hleads : ∀ c, f.connections[id]? = some c → c.Leads (change c))
    (hhonest : ∀ c, f.connections[id]? = some c → c.Honest (answered id) →
      (change c).Honest (answered id)) : Minds answered reader f (f.alter id change) where
  honest := by
    intro h i c hc
    rw [connections_alter] at hc
    split at hc
    · next hid =>
      subst hid
      obtain ⟨c₀, hc₀, rfl⟩ := Option.map_eq_some_iff.1 hc
      exact hhonest c₀ hc₀ (h id c₀ hc₀)
    · exact h i c hc
  leads := by
    intro i c hc
    rw [connections_alter]
    split
    · next hid =>
      subst hid
      exact ⟨change c, by rw [hc, Option.map_some], hleads c hc⟩
    · exact ⟨c, hc, .refl c⟩
  queue := fun _ => ⟨[], (List.append_nil _).symm, nofun⟩

theorem minds_modifyProcess (f : Fleet) (id : Nat) (change : Subprocess → Subprocess)
    (hreceived : ∀ p, (change p).received = p.received) :
    Minds answered reader f (f.modifyProcess id change) :=
  minds_alter (fun _ _ => .of_eq rfl rfl rfl) fun c _ h =>
    h.quiet (hreceived c.process) (fun _ hentry => hentry) rfl (fun hready => hready) h.held

/-! ## Sending -/

theorem Sent.minds {α : Type} {change : Connection → Connection}
    {result : Except Fault α × Fleet} (h : Sent f id change result)
    (hleads : ∀ c : Connection, c.Leads (change c))
    (hhonest : ∀ c, f.connections[id]? = some c → c.Honest (answered id) →
      (change c).Honest (answered id)) : Minds answered reader f result.2 := by
  cases h with
  | failed fault => exact .of_eq rfl rfl
  | done a hc halive hconnections hqueue =>
    have halter : Minds answered reader f (f.alter id change) :=
      minds_alter (fun c _ => hleads c) hhonest
    exact halter.trans (.of_eq hconnections hqueue)

theorem minds_sendNotification (m : Outgoing) {method : String} {params : Option Json}
    (hjson : m.json = Message.notification method params) (hanswered : answered id) :
    Minds answered reader f ((sendNotification id method params).start f).2 := by
  have hsent := sent_sendNotification f id method params
  rw [← hjson] at hsent
  exact hsent.minds (fun _ => .of_eq rfl rfl rfl) fun c _ h => h.receive fun _ => hanswered

theorem minds_sendStarted (hanswered : answered id) :
    Minds answered reader f ((sendStarted id).start f).2 :=
  minds_sendNotification .started rfl hanswered

theorem minds_sendDidOpen (hanswered : answered id) (uri language : String) (text : Text)
    (version : Int) :
    Minds answered reader f ((sendDidOpen id uri language text version).start f).2 :=
  minds_sendNotification (.didOpen uri language text version) rfl hanswered

theorem minds_sendDidChange (hanswered : answered id) (uri : String) (version : Int)
    (changes : List Json) :
    Minds answered reader f ((sendDidChange id uri version changes).start f).2 :=
  minds_sendNotification (.didChange uri version changes) rfl hanswered

theorem nextId_of_connection {c : Connection} (hc : f.connections[id]? = some c) :
    ((f.client? id).map Client.nextId).getD 0 = c.client.nextId := by
  rw [client?, hc]
  rfl

theorem minds_sendTokensRequest (hanswered : answered id) (uri : String) (version : Int) :
    Minds answered reader f ((sendTokensRequest id uri version).start f).2 := by
  refine (sent_sendRequest f id Method.semanticTokens _ _).minds
    (fun c => c.leads_ask _ _) fun c hc h => ?_
  rw [requestFrame, nextId_of_connection hc]
  exact h.ask (m := .tokens c.client.nextId uri) (fun _ => hanswered) ⟨rfl, rfl⟩

theorem minds_sendResponse (f : Fleet) (id : Nat) (message : Json) :
    Minds answered reader f ((sendResponse id message).start f).2 := by
  obtain ⟨number, result, hsent⟩ := sent_sendResponse f id message
  exact hsent.minds (fun _ => .of_eq rfl rfl rfl) fun c _ h => h.receive nofun

theorem minds_sendStart (f : Fleet) (id : Nat) (path : String) :
    Minds answered reader f ((sendStart id path).start f).2 := by
  refine (sent_sendStart f id path).minds (fun c => c.leads_ask _ _) fun c hc h => ?_
  rw [requestFrame, nextId_of_connection hc]
  exact h.ask (m := .start c.client.nextId _ _) (fun hlate => by cases hlate) rfl

/-! ## Matching and stopping -/

theorem minds_terminate (f : Fleet) (id : Nat) : Minds answered reader f (f.terminate id) := by
  unfold terminate
  split
  · exact .of_eq rfl rfl
  · have hclient : Minds answered reader f (f.modifyClient id Client.terminated) :=
      minds_alter (fun c _ => c.leads_terminated) fun c _ h => h.terminated
    refine hclient.trans (Minds.trans (minds_modifyProcess _ id (fun p =>
      { p with
        inputClosed := p.hasInput
        ending := .closed
        returnCode := some (-15)
        killed := p.killed || p.hangs }) fun _ => rfl) ?_)
    exact .of_eq rfl rfl

theorem minds_popRequest (f : Fleet) (id : Nat) (number : Int) :
    Minds answered reader f (f.popRequest id number).2 := by
  unfold popRequest
  cases hc : f.client? id with
  | none => exact .of_eq rfl rfl
  | some client =>
    obtain ⟨c, hconnection, rfl⟩ := Option.map_eq_some_iff.1 hc
    have hsame : ∀ c', f.connections[id]? = some c' → c' = c := fun c' hc' =>
      Option.some.inj (hc'.symm.trans hconnection)
    refine minds_alter (fun c' hc' => ?_) fun c' hc' h => ?_
    · rw [hsame c' hc']
      exact c.leads_pop number
    · rw [hsame c' hc'] at h ⊢
      exact h.pop number

theorem minds_markReady (hanswered : answered id) :
    Minds answered reader f (f.modifyClient id Client.markReady) := by
  exact minds_alter (fun c _ => c.leads_markReady) fun c _ h => h.markReady hanswered

/-! ## Reading -/

/-- A reader posts what it holds, which is in the name of its client. -/
theorem minds_read (f : Fleet) (id : Nat) : Minds answered id f (f.act (.read id)) := by
  rw [act]
  cases hc : f.connections[id]? with
  | none =>
    rw [readStep?, hc]
    exact .of_eq rfl rfl
  | some c =>
  rcases readStep?_cases hc with ⟨hstep, -⟩ | ⟨event, hheld, -, hstep⟩ |
    ⟨body, rest, -, -, -, -, hstep⟩ | ⟨reason, -, hstep⟩
  · rw [hstep]
    exact .of_eq rfl rfl
  · rw [hstep, Option.getD_some]
    have hreleased : Minds answered id f
        (f.modifyClient id fun c => { c with held := none }) :=
      minds_alter (fun _ _ => .of_eq rfl rfl rfl) fun c _ h =>
        h.quiet rfl (fun _ hentry => hentry) rfl (fun hready => hready)
          fun _ hevent => by cases hevent
    refine ⟨hreleased.honest, hreleased.leads, fun h => ⟨[event], rfl, fun event' hevent' => ?_⟩⟩
    obtain ⟨c', hc', hleads⟩ := hreleased.leads id c hc
    rw [List.mem_singleton.1 hevent']
    exact ⟨c', hc', ((h id c hc).held event hheld).trans hleads.name.symm⟩
  · rw [hstep, Option.getD_some]
    have houtput : Minds answered id f
        (f.modifyProcess id fun p => { p with output := rest }) :=
      minds_modifyProcess f id _ fun _ => rfl
    refine houtput.trans (minds_alter (fun _ _ => .of_eq rfl rfl rfl) fun c _ h => ?_)
    refine h.quiet rfl (fun _ hentry => hentry) rfl (fun hready => hready) fun event hevent => ?_
    obtain rfl := Option.some.inj hevent
    rfl
  · rw [hstep, Option.getD_some]
    have hfailed : Minds answered id f
        (f.alter id fun c' => { c' with client := c.client.failed reason }) := by
      have hsame : ∀ c', f.connections[id]? = some c' → c' = c := fun c' hc' =>
        Option.some.inj (hc'.symm.trans hc)
      refine minds_alter (fun c' hc' => ?_) fun c' hc' h => ?_
      · rw [hsame c' hc']
        exact c.leads_failed reason
      · rw [hsame c' hc'] at h ⊢
        exact h.failed reason
    exact hfailed.trans (.of_eq (connections_crashed f id c.client reason)
      (queue_crashed f id c.client reason))

/-! ## Starting -/

theorem minds_foldl_read (f : Fleet) (id count : Nat) :
    Minds answered id f ((List.replicate count (.read id)).foldl act f) := by
  induction count generalizing f with
  | zero => exact .of_eq rfl rfl
  | succ count ih => exact (minds_read f id).trans (ih _)

/-- A process that is started is asked to start, and nothing else. -/
theorem minds_launch (name : String) (args : List String) (root : Option String) (path : String)
    (limit : Int) (f : Fleet) :
    Minds answered reader f (f.launch name args root path limit).2 := by
  unfold launch
  dsimp only
  generalize f.plans.head?.getD {} = plan
  cases plan.failure with
  | some fault => exact .of_eq rfl rfl
  | none =>
    dsimp only
    generalize hplanned : report _ .info "lsp.spawn" _ = planned
    have hconnections : planned.connections =
        f.connections ++ [connect plan name args root limit] := by rw [← hplanned]; rfl
    have hbegun : Minds answered reader f planned := by
      have hqueue : planned.queue = f.queue := by rw [← hplanned]; rfl
      refine ⟨fun h i c hc => ?_, fun i c hc => ⟨c, ?_, .refl c⟩, fun _ =>
        ⟨[], by rw [hqueue, List.append_nil], nofun⟩⟩
      · rw [hconnections] at hc
        rcases Nat.lt_or_ge i f.connections.length with hlt | hge
        · rw [List.getElem?_append_left hlt] at hc
          exact h i c hc
        · rw [List.getElem?_append_right hge] at hc
          rw [List.mem_singleton.1 (List.mem_of_getElem? hc)]
          exact .connect plan name args root limit
      · rw [hconnections, List.getElem?_append_left (List.getElem?_eq_some_iff.1 hc).1, hc]
    have hasked := hbegun.trans (minds_sendStart planned f.connections.length path)
    generalize (sendStart f.connections.length path).start planned = asked at hasked ⊢
    obtain ⟨outcome, f'⟩ := asked
    cases outcome with
    | ok number =>
      exact hasked.trans (minds_alter (fun _ _ => .of_eq rfl rfl rfl) fun c _ h =>
        h.quiet rfl (fun _ hentry => hentry) rfl (fun hready => hready) h.held)
    | error fault =>
      cases fault with
      | write fault => exact hasked.trans (minds_terminate f' _)
      | _ => exact hasked

/-- Only the reader of the new client is at work. -/
theorem minds_spawn (f : Fleet) (name : String) (args : List String) (root : Option String)
    (path : String) (limit : Int) :
    Minds answered f.connections.length f ((spawn name args root path limit).start f).2 := by
  obtain ⟨count, journal, hspawn⟩ := spawn_eq_moves f name args root path limit
  rw [hspawn]
  have hlaunch : Minds answered f.connections.length f
      (f.act (.launch name args root path limit)) :=
    minds_launch name args root path limit f
  exact (hlaunch.trans (minds_foldl_read _ f.connections.length count)).trans
    (.of_eq rfl rfl)

theorem name_spawn {name : String} {args : List String} {root : Option String} {path : String}
    {limit : Int} (hspawn : ((spawn name args root path limit).start f).1 = .ok id) :
    ∃ c, ((spawn name args root path limit).start f).2.connections[id]? = some c ∧
      c.client.name = name := by
  rw [start_spawn_launch] at hspawn ⊢
  cases hlaunch : f.launch name args root path limit with
  | mk outcome f' =>
  rw [hlaunch] at hspawn
  cases outcome with
  | error fault => cases hspawn
  | ok number =>
    obtain rfl := Except.ok.inj hspawn
    obtain ⟨-, plan, hc⟩ := connection_launch (congrArg Prod.fst hlaunch)
    obtain ⟨count, hcount⟩ := settleReader_eq_foldl f' number
    obtain ⟨journal, hjournal⟩ := reportComplaints_eq (f'.settleReader number) name
      (f.plans.head?.getD {}).complaints
    have hread : Minds (fun _ => True) number f' (f'.settleReader number) := by
      rw [hcount]
      exact minds_foldl_read f' number count
    rw [hlaunch] at hc
    obtain ⟨c', hc', hleads⟩ := hread.leads number _ hc
    dsimp only
    rw [hjournal]
    exact ⟨c', hc', hleads.name⟩

end Fleet

end TextEditor.Server
