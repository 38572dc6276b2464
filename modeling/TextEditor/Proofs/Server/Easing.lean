import Mathlib.Data.Option.Basic
import TextEditor.Proofs.Server.Moves

/-!
# What is not a write

A connection that eases gets no message and waits for no new answer: it may stop, and what it waited
for may come.  All that happens to the connections of a fleet between two writes is of this kind,
but for a start, which puts a newborn connection behind the others.
-/

namespace TextEditor.Server

/-- The connection goes on without a message being written to it. -/
structure Connection.Eases (c c' : Connection) : Prop where
  received : c'.process.received = c.process.received
  pending : ∀ entry ∈ c'.client.pending, entry ∈ c.client.pending
  state : c'.client.state = c.client.state ∨ c'.client.state.isAlive = false

namespace Connection

variable {c c' c'' : Connection}

theorem Eases.refl (c : Connection) : c.Eases c :=
  ⟨rfl, fun _ h => h, .inl rfl⟩

theorem Eases.trans (h : c.Eases c') (h' : c'.Eases c'') : c.Eases c'' where
  received := h'.received.trans h.received
  pending entry hentry := h.pending entry (h'.pending entry hentry)
  state := by
    rcases h'.state with heq | hdead
    · rw [heq]
      exact h.state
    · exact .inr hdead

/-- A connection that is alive has the state that it had. -/
theorem Eases.state_eq (h : c.Eases c') (halive : c'.client.state.isAlive = true) :
    c'.client.state = c.client.state := by
  rcases h.state with heq | hdead
  · exact heq
  · rw [hdead] at halive
    cases halive

theorem Eases.alive (h : c.Eases c') (halive : c'.client.state.isAlive = true) :
    c.client.state.isAlive = true :=
  h.state_eq halive ▸ halive

/-- A connection whose server was stopped on purpose. -/
def stopped (c : Connection) : Connection where
  process :=
    { c.process with
      inputClosed := c.process.hasInput
      ending := .closed
      returnCode := some (-15)
      killed := c.process.killed || c.process.hangs }
  client := c.client.terminated

theorem eases_stopped (c : Connection) : c.Eases c.stopped :=
  ⟨rfl, nofun, .inr rfl⟩

theorem eases_process (c : Connection) {p : Subprocess}
    (hreceived : p.received = c.process.received) : c.Eases { c with process := p } :=
  ⟨hreceived, fun _ h => h, .inl rfl⟩

theorem eases_pop (c : Connection) (number : Int) :
    c.Eases { c with client := (c.client.pop number).2 } := by
  unfold Client.pop
  split
  · exact .refl c
  · exact ⟨rfl, fun entry hentry => (List.mem_filter.1 hentry).1, .inl rfl⟩

theorem eases_failed (c : Connection) (reason : String) :
    c.Eases { c with client := c.client.failed reason } := by
  unfold Client.failed Client.crash
  dsimp only
  split
  · exact ⟨rfl, nofun, .inr rfl⟩
  · exact ⟨rfl, fun _ h => h, .inl rfl⟩

/-- The connection was just made: nothing is asked or told of a document. -/
structure Newborn (c : Connection) : Prop where
  received : ∃ messages : List Outgoing, (∀ m ∈ messages, Fleet.Neutral m) ∧
    c.process.received = messages.map Outgoing.frame
  pending : ∀ entry ∈ c.client.pending, entry.2.isStart = true

theorem newborn_connect (plan : SpawnPlan) (name : String) (args : List String)
    (root : Option String) (limit : Int) : (Fleet.connect plan name args root limit).Newborn :=
  ⟨⟨[], nofun, rfl⟩, nofun⟩

theorem newborn_launched (plan : SpawnPlan) (name : String) (args : List String)
    (root : Option String) (path : String) (limit : Int) :
    (Fleet.launched plan name args root path limit).Newborn := by
  refine ⟨⟨[.start 0 name root], fun m hm uri => ?_, rfl⟩, fun entry hentry => ?_⟩
  · rw [List.mem_singleton.1 hm]
    rfl
  · rw [List.mem_singleton.1 hentry]
    rfl

theorem Newborn.eases (hnewborn : c.Newborn) (h : c.Eases c') : c'.Newborn := by
  obtain ⟨messages, hneutral, hreceived⟩ := hnewborn.received
  exact ⟨⟨messages, hneutral, h.received.trans hreceived⟩,
    fun entry hentry => hnewborn.pending entry (h.pending entry hentry)⟩

end Connection

/-- All connections go on without a message being written to them. -/
def Eased (connections connections' : List Connection) : Prop :=
  ∀ id : Nat, Option.Rel Connection.Eases connections[id]? connections'[id]?

namespace Eased

variable {connections connections' connections'' : List Connection} {id : Nat}
variable {c c' : Connection}

theorem of_eq (h : connections' = connections) : Eased connections connections' := by
  intro id
  rw [h]
  cases connections[id]? with
  | none => exact .none
  | some c => exact .some (.refl c)

theorem some_left (h : Eased connections connections') (hc' : connections'[id]? = some c') :
    ∃ c, connections[id]? = some c ∧ c.Eases c' := by
  have hid := h id
  rw [hc'] at hid
  generalize connections[id]? = x at hid ⊢
  cases hid with
  | some heases => exact ⟨_, rfl, heases⟩

theorem some_right (h : Eased connections connections') (hc : connections[id]? = some c) :
    ∃ c', connections'[id]? = some c' ∧ c.Eases c' := by
  have hid := h id
  rw [hc] at hid
  generalize connections'[id]? = x at hid ⊢
  cases hid with
  | some heases => exact ⟨_, rfl, heases⟩

theorem trans (h : Eased connections connections') (h' : Eased connections' connections'') :
    Eased connections connections'' := by
  intro id
  cases hc : connections[id]? with
  | none =>
    have hid := h id
    rw [hc] at hid
    have hid' := h' id
    generalize connections'[id]? = x at hid hid'
    cases hid with
    | none =>
      generalize connections''[id]? = y at hid' ⊢
      cases hid'
      exact .none
  | some c =>
    obtain ⟨c', hc', heases⟩ := h.some_right hc
    obtain ⟨c'', hc'', heases'⟩ := h'.some_right hc'
    rw [hc'']
    exact .some (heases.trans heases')

end Eased

namespace Fleet

variable {f : Fleet} {id : Nat}

theorem eased_alter {change : Connection → Connection}
    (h : ∀ c, f.connections[id]? = some c → c.Eases (change c)) :
    Eased f.connections (f.alter id change).connections := by
  intro i
  rw [connections_alter]
  by_cases hid : id = i
  · subst hid
    rw [if_pos rfl]
    cases hc : f.connections[id]? with
    | none => exact .none
    | some c => exact .some (h c hc)
  · rw [if_neg hid]
    exact Eased.of_eq rfl i

theorem eased_modifyProcess (f : Fleet) (id : Nat) (change : Subprocess → Subprocess)
    (hreceived : ∀ p, (change p).received = p.received) :
    Eased f.connections (f.modifyProcess id change).connections :=
  eased_alter fun c _ => c.eases_process (hreceived c.process)

theorem terminate_cases (f : Fleet) (id : Nat) :
    f.stateOf id = .terminated ∧ f.terminate id = f ∨
      (f.terminate id).connections = (f.alter id Connection.stopped).connections := by
  unfold terminate
  split
  · next hstate => exact .inl ⟨hstate, rfl⟩
  · exact .inr (List.modify_modify_eq ..)

theorem eased_terminate (f : Fleet) (id : Nat) :
    Eased f.connections (f.terminate id).connections := by
  rcases terminate_cases f id with ⟨-, hsame⟩ | hstopped
  · rw [hsame]
    exact .of_eq rfl
  · rw [hstopped]
    exact eased_alter fun c _ => c.eases_stopped

/-- A server that was stopped on purpose is not alive. -/
theorem dead_of_terminate {c : Connection} (hc : (f.terminate id).connections[id]? = some c) :
    c.client.state.isAlive = false := by
  rcases terminate_cases f id with ⟨hstate, hsame⟩ | hstopped
  · rw [hsame] at hc
    rw [stateOf, client?, hc] at hstate
    rw [show c.client.state = .terminated from hstate]
    rfl
  · rw [hstopped, connections_alter, if_pos rfl] at hc
    obtain ⟨c₀, -, rfl⟩ := Option.map_eq_some_iff.1 hc
    rfl

theorem eased_popRequest (f : Fleet) (id : Nat) (number : Int) :
    Eased f.connections (f.popRequest id number).2.connections := by
  unfold popRequest
  cases hclient : f.client? id with
  | none => exact .of_eq rfl
  | some client =>
    obtain ⟨c, hc, rfl⟩ := Option.map_eq_some_iff.1 hclient
    refine eased_alter fun c' hc' => ?_
    obtain rfl : c = c' := Option.some.inj (hc.symm.trans hc')
    exact c.eases_pop number

theorem eased_readStep? {f' : Fleet} (hstep : f.readStep? id = some f') :
    Eased f.connections f'.connections := by
  cases hc : f.connections[id]? with
  | none =>
    rw [readStep?, hc] at hstep
    cases hstep
  | some c =>
    rcases readStep?_cases hc with ⟨hnone, -⟩ | ⟨event, -, -, hnext⟩ |
      ⟨body, rest, -, -, -, -, hnext⟩ | ⟨reason, -, hnext⟩
    · rw [hnone] at hstep
      cases hstep
    · obtain rfl := Option.some.inj (hnext.symm.trans hstep)
      exact eased_alter fun c _ => ⟨rfl, fun _ h => h, .inl rfl⟩
    · obtain rfl := Option.some.inj (hnext.symm.trans hstep)
      exact (eased_modifyProcess f id (fun p => { p with output := rest }) fun _ => rfl).trans
        (eased_alter fun c _ => ⟨rfl, fun _ h => h, .inl rfl⟩)
    · obtain rfl := Option.some.inj (hnext.symm.trans hstep)
      rw [connections_crashed]
      refine eased_alter fun c' hc' => ?_
      obtain rfl : c = c' := Option.some.inj (hc.symm.trans hc')
      exact c.eases_failed reason

theorem eased_runReader (id fuel : Nat) (f : Fleet) :
    Eased f.connections (runReader id fuel f).connections := by
  induction fuel generalizing f with
  | zero => exact .of_eq rfl
  | succ fuel ih =>
    rw [runReader]
    cases hstep : f.readStep? id with
    | none => exact .of_eq rfl
    | some f' => exact (eased_readStep? hstep).trans (ih f')

/-! ## Starts -/

/-- What becomes of a start: there is no process, or there is one with a newborn connection.  It
is stopped when it does not take its first message; one whose pipe fails in a way that is not
expected of pipes goes on. -/
inductive Launching (f : Fleet) : Except Fault Nat × Fleet → Prop
  | failed (fault : PipeFault) {f' : Fleet} (hconnections : f'.connections = f.connections) :
    Launching f (.error (.pipe fault), f')
  | stopped (fault : WriteFault) {c : Connection} {f' : Fleet} (hnewborn : c.Newborn)
    (hdead : c.client.state.isAlive = false)
    (hconnections : f'.connections = f.connections ++ [c]) : Launching f (.error (.write fault), f')
  | raised {fault : PipeFault} {c : Connection} {f' : Fleet} (hfault : fault.isExpected = false)
    (hnewborn : c.Newborn) (hconnections : f'.connections = f.connections ++ [c]) :
    Launching f (.error (.pipe fault), f')
  | started {c : Connection} {f' : Fleet} (hnewborn : c.Newborn)
    (hconnections : Eased (f.connections ++ [c]) f'.connections) :
    Launching f (.ok f.connections.length, f')

/-- A message cannot be written, or a pipe fails in a way that is not expected. -/
theorem writeFault?_cases {c : Connection} {method : String} {fault : Fault}
    (h : writeFault? c method = some fault) :
    (∃ w, fault = .write w) ∨
      ∃ p : PipeFault, fault = .pipe p ∧ p.isExpected = false ∧ c.process.inputFault = some p := by
  unfold writeFault? at h
  split at h
  · exact .inl ⟨_, (Option.some.inj h).symm⟩
  · split at h
    · cases h
    · next p hinput =>
      split at h
      · exact .inl ⟨_, (Option.some.inj h).symm⟩
      · next hunexpected =>
        exact .inr ⟨p, (Option.some.inj h).symm, by simpa using hunexpected, hinput⟩

theorem modify_concat {α : Type} (items : List α) (last : α) (change : α → α) :
    (items ++ [last]).modify items.length change = items ++ [change last] := by
  induction items with
  | nil => rfl
  | cons item rest ih => exact congrArg (item :: ·) ih

/-- All that can become of a start. -/
theorem launch_cases (name : String) (args : List String) (root : Option String)
    (path : String) (limit : Int) (f : Fleet) :
    (∃ fault f', f.launch name args root path limit = (.error (.pipe fault), f') ∧
      f'.connections = f.connections) ∨
    ∃ plan,
      (∃ fault f', f.launch name args root path limit = (.error (.write fault), f') ∧
        f'.connections = f.connections ++ [(connect plan name args root limit).stopped]) ∨
      (∃ fault f', fault.isExpected = false ∧
        f.launch name args root path limit = (.error (.pipe fault), f') ∧
        f'.connections = f.connections ++ [connect plan name args root limit]) ∨
      ∃ f', f.launch name args root path limit = (.ok f.connections.length, f') ∧
        f'.connections = f.connections ++ [launched plan name args root path limit] := by
  have hlaunched := @connection_launch f f.connections.length name args root path limit
  unfold launch at hlaunched ⊢
  dsimp only at hlaunched ⊢
  generalize f.plans.head?.getD {} = plan at hlaunched ⊢
  cases hfailure : plan.failure with
  | some fault => exact .inl ⟨fault, _, rfl, rfl⟩
  | none =>
    rw [hfailure] at hlaunched
    dsimp only at hlaunched ⊢
    generalize hplanned : report _ .info "lsp.spawn" _ = planned at hlaunched ⊢
    let c := connect plan name args root limit
    have hconnections : planned.connections = f.connections ++ [c] := by
      rw [← hplanned]
      rfl
    have hc : planned.connections[f.connections.length]? = some c := by
      rw [hconnections]
      exact List.getElem?_concat_length
    cases hfault : writeFault? c Method.start with
    | some fault =>
      rw [start_sendStart_of_fault hc hfault path]
      rcases writeFault?_cases hfault with ⟨w, rfl⟩ | ⟨p, rfl, hunexpected, -⟩
      · have hstopped : (planned.terminate f.connections.length).connections =
            f.connections ++ [c.stopped] := by
          rcases terminate_cases planned f.connections.length with ⟨hstate, -⟩ | hstopped
          · rw [stateOf, client?, hc] at hstate
            cases hstate
          · rw [hstopped, alter, hconnections]
            exact modify_concat f.connections c Connection.stopped
        exact .inr ⟨plan, .inl ⟨w, _, rfl, hstopped⟩⟩
      · exact .inr ⟨plan, .inr (.inl ⟨p, _, hunexpected, rfl, hconnections⟩)⟩
    | none =>
      have hline : planned.lines[f.connections.length]? = some c.line := by
        rw [lines, List.getElem?_map, hc, Option.map_some]
      obtain ⟨number, -, f', -, hstart, -⟩ :=
        start_sendStart_of_takes hline (takes_of_writeFault?_eq_none hfault) path
      have hsent := sent_sendStart planned f.connections.length path
      rw [hstart] at hsent hlaunched ⊢
      cases hsent with
      | done a hc' halive hasked =>
        obtain ⟨-, plan', hlast⟩ := hlaunched rfl
        refine .inr ⟨plan', .inr (.inr ⟨_, rfl, ?_⟩)⟩
        rw [modifyClient, alter, hasked, alter, hconnections, modify_concat] at hlast ⊢
        rw [modify_concat] at hlast ⊢
        rw [List.getElem?_concat_length] at hlast
        rw [Option.some.inj hlast]

theorem launching_launch (name : String) (args : List String) (root : Option String)
    (path : String) (limit : Int) (f : Fleet) :
    Launching f (f.launch name args root path limit) := by
  obtain ⟨fault, f', hlaunch, hconnections⟩ | ⟨plan, hplan⟩ :=
    launch_cases name args root path limit f
  · rw [hlaunch]
    exact .failed fault hconnections
  have hnewborn := Connection.newborn_connect plan name args root limit
  obtain ⟨fault, f', hlaunch, hconnections⟩ | ⟨fault, f', hunexpected, hlaunch, hconnections⟩ |
    ⟨f', hlaunch, hconnections⟩ := hplan <;> rw [hlaunch]
  · exact .stopped fault (hnewborn.eases (Connection.eases_stopped _)) rfl hconnections
  · exact .raised hunexpected hnewborn hconnections
  · exact .started (Connection.newborn_launched plan name args root path limit)
      (.of_eq hconnections)

/-- A start is a launch, after which the new reader goes on. -/
theorem launching_spawn (f : Fleet) (name : String) (args : List String) (root : Option String)
    (path : String) (limit : Int) :
    Launching f ((spawn name args root path limit).start f) := by
  have hlaunching := launching_launch name args root path limit f
  rw [start_spawn_launch]
  generalize f.launch name args root path limit = launch at hlaunching ⊢
  cases hlaunching with
  | failed fault hconnections => exact .failed fault hconnections
  | stopped fault hnewborn hdead hconnections => exact .stopped fault hnewborn hdead hconnections
  | raised hfault hnewborn hconnections => exact .raised hfault hnewborn hconnections
  | @started c f' hnewborn hconnections =>
    obtain ⟨journal, hreported⟩ := reportComplaints_eq (f'.settleReader f.connections.length) name
      (f.plans.head?.getD {}).complaints
    dsimp only
    rw [hreported]
    exact .started hnewborn (hconnections.trans (eased_runReader _ _ f'))

end Fleet

end TextEditor.Server
