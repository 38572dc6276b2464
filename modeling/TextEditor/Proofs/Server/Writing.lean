import TextEditor.Proofs.Server.Lines
import TextEditor.Proofs.Step

/-!
# Writing to the servers

Each step that writes puts one message on one line if the line takes it, and leaves everything as it
was if the server is not alive.  A start puts a new line beside the others, with its request on it.
-/

namespace TextEditor.Server

namespace Fleet

variable {f : Fleet} {id : Nat}

/-! ## Writing -/

/-- From a fleet the step writes one message of a kind to a client, and fails with nothing done if
the server is not alive. -/
def Sends {α : Type} (f : Fleet) (step : Step Fleet α) (id : Nat) (kind : Outgoing → Prop) : Prop :=
  ∀ l : Line, f.lines[id]? = some l →
    (l.Takes → ∃ m a f', kind m ∧ step.start f = (.ok a, f') ∧
      f'.lines = f.lines.modify id (·.receive m.frame)) ∧
    (l.state.isAlive = false → ∃ fault, step.start f = (.error (.write fault), f))

theorem Sends.mono {α : Type} {step : Step Fleet α} {kind kind' : Outgoing → Prop}
    (h : Sends f step id kind) (hkind : ∀ m, kind m → kind' m) : Sends f step id kind' := by
  intro l hl
  obtain ⟨htakes, hdead⟩ := h l hl
  refine ⟨fun hl => ?_, hdead⟩
  obtain ⟨m, a, f', hm, hstart⟩ := htakes hl
  exact ⟨m, a, f', hkind m hm, hstart⟩

theorem start_write_of_takes {l : Line} (hl : f.lines[id]? = some l) (htakes : l.Takes)
    (message : Json) (method : String) :
    (write id message method).start f = (.ok (), f.deliver id (Frame.encodeJson message)) := by
  obtain ⟨c, hc, rfl⟩ := connection_of_line hl
  obtain ⟨halive, hinput, hfault⟩ := htakes
  have hwrite : writeFault? c method = none := by
    simp only [Connection.line] at halive hinput hfault
    simp [writeFault?, halive, hinput, hfault]
  rw [write, Step.start_bind]
  simp only [Step.start_get, hc, hwrite, Step.start_set]

theorem start_write_of_dead {l : Line} (hl : f.lines[id]? = some l)
    (hdead : l.state.isAlive = false) (message : Json) (method : String) :
    ∃ fault, (write id message method).start f = (.error (.write fault), f) := by
  obtain ⟨c, hc, rfl⟩ := connection_of_line hl
  have hwrite : writeFault? c method =
      some (.write ⟨c.client.name, method, .notRunning c.client.state⟩) := by
    simp only [Connection.line] at hdead
    simp [writeFault?, hdead]
  refine ⟨⟨c.client.name, method, .notRunning c.client.state⟩, ?_⟩
  rw [write, Step.start_bind]
  simp only [Step.start_get, hc, hwrite, Step.start_throw]

theorem sends_notification (m : Outgoing) {method : String} {params : Option Json}
    (hjson : m.json = Message.notification method params) :
    Sends f (sendNotification id method params) id (· = m) := by
  intro l hl
  refine ⟨fun htakes => ?_, fun hdead => ?_⟩
  · have hstart : (sendNotification id method params).start f =
        (.ok (), (f.deliver id m.frame).report .debug "lsp.notification"
          [("client", (f.deliver id m.frame).nameOf id), ("method", method)]) := by
      rw [sendNotification, Step.start_bind, start_write_of_takes hl htakes, ← hjson]
      rfl
    exact ⟨m, (), _, rfl, hstart, lines_deliver f id m.frame⟩
  · obtain ⟨fault, hfault⟩ :=
      start_write_of_dead hl hdead (Message.notification method params) method
    refine ⟨fault, ?_⟩
    rw [sendNotification, Step.start_bind, hfault]

theorem sends_started (id : Nat) : Sends f (sendStarted id) id (· = .started) :=
  sends_notification _ rfl

theorem sends_didOpen (id : Nat) (uri language : String) (text : Text) (version : Int) :
    Sends f (sendDidOpen id uri language text version) id
      (· = .didOpen uri language text version) :=
  sends_notification _ rfl

theorem sends_didChange (id : Nat) (uri : String) (version : Int) (changes : List Json) :
    Sends f (sendDidChange id uri version changes) id (· = .didChange uri version changes) :=
  sends_notification _ rfl

/-- The message concerns the state of no document. -/
def Neutral (m : Outgoing) : Prop :=
  ∀ uri, m.version? uri = none

/-- Nothing that was written on the line concerns a document. -/
def Untold (l : Line) : Prop :=
  ∃ messages : List Outgoing, (∀ m ∈ messages, Neutral m) ∧
    l.received = messages.map Outgoing.frame

theorem lines_sent {kind : RequestKind} (hkind : kind.isStart = false) (f : Fleet) (id : Nat) :
    (f.modifyClient id (·.sent kind)).lines = f.lines := by
  have hsent : (f.modifyClient id (·.sent kind)).lines = f.lines.modify id fun l => l :=
    lines_alter fun c _ => by
      simp [Connection.line, Client.sent, Client.starts, hkind]
  rw [hsent]
  exact List.modify_id ..

theorem sends_tokensRequest (id : Nat) (uri : String) (version : Int) :
    Sends f (sendTokensRequest id uri version) id Neutral := by
  intro l hl
  let number := ((f.client? id).map Client.nextId).getD 0
  let m : Outgoing := .tokens number uri
  refine ⟨fun htakes => ?_, fun hdead => ?_⟩
  · have hstart : (sendTokensRequest id uri version).start f =
        (.ok number, ((f.deliver id m.frame).modifyClient id (·.sent (.tokens uri version))).report
          .debug "lsp.request"
          [("client", (f.deliver id m.frame).nameOf id), ("method", Method.semanticTokens),
            ("id", toString number)]) := by
      rw [sendTokensRequest, sendRequest, Step.start_bind]
      simp only [Step.start_get]
      rw [Step.start_bind, start_write_of_takes hl htakes]
      rfl
    refine ⟨m, number, _, fun _ => rfl, hstart, ?_⟩
    rw [lines_report, lines_sent rfl, lines_deliver]
  · obtain ⟨fault, hfault⟩ := start_write_of_dead hl hdead
      (Message.request number Method.semanticTokens (some (Message.semanticTokensParams uri)))
      Method.semanticTokens
    refine ⟨fault, ?_⟩
    rw [sendTokensRequest, sendRequest, Step.start_bind]
    simp only [Step.start_get]
    rw [Step.start_bind, hfault]

theorem bind_eq_ok {ε α β : Type} {value : Except ε α} {next : α → Except ε β} {result : β}
    (h : value >>= next = .ok result) : ∃ a, value = .ok a ∧ next a = .ok result := by
  cases value with
  | error e => cases h
  | ok a => exact ⟨a, rfl, h⟩

theorem reply_eq_ok {message answer : Json} (h : Message.reply message = .ok answer) :
    ∃ id result, answer = Message.response id result := by
  unfold Message.reply at h
  obtain ⟨method, -, h⟩ := bind_eq_ok h
  obtain ⟨parameters, -, h⟩ := bind_eq_ok h
  obtain ⟨number, -, h⟩ := bind_eq_ok h
  split at h
  · split at h
    · obtain ⟨items, -, h⟩ := bind_eq_ok h
      obtain ⟨entries, -, h⟩ := bind_eq_ok h
      exact ⟨_, _, (Except.ok.inj h).symm⟩
    · exact ⟨_, _, (Except.ok.inj h).symm⟩
  · exact ⟨_, _, (Except.ok.inj h).symm⟩

theorem answerTo_eq_ok {room : Nesting} {message answer : Json}
    (h : answerTo room message = .ok answer) : Message.reply message = .ok answer := by
  unfold answerTo at h
  split at h
  · cases h
  · next answer' hreply =>
    have hsame : answer' = answer := by
      repeat' split at h
      all_goals cases h
      rfl
    exact hsame ▸ hreply

/-- What keeps an answer from being put into a message is no write that fails. -/
theorem answerTo_ne_write {room : Nesting} {message : Json} (fault : WriteFault) :
    answerTo room message ≠ .error (.write fault) := by
  unfold answerTo
  repeat' split
  all_goals nofun

theorem start_sendResponse (id : Nat) (message : Json) (f : Fleet) :
    (sendResponse id message).start f =
      match answerTo f.nesting message with
      | .ok answer =>
        (write id answer (((message.field? "method").map Json.display).getD "")).start f
      | .error fault => (.error fault, f) := by
  rw [sendResponse, Step.start_bind, Step.start_get]
  dsimp only
  rw [Step.start_bind]
  cases answerTo f.nesting message <;> rfl

/-- An answer that can be put into no message is not sent. -/
theorem sends_response (f : Fleet) (id : Nat) (message : Json) :
    (∃ fault, (∀ w, fault ≠ .write w) ∧ (sendResponse id message).start f = (.error fault, f)) ∨
      Sends f (sendResponse id message) id Neutral := by
  rw [Sends, start_sendResponse]
  cases hanswer : answerTo f.nesting message with
  | error fault =>
    refine .inl ⟨fault, ?_, rfl⟩
    rintro w rfl
    exact answerTo_ne_write w hanswer
  | ok answer =>
    obtain ⟨number, result, rfl⟩ := reply_eq_ok (answerTo_eq_ok hanswer)
    refine .inr fun l hl => ⟨fun htakes => ?_, fun hdead => start_write_of_dead hl hdead _ _⟩
    exact ⟨.reply number result, (), _, fun _ => rfl, start_write_of_takes hl htakes _ _,
      lines_deliver ..⟩

/-! ## Starting -/

theorem takes_of_writeFault?_eq_none {c : Connection} {method : String}
    (h : writeFault? c method = none) : c.line.Takes := by
  unfold writeFault? at h
  split at h
  · cases h
  · next hruns =>
    split at h
    · next hfault =>
      simp only [Bool.or_eq_true, Bool.not_eq_true', not_or, Bool.not_eq_false] at hruns
      exact ⟨hruns.2, hruns.1, hfault⟩
    · split at h <;> cases h

theorem start_sendStart_of_fault {c : Connection} {fault : Fault}
    (hc : f.connections[id]? = some c) (hfault : writeFault? c Method.start = some fault)
    (path : String) : (sendStart id path).start f = (.error fault, f) := by
  rw [sendStart, Step.start_bind]
  simp only [Step.start_get]
  rw [sendRequest, Step.start_bind]
  simp only [Step.start_get]
  rw [Step.start_bind, write, Step.start_bind]
  simp only [Step.start_get, hc, hfault, Step.start_throw]

theorem start_sendStart_of_takes {l : Line} (hl : f.lines[id]? = some l) (htakes : l.Takes)
    (path : String) :
    ∃ number m f', Neutral m ∧ (sendStart id path).start f = (.ok number, f') ∧
      f'.lines = f.lines.modify id fun l =>
        { l.receive m.frame with starts := l.starts + 1 } := by
  let number := ((f.client? id).map Client.nextId).getD 0
  let m : Outgoing := .start number (((f.client? id).map Client.name).getD "")
    ((f.client? id).bind Client.root)
  have hstart : (sendStart id path).start f =
      (.ok number, ((f.deliver id m.frame).modifyClient id (·.sent (.start path))).report
        .debug "lsp.request"
        [("client", (f.deliver id m.frame).nameOf id), ("method", Method.start),
          ("id", toString number)]) := by
    rw [sendStart, Step.start_bind]
    simp only [Step.start_get]
    rw [sendRequest, Step.start_bind]
    simp only [Step.start_get]
    rw [Step.start_bind, start_write_of_takes hl htakes]
    rfl
  refine ⟨number, m, _, fun _ => rfl, hstart, ?_⟩
  have hsent : ((f.deliver id m.frame).modifyClient id (·.sent (.start path))).lines =
      (f.deliver id m.frame).lines.modify id fun l => { l with starts := l.starts + 1 } :=
    lines_alter fun c _ => by
      simp [Connection.line, Client.sent, Client.starts, RequestKind.isStart]
  rw [lines_report, hsent, lines_deliver, List.modify_modify_eq]
  rfl

/-- What becomes of a start once the process was asked. -/
theorem start_spawn (f : Fleet) (name : String) (args : List String) (root : Option String)
    (path : String) (limit : Int) :
    (spawn name args root path limit).start f =
      let plan := f.plans.head?.getD {}
      let id := f.connections.length
      match plan.failure with
      | some fault => (.error (.pipe fault), { f with plans := f.plans.tail })
      | none =>
        let planned : Fleet :=
          { f with
            plans := f.plans.tail
            connections := f.connections ++ [connect plan name args root limit] }
        let asked := (sendStart id path).start
          (planned.report .info "lsp.spawn" [("client", name), ("root", root.getD "")])
        match asked.1 with
        | .error (.write fault) => (.error (.write fault), asked.2.terminate id)
        | .error fault => (.error fault, asked.2)
        | .ok _ =>
          (.ok id,
            ((asked.2.modifyClient id fun c => { c with reading := true }).settleReader id)
              |>.reportComplaints name plan.complaints) := by
  rw [spawn, Step.start_bind]
  simp only [Step.start_get]
  rw [Step.start_bind]
  simp only [Step.start_set]
  cases (f.plans.head?.getD {}).failure with
  | some fault => rfl
  | none =>
    simp only [Step.start_bind, Step.start_modify, Step.start_attempt]
    generalize (sendStart f.connections.length path).start _ = asked
    obtain ⟨outcome, f'⟩ := asked
    cases outcome with
    | ok number => rfl
    | error fault => cases fault <;> rfl

theorem lines_reportComplaints (f : Fleet) (name : String) (bytes : Bytes) :
    (f.reportComplaints name bytes).lines = f.lines := by
  unfold reportComplaints
  induction complaintLines bytes generalizing f with
  | nil => rfl
  | cons line rest ih =>
    rw [List.foldl_cons, ih]
    rfl

theorem begun_connect (plan : SpawnPlan) (name : String) (args : List String)
    (root : Option String) (limit : Int) : (connect plan name args root limit).line.Begun :=
  ⟨rfl, Nat.zero_le _, [], orderly_nil, rfl⟩

theorem untold_connect (plan : SpawnPlan) (name : String) (args : List String)
    (root : Option String) (limit : Int) : Untold (connect plan name args root limit).line :=
  ⟨[], by simp, rfl⟩

theorem untold_asked {l : Line} (h : Untold l) {m : Outgoing} (hneutral : Neutral m)
    (starts : Nat) : Untold { l.receive m.frame with starts } := by
  obtain ⟨messages, hmessages, hreceived⟩ := h
  refine ⟨messages ++ [m], fun m' hm' => ?_, ?_⟩
  · rcases List.mem_append.1 hm' with hold | hnew
    · exact hmessages m' hold
    · exact List.mem_singleton.1 hnew ▸ hneutral
  · rw [Line.receive, hreceived, List.map_append]
    rfl

/-- The request to start is the first that a new process gets. -/
theorem begun_asked {l : Line} (h : l.Begun) (hnone : l.starts = 0) {m : Outgoing}
    (hneutral : Neutral m) : ({ l.receive m.frame with starts := l.starts + 1 } : Line).Begun := by
  obtain ⟨messages, horderly, hreceived⟩ := h.received
  refine ⟨h.state, Nat.le_of_eq (congrArg (· + 1) hnone), messages ++ [m], ?_, ?_⟩
  · apply horderly.append
    intro uri version changes hm
    have hversion := hneutral uri
    rw [hm, Outgoing.version?, if_pos rfl] at hversion
    cases hversion
  · rw [Line.receive, hreceived, List.map_append]
    rfl

/-- The reader of a process begins, and takes what there is. -/
theorem wane_attend (f : Fleet) (id : Nat) :
    Wane f.lines
      ((f.modifyClient id fun c => { c with reading := true }).settleReader id).lines := by
  apply Wane.trans _ (wane_runReader _ _ _)
  exact wane_modifyClient fun c _ => ⟨.inl rfl, Nat.le_refl _⟩

/-- A start adds a line for its process, if there is one, and lets lines wane.  When it goes well
the line can be written to. -/
theorem spawn_spec (f : Fleet) (name : String) (args : List String) (root : Option String)
    (path : String) (limit : Int) :
    ∃ begun : List Line, (∀ l ∈ begun, l.Begun ∧ Untold l) ∧
      Wane (f.lines ++ begun) ((spawn name args root path limit).start f).2.lines ∧
      ∀ id, ((spawn name args root path limit).start f).1 = .ok id →
        id = f.lines.length ∧ ∃ l, begun = [l] ∧ l.Takes := by
  rw [start_spawn]
  dsimp only
  generalize f.plans.head?.getD {} = plan
  have hnumber : f.connections.length = f.lines.length := (List.length_map ..).symm
  rw [hnumber]
  cases plan.failure with
  | some fault =>
    refine ⟨[], by simp, ?_, fun id hid => by cases hid⟩
    rw [List.append_nil]
    exact Wane.refl _
  | none =>
    dsimp only
    generalize hspawned : report _ .info "lsp.spawn" _ = spawned
    let c := connect plan name args root limit
    have hbegun : c.line.Begun := begun_connect plan name args root limit
    have huntold : Untold c.line := untold_connect plan name args root limit
    have hc : spawned.connections[f.lines.length]? = some c := by
      rw [← hspawned, ← hnumber]
      exact List.getElem?_concat_length
    have hlines : spawned.lines = f.lines ++ [c.line] := by
      rw [← hspawned]
      exact List.map_append
    cases hfault : writeFault? c Method.start with
    | some fault =>
      rw [start_sendStart_of_fault hc hfault path]
      refine ⟨[c.line], by simpa using ⟨hbegun, huntold⟩, ?_, ?_⟩
      · rw [← hlines]
        cases fault <;> first | exact wane_terminate _ _ | exact Wane.refl _
      · intro id hid
        cases fault <;> cases hid
    | none =>
      have htakes := takes_of_writeFault?_eq_none hfault
      have hlast : spawned.lines[f.lines.length]? = some c.line := by
        rw [hlines, List.getElem?_concat_length]
      obtain ⟨number, m, f', hneutral, hstart, hasked⟩ :=
        start_sendStart_of_takes hlast htakes path
      rw [hstart]
      refine ⟨[{ c.line.receive m.frame with starts := c.line.starts + 1 }], ?_, ?_, ?_⟩
      · simpa using ⟨begun_asked hbegun rfl hneutral, untold_asked huntold hneutral _⟩
      · have hbegin : f'.lines =
            f.lines ++ [{ c.line.receive m.frame with starts := c.line.starts + 1 }] := by
          rw [hasked, hlines, List.modify_eq_take_drop]
          simp
        rw [lines_reportComplaints, ← hbegin]
        exact wane_attend f' _
      · intro id hid
        exact ⟨(Except.ok.inj hid).symm, _, rfl, htakes⟩

end Fleet

end TextEditor.Server
