import TextEditor.Proofs.Server.Passages
import TextEditor.Proofs.Server.Shapes

/-!
# Draining the queue

Whatever bytes the servers send, a drain takes all events off the queue, unless it is stopped: by a
message in which something that is read has another shape, is nested more deeply than there is room
for, or is no text and is to be sent back; or by a pipe that fails in a way that is not expected of
pipes.  It is stopped behind the event at which that happens.
-/

namespace TextEditor.Server

/-- Writing to a process fails in a way that is not expected of pipes. -/
def Fleet.Breaks (f : Fleet) (fault : PipeFault) : Prop :=
  fault.isExpected = false ∧
    ∃ (id : Nat) (c : Connection), f.connections[id]? = some c ∧ c.process.inputFault = some fault

/-- The queue and the room are left alone, and no pipe breaks. -/
structure Fleet.Spares (f f' : Fleet) : Prop where
  queue : f'.queue = f.queue
  room : f'.nesting = f.nesting
  breaks : ∀ fault, f'.Breaks fault → f.Breaks fault

theorem Fleet.Spares.refl (f : Fleet) : f.Spares f :=
  ⟨rfl, rfl, fun _ h => h⟩

theorem Fleet.Spares.trans {f f' f'' : Fleet} (h : f.Spares f') (h' : f'.Spares f'') :
    f.Spares f'' :=
  ⟨h'.queue.trans h.queue, h'.room.trans h.room,
    fun fault hbreaks => h.breaks fault (h'.breaks fault hbreaks)⟩

theorem Fleet.spares_alter (f : Fleet) (id : Nat) {change : Connection → Connection}
    (hchange : ∀ c, (change c).process.inputFault = c.process.inputFault) :
    f.Spares (f.alter id change) := by
  refine ⟨rfl, rfl, ?_⟩
  rintro fault ⟨hunexpected, i, c', hc', hfault⟩
  refine ⟨hunexpected, i, ?_⟩
  rw [connections_alter] at hc'
  split at hc'
  · obtain ⟨c, hc, rfl⟩ := Option.map_eq_some_iff.1 hc'
    exact ⟨c, hc, (hchange c).symm.trans hfault⟩
  · exact ⟨c', hc', hfault⟩

theorem Fleet.spares_report (f : Fleet) (level : Level) (name : String) (data : Pairs) :
    f.Spares (f.report level name data) :=
  ⟨rfl, rfl, fun _ h => h⟩

variable {room : Nesting} {terms : Terms}

/-- A pipe breaks, or a message does not meet one of the terms. -/
def Fleet.Stops (f : Fleet) (terms : Terms) (fault : Fault) : Prop :=
  (∃ p, fault = .pipe p ∧ f.Breaks p) ∨ Improper terms fault

theorem Fleet.Spares.stops {f f' : Fleet} {fault : Fault} (h : f.Spares f')
    (hstops : f'.Stops terms fault) : f.Stops terms fault :=
  hstops.imp_left fun ⟨p, hp, hbreaks⟩ => ⟨p, hp, h.breaks p hbreaks⟩

/-- What a step on the fleet may do where there is that room: messages may be lost as well. -/
def Fleet.bounds (room : Nesting) (terms : Terms) : Step.Bounds Fleet where
  leads := Fleet.Spares
  fails f fault := f.nesting = room → (∃ w, fault = .write w) ∨ f.Stops terms fault
  refl := .refl
  trans := .trans
  back hspares hfails hroom :=
    (hfails (hspares.room.trans hroom)).imp_right hspares.stops

/-- What a step on the hub may do while events are handled where there is that room. -/
def Hub.bounds (room : Nesting) (terms : Terms) : Step.Bounds Hub where
  leads h h' := h.fleet.Spares h'.fleet
  fails h fault := h.fleet.nesting = room → h.fleet.Stops terms fault
  refl _ := .refl _
  trans := .trans
  back hspares hfails hroom := hspares.stops (hfails (hspares.room.trans hroom))

namespace Fleet

/-! ## Writing -/

theorem within_write (id : Nat) (message : Json) (method : String) :
    Step.Within (bounds room terms) (write id message method) := by
  intro f
  rw [write, Step.start_bind, Step.start_get]
  dsimp only
  cases hc : f.connections[id]? with
  | none =>
    refine ⟨.refl f, fun fault hfault _ => ?_⟩
    obtain rfl := Except.error.inj hfault
    exact .inl ⟨_, rfl⟩
  | some c =>
    dsimp only
    cases hfault : writeFault? c method with
    | none =>
      have hreceived : f.Spares (f.modifyProcess id fun p =>
          { p with received := p.received ++ [Frame.encodeJson message] }) :=
        spares_alter f id fun _ => rfl
      exact ⟨hreceived.trans ⟨rfl, rfl, fun _ h => h⟩, fun fault hfault => by cases hfault⟩
    | some fault =>
      refine ⟨.refl f, fun fault' hfault' _ => ?_⟩
      obtain rfl := Except.error.inj hfault'
      rcases writeFault?_cases hfault with ⟨w, rfl⟩ | ⟨p, rfl, hunexpected, hinput⟩
      · exact .inl ⟨w, rfl⟩
      · exact .inr (.inl ⟨p, rfl, hunexpected, id, c, hc, hinput⟩)

theorem within_sendNotification (id : Nat) (method : String) (params : Option Json) :
    Step.Within (bounds room terms) (sendNotification id method params) :=
  Step.Within.bind (within_write id _ method) fun _ =>
    Step.Within.modify fun f => spares_report f _ _ _

theorem within_sendRequest (id : Nat) (method : String) (params : Option Json)
    (kind : RequestKind) : Step.Within (bounds room terms) (sendRequest id method params kind) := by
  refine Step.Within.get_bind fun f => Step.Within.bind (within_write id _ method) fun _ => ?_
  refine Step.Within.bind (Step.Within.modify fun f => ?_) fun _ => Step.Within.pure _
  have hsent : f.Spares (f.modifyClient id (·.sent kind)) := spares_alter f id fun _ => rfl
  exact hsent.trans (spares_report _ _ _ _)

theorem within_sendResponse (id : Nat) {fields : List (Json.Literal × Json)}
    (hshaped : terms.shaped → Message.isRequestShaped (.obj fields) = true)
    (hroomy : terms.roomy → Message.isAnswerable room (.obj fields) = true)
    (htext : terms.text → ((Json.obj fields).part "id").isWhole = true) :
    Step.Within (bounds room terms) (sendResponse id (.obj fields)) := by
  intro f
  rw [start_sendResponse]
  cases hanswer : answerTo f.nesting (.obj fields) with
  | ok answer => exact within_write id answer _ f
  | error fault =>
    refine ⟨.refl f, fun fault' hfault hroom => ?_⟩
    obtain rfl := Except.error.inj hfault
    exact .inr (.inr (improper_of_answerTo hshaped (hroom ▸ hroomy) htext hanswer))

end Fleet

namespace Hub

/-- What is read of a message of its shape is there. -/
theorem within_ofExcept {α : Type} {value : Except ShapeFault α}
    (hvalue : terms.shaped → ∃ a, value = .ok a) :
    Step.Within (bounds room terms) (Step.ofExcept .shape value : Step Hub α) := by
  refine Step.Within.ofExcept fun shape hshape h _ => .inr (.shape (fun hall => ?_) shape)
  obtain ⟨a, ha⟩ := hvalue hall
  cases ha.symm.trans hshape

/-- What there is room for is shown. -/
theorem within_shown {value : Json} (hroomy : terms.roomy → value.nesting 1 ≤ room.reported) :
    Step.Within (bounds room terms) (shown value) := by
  intro h
  rw [start_shown]
  refine ⟨.refl h.fleet, fun fault hfault hroom => .inr ?_⟩
  dsimp only at hfault
  split at hfault
  · next hdeep =>
    obtain rfl := Except.error.inj hfault
    exact .nesting fun hall => Nat.not_le.2 hdeep (hroom ▸ hroomy hall)
  · cases hfault

theorem within_modify {f : Hub → Hub} (hf : ∀ h, (f h).fleet = h.fleet) :
    Step.Within (bounds room terms) (modify f) :=
  Step.Within.modify fun h => by
    change h.fleet.Spares (f h).fleet
    rw [hf h]
    exact .refl h.fleet

theorem within_report (level : Level) (name : String) (data : Hub → TextEditor.Pairs) :
    Step.Within (bounds room terms) (modify fun h => h.report level name (data h)) :=
  Step.Within.modify fun h => Fleet.spares_report h.fleet level name (data h)

theorem within_guarded (s : Session) {step : Step Fleet Unit}
    (hstep : Step.Within (Fleet.bounds room terms) step) :
    Step.Within (bounds room terms) (guarded s step) := by
  intro h
  rw [guarded, Step.start_bind, Step.start_attempt, onFleet, Step.start_zoom]
  obtain ⟨hspares, hfails⟩ := hstep h.fleet
  generalize step.start h.fleet = result at hspares hfails ⊢
  obtain ⟨outcome, f⟩ := result
  cases outcome with
  | ok done => exact ⟨hspares, fun fault hfault => by cases hfault⟩
  | error fault =>
    cases fault with
    | write w =>
      exact ⟨hspares.trans ⟨rfl, rfl, fun _ h => h⟩, fun fault hfault => by cases hfault⟩
    | _ =>
      refine ⟨hspares, fun fault' hfault' hroom => ?_⟩
      obtain rfl := Except.error.inj hfault'
      rcases hfails _ rfl hroom with ⟨w, hw⟩ | hother
      · cases hw
      · exact hother

theorem fleet_alterSession (h : Hub) (language : String) (change : Session → Session) :
    (h.alterSession language change).fleet = h.fleet := by
  unfold alterSession
  split <;> rfl

/-! ## Answers -/

theorem within_requestTokens (s : Session) (document : TrackedDocument) :
    Step.Within (bounds room terms) (requestTokens s document) := by
  refine Step.Within.bind (within_guarded s ?_) fun _ => Step.Within.pure _
  exact Step.Within.bind (Fleet.within_sendRequest _ _ _ _) fun _ => Step.Within.pure _

theorem within_announce (s : Session) (uri : String) :
    Step.Within (bounds room terms) (announce s uri) := by
  refine Step.Within.get_bind fun h => ?_
  cases h.document? s.language uri with
  | none => exact Step.Within.pure _
  | some document =>
  refine Step.Within.bind (within_modify fun _ => rfl) fun _ => Step.Within.get_bind fun h => ?_
  cases h.buffers[document.buffer]? with
  | none => exact Step.Within.pure _
  | some b =>
  refine Step.Within.bind (within_guarded s (Fleet.within_sendNotification _ _ _)) fun opened => ?_
  cases opened with
  | false => exact Step.Within.pure _
  | true =>
    exact Step.Within.bind (within_modify fun h => fleet_alterSession h _ _) fun _ =>
      within_requestTokens s document

theorem within_initiate (s : Session) {result : Json}
    (hshaped : terms.shaped → Message.isStartShaped result = true) :
    Step.Within (bounds room terms) (initiate s result) := by
  refine Step.Within.bind (within_ofExcept fun hall =>
    Message.exists_negotiatedEncoding (hshaped hall)) fun encoding => ?_
  refine Step.Within.bind (Step.Within.modify fun h => ?_) fun _ => Step.Within.get_bind fun h => ?_
  · exact Fleet.spares_alter h.fleet s.client fun _ => rfl
  cases h.sessions.find? s.language with
  | none => exact Step.Within.pure _
  | some s =>
  refine Step.Within.bind (within_report _ _ _) fun _ => ?_
  refine Step.Within.bind (within_guarded s (Fleet.within_sendNotification _ _ _)) fun told => ?_
  cases told with
  | false => exact Step.Within.pure _
  | true => exact Step.Within.forM fun entry => within_announce s entry.1

/-- What comes of a step within bounds when the fleet was spared before it. -/
theorem within_of_spares {α : Type} {step : Step Hub α}
    (hstep : Step.Within (bounds room terms) step) {h h' : Hub} (hspares : h.fleet.Spares h'.fleet) :
    (bounds room terms).leads h (step.start h').2 ∧
      ∀ fault, (step.start h').1 = .error fault → (bounds room terms).fails h fault := by
  obtain ⟨hleads, hfails⟩ := hstep h'
  refine ⟨hspares.trans hleads, fun fault hfault => ?_⟩
  exact (bounds room terms).back hspares (hfails fault hfault)

theorem within_handleStarted (s : Session) {result : Json}
    (hshaped : terms.shaped → Message.isStartShaped result = true) :
    Step.Within (bounds room terms) (handleStarted s result) := by
  intro h
  rw [start_handleStarted]
  cases hnames : Message.tokenTypes result with
  | error shape =>
    refine ⟨.refl h.fleet, fun fault hfault _ => .inr ?_⟩
    obtain rfl := Except.error.inj hfault
    refine .shape (fun hall => ?_) shape
    obtain ⟨names, hok⟩ := Message.exists_tokenTypes (hshaped hall)
    cases hok.symm.trans hnames
  | ok legend =>
    dsimp only
    refine within_of_spares (within_initiate s hshaped) ?_
    split
    · rw [fleet_alterSession]
      exact .refl h.fleet
    · exact .refl h.fleet

theorem exists_tokensIn (legend : List String) {message : Json}
    (h : Message.isTokensShaped (message.part "result") = true) :
    ∃ tokens, tokensIn legend message = .ok tokens := by
  have hpart : (message.field? "result").getD .null = message.part "result" := rfl
  rw [Message.isTokensShaped] at h
  rw [tokensIn, hpart]
  cases hresult : message.part "result" with
  | obj fields =>
    rw [hresult] at h
    dsimp only
    rw [Json.member_obj]
    dsimp only [bind, Except.bind]
    cases hitems : ((Json.obj fields).part "data").itemsOrNone with
    | error fault =>
      rw [hitems] at h
      cases h
    | ok items =>
      rw [hitems] at h
      obtain ⟨hnumbered, hsums⟩ := Bool.and_eq_true_iff.1 h
      exact SemanticToken.exists_decode legend hnumbered hsums
  | _ => exact SemanticToken.exists_decode legend rfl rfl

theorem within_handleTokens (s : Session) (uri : String) (version : Int) {message : Json}
    (hshaped : terms.shaped → Message.isTokensShaped (message.part "result") = true) :
    Step.Within (bounds room terms) (handleTokens s uri version (message.part "result")) := by
  intro h
  cases hd : s.documents.find? uri with
  | none =>
    unfold handleTokens
    rw [hd]
    exact within_report _ _ _ h
  | some d =>
  by_cases hversion : d.version = version
  · subst hversion
    have hstart := start_handleTokens hd message h
    change (handleTokens s uri d.version (message.part "result")).start h = _ at hstart
    rw [hstart]
    cases htokens : tokensIn s.legend message with
    | error shape =>
      refine ⟨.refl h.fleet, fun fault hfault _ => .inr ?_⟩
      obtain rfl := Except.error.inj hfault
      refine .shape (fun hall => ?_) shape
      obtain ⟨tokens, hok⟩ := exists_tokensIn s.legend (hshaped hall)
      cases hok.symm.trans htokens
    | ok tokens =>
      refine ⟨?_, nofun⟩
      change h.fleet.Spares (h.alterSession s.language _).fleet
      rw [fleet_alterSession]
      exact .refl h.fleet
  · unfold handleTokens
    rw [hd]
    dsimp only
    rw [if_pos hversion]
    exact within_report _ _ _ h

theorem within_errorPart {error : Json} {name : String}
    (hshaped : terms.shaped → error.isOpen = true)
    (hroomy : terms.roomy → (error.orEmpty.part name).nesting 1 ≤ room.reported) :
    Step.Within (bounds room terms) (errorPart error.orEmpty name) := by
  unfold errorPart
  cases hmember : error.orEmpty.member name with
  | error shape =>
    refine fun h => ⟨.refl h.fleet, fun fault hfault _ => .inr ?_⟩
    obtain rfl := Except.error.inj hfault
    refine .shape (fun hall => ?_) shape
    cases (Json.member_orEmpty (hshaped hall) name).symm.trans hmember
  | ok value =>
    obtain rfl := Json.part_of_member hmember
    intro h
    rw [Step.start_bind, Step.start_ofExcept_ok]
    dsimp only
    split
    · exact within_shown hroomy h
    · exact Step.Within.pure _ h

theorem within_settle (s : Session) (name : String) {message : Json} (kind : RequestKind)
    (hmethod : message.field? "method" = none)
    (hshaped : terms.shaped → Message.isShaped message = true)
    (hroomy : terms.roomy → Message.isRoomy room message = true) :
    Step.Within (bounds room terms) (settle s name message kind) := by
  unfold Message.isShaped at hshaped
  unfold Message.isRoomy at hroomy
  rw [hmethod] at hshaped hroomy
  unfold settle
  cases herror : message.field? "error" with
  | some error =>
    rw [herror] at hshaped hroomy
    simp only [Bool.and_eq_true, decide_eq_true_eq] at hroomy
    refine Step.Within.bind (within_errorPart hshaped fun hall => (hroomy hall).1) fun code => ?_
    exact Step.Within.bind (within_errorPart hshaped fun hall => (hroomy hall).2) fun text =>
      within_report _ _ _
  | none =>
    rw [herror] at hshaped
    simp only [Bool.and_eq_true] at hshaped
    cases kind with
    | start path => exact within_handleStarted s fun hall => (hshaped hall).1
    | tokens uri version => exact within_handleTokens s uri version fun hall => (hshaped hall).2

/-! ## Events -/

theorem spares_popRequest (f : Fleet) (id : Nat) (number : Int) :
    f.Spares (f.popRequest id number).2 := by
  unfold Fleet.popRequest
  split
  · exact .refl f
  · exact Fleet.spares_alter f id fun _ => rfl

theorem within_handleAnswer (s : Session) (name : String) {message : Json}
    (hmethod : message.field? "method" = none)
    (hshaped : terms.shaped → Message.isShaped message = true)
    (hroomy : terms.roomy → Message.isRoomy room message = true) :
    Step.Within (bounds room terms) (handleAnswer s name message) := by
  intro h
  cases hnumber : numberOf message with
  | none =>
    rw [start_handleAnswer_of_number_none hnumber]
    exact ⟨.refl h.fleet, nofun⟩
  | some number =>
  have hspares := spares_popRequest h.fleet s.client number
  cases hkind : (h.fleet.popRequest s.client number).1 with
  | none =>
    rw [start_handleAnswer_of_kind_none hnumber hkind]
    exact ⟨hspares, nofun⟩
  | some kind =>
    rw [start_handleAnswer_of_kind hnumber hkind]
    exact within_of_spares (within_settle s name kind hmethod hshaped hroomy) hspares

theorem within_handleMessage (s : Session) (name : String) {fields : List (Json.Literal × Json)}
    (hshaped : terms.shaped → Message.isShaped (.obj fields) = true)
    (hroomy : terms.roomy → Message.isRoomy room (.obj fields) = true)
    (htext : terms.text → Message.isText (.obj fields) = true) :
    Step.Within (bounds room terms) (handleMessage s name (.obj fields)) := by
  unfold handleMessage
  cases hmethod : (Json.obj fields).field? "method" with
  | none => exact within_handleAnswer s name hmethod hshaped hroomy
  | some method =>
    unfold Message.isShaped at hshaped
    unfold Message.isRoomy at hroomy
    unfold Message.isText at htext
    rw [hmethod] at hshaped hroomy htext
    dsimp only at hroomy ⊢
    split
    · next hid =>
      rw [if_pos hid] at hroomy
      refine Step.Within.bind (within_guarded s (Fleet.within_sendResponse _ (fun hall => ?_)
        hroomy htext)) fun _ => Step.Within.pure _
      have hrequest := hshaped hall
      rwa [Option.isNone_eq_false_iff.2 hid, Bool.false_or] at hrequest
    · next hid =>
      rw [if_neg hid] at hroomy
      exact Step.Within.bind (within_shown fun hall => of_decide_eq_true (hroomy hall)) fun text =>
        within_report _ _ _

/-- What is asked of an object: it has its shape, there is room for what is shown or sent back of
it, and what is sent back is text. -/
def termsOfMessage (room : Nesting) (message : Json) : Terms where
  shaped := Message.isShaped message
  roomy := Message.isRoomy room message
  text := Message.isText message

/-- What is asked of a body: there is room to read it, and an object that is read of it meets its
own terms. Any other value is passed over. -/
def termsOf (room : Nesting) (payload : Bytes) : Terms :=
  match readBody payload (some room.read) with
  | .error .nesting => { roomy := false }
  | .ok (.obj fields) => termsOfMessage room (.obj fields)
  | _ => {}

theorem start_handleResponse (name : String) (payload : Bytes) (h : Hub) :
    h.fleet.Spares ((handleResponse name payload).start h).2.fleet ∧
      ∀ fault, ((handleResponse name payload).start h).1 = .error fault →
        h.fleet.Stops (termsOf h.fleet.nesting payload) fault := by
  rw [handleResponse, Step.start_bind, Step.start_get]
  dsimp only
  cases h.sessionOfClient? name with
  | none => exact ⟨.refl h.fleet, fun fault hfault => by cases hfault⟩
  | some s =>
  dsimp only
  unfold termsOf
  cases readBody payload (some h.fleet.nesting.read) with
  | error fault =>
    cases fault with
    | nesting =>
      refine ⟨.refl h.fleet, fun fault hfault => .inr ?_⟩
      obtain rfl := Except.error.inj hfault
      exact .nesting Bool.false_ne_true
    | invalid reason =>
      exact ⟨Fleet.spares_report h.fleet _ _ _, fun fault hfault => by cases hfault⟩
  | ok value =>
  cases value with
  | obj fields =>
    have hwithin :
        Step.Within (bounds h.fleet.nesting (termsOfMessage h.fleet.nesting (.obj fields)))
          (handleMessage s name (.obj fields)) :=
      within_handleMessage s name id id id
    obtain ⟨hspares, hfails⟩ := hwithin h
    exact ⟨hspares, fun fault hfault => hfails fault hfault rfl⟩
  | _ => exact ⟨.refl h.fleet, fun fault hfault => by cases hfault⟩

theorem spares_handleCrash (h : Hub) (client reason : String) :
    h.fleet.Spares (h.handleCrash client reason).fleet := by
  obtain ⟨data, hcrash⟩ := handleCrash_eq h client reason
  have hletGo : (h.letGo client).fleet = h.fleet := by
    unfold letGo
    split
    · split
      · exact fleet_release h _
      · rfl
    · rfl
  have hreported := Fleet.spares_report (h.letGo client).fleet .error "lsp.session_lost" data
  rw [hletGo] at hreported
  rw [hcrash, noteCrash]
  split
  · exact hletGo ▸ hreported
  · exact hletGo ▸ hreported

/-- What is asked of an event; nothing is of a crash. -/
def termsFor (room : Nesting) : Event → Terms
  | .response _ payload => termsOf room payload
  | .crash _ _ => {}

/-- The first event is taken off the queue, whatever comes of it. -/
theorem start_handleNext_cons {h : Hub} {event : Event} {rest : List Event}
    (hqueue : h.fleet.queue = event :: rest) :
    (handleNext.start h).2.fleet.queue = rest ∧
      (handleNext.start h).2.fleet.nesting = h.fleet.nesting ∧
      (∀ fault, (handleNext.start h).2.fleet.Breaks fault → h.fleet.Breaks fault) ∧
      ∀ fault, (handleNext.start h).1 = .error fault →
        h.fleet.Stops (termsFor h.fleet.nesting event) fault := by
  rw [handleNext, Step.start_bind, Step.start_get]
  dsimp only
  rw [hqueue]
  dsimp only
  rw [Step.start_bind, Step.start_modify]
  cases event with
  | crash client reason =>
    have hspares :=
      spares_handleCrash { h with fleet := { h.fleet with queue := rest } } client reason
    exact ⟨hspares.queue, hspares.room, hspares.breaks, fun fault hfault => by cases hfault⟩
  | response client payload =>
    obtain ⟨hspares, hstops⟩ := start_handleResponse client payload
      { h with fleet := { h.fleet with queue := rest } }
    exact ⟨hspares.queue, hspares.room, hspares.breaks, hstops⟩

/-- As many events are handled as there are, or one of them stops it. -/
theorem start_forM_handleNext (turns : List Nat) {h : Hub}
    (hlength : turns.length = h.fleet.queue.length) :
    (∃ h', (turns.forM fun _ => handleNext).start h = (.ok ⟨⟩, h') ∧ h'.fleet.queue = []) ∨
    ∃ earlier event rest fault h', h.fleet.queue = earlier ++ event :: rest ∧
      (turns.forM fun _ => handleNext).start h = (.error fault, h') ∧ h'.fleet.queue = rest ∧
      h.fleet.Stops (termsFor h.fleet.nesting event) fault := by
  induction turns generalizing h with
  | nil => exact .inl ⟨h, rfl, List.length_eq_zero_iff.1 hlength.symm⟩
  | cons turn turns ih =>
    cases hqueue : h.fleet.queue with
    | nil =>
      rw [hqueue] at hlength
      cases hlength
    | cons event rest =>
    rw [hqueue] at hlength
    obtain ⟨hrest, hroom, hbreaks, hstops⟩ := start_handleNext_cons hqueue
    rw [List.forM, Step.start_bind]
    generalize handleNext.start h = result at hrest hroom hbreaks hstops ⊢
    obtain ⟨outcome, h₁⟩ := result
    cases outcome with
    | error fault => exact .inr ⟨[], event, rest, fault, h₁, rfl, rfl, hrest, hstops fault rfl⟩
    | ok done =>
      have hleft : turns.length = h₁.fleet.queue.length := by
        rw [show h₁.fleet.queue = rest from hrest]
        exact Nat.succ.inj hlength
      rcases ih hleft with hdone | ⟨earlier, event', rest', fault, h', hqueue', hstart, hleft',
        hstops'⟩
      · exact .inl hdone
      · refine .inr ⟨event :: earlier, event', rest', fault, h', ?_, hstart, hleft', ?_⟩
        · exact congrArg (event :: ·) (hrest.symm.trans hqueue')
        · rw [← show h₁.fleet.nesting = h.fleet.nesting from hroom]
          obtain ⟨p, hp, hbroken⟩ | himproper := hstops'
          · exact .inl ⟨p, hp, hbreaks p hbroken⟩
          · exact .inr himproper

/-- From every state and whatever bytes the responses are, a drain handles all events of the queue
and tells how many there were; or it is stopped at one of them, which is off the queue with all
those before it.  That happens only if a pipe fails in a way that is not expected, or the event is a
message that does not meet one of its terms, and it is that one which the fault tells of. -/
theorem drained_or_stopped (h : Hub) :
    (∃ h', drain.start h = (.ok h.fleet.queue.length, h') ∧ h'.fleet.queue = []) ∨
    ∃ earlier event rest fault h', h.fleet.queue = earlier ++ event :: rest ∧
      drain.start h = (.error fault, h') ∧ h'.fleet.queue = rest ∧
      ((∃ p, fault = .pipe p ∧ h.fleet.Breaks p) ∨
        Improper (termsFor h.fleet.nesting event) fault) := by
  rw [drain, Step.start_bind, Step.start_get]
  dsimp only
  rw [Step.start_bind]
  have hloop := start_forM_handleNext (List.range h.fleet.queue.length) (h := h) List.length_range
  rcases hloop with ⟨h', hstart, hqueue⟩ | ⟨earlier, event, rest, fault, h', hqueue, hstart, hrest,
    hstops⟩
  · exact .inl ⟨h', by rw [hstart]; rfl, hqueue⟩
  · exact .inr ⟨earlier, event, rest, fault, h', hqueue, by rw [hstart], hrest, hstops⟩

/-- Messages in which one member has another shape stop the drain that handles them: an error that
is no object, capabilities, a provider or a legend that are none, parameters of a request or what
they hold, and tokens that are no list or no numbers. -/
theorem stopped_by_shape :
    let started : Hub :=
      Hub.after { settings := {}, root := none, fleet := { capacity := 4 } }
        [.turn (.deed (.create "/a.rs" ['x'] 24 80 {})) nofun,
          .turn (.deed (.openDocument 0)) nofun]
    let answer := Utf8.encode "\x7b\"id\":0,\"result\":null\x7d".toList
    let ready : Hub :=
      started.after [.turn (.deed (.post (.response "rust-analyzer" answer))) nofun, .handle]
    let capable (capabilities : String) : String :=
      "\x7b\"id\":0,\"result\":\x7b\"capabilities\":" ++ capabilities ++ "\x7d\x7d"
    let stops (h : Hub) (text : String) (shape : ShapeFault) : Bool :=
      let body := Utf8.encode text.toList
      let h := h.act (.post (.response "rust-analyzer" body))
      !(termsOf h.fleet.nesting body).shaped && h.fleet.queue.length = 1 &&
        match (drain.start h).1 with
        | .error (.shape fault) => fault = shape
        | _ => false
    (∀ row ∈
      [("\x7b\"id\":0,\"error\":\"boom\"\x7d", .members),
        (capable "1", .members), (capable "\x7b\"semanticTokensProvider\":true\x7d", .members),
        (capable "\x7b\"semanticTokensProvider\":\x7b\"legend\":[1]\x7d\x7d", .members),
        ("\x7b\"id\":1,\"method\":\"workspace/configuration\",\"params\":[1]\x7d", .members),
        ("\x7b\"id\":1,\"method\":\"workspace/configuration\",\"params\":\x7b\"items\":1\x7d\x7d",
          .operation)],
      stops started row.1 row.2 = true) ∧
    ∀ row ∈
      [("\x7b\"id\":1,\"result\":\x7b\"data\":1\x7d\x7d", .operation),
        ("\x7b\"id\":1,\"result\":\x7b\"data\":[\"a\",0,1,0,0]\x7d\x7d", .operation)],
      stops ready row.1 row.2 = true := by
  decide +kernel

/-- The other terms: half of a pair in the number of a request, and more lists than there is room
for. -/
example :
    let started : Hub :=
      Hub.after
        { settings := {}, root := none, fleet := { capacity := 4, nesting := { read := 3 } } }
        [.turn (.deed (.create "/a.rs" ['x'] 24 80 {})) nofun,
          .turn (.deed (.openDocument 0)) nofun]
    let stop (text : String) : Option Fault :=
      let body := Utf8.encode text.toList
      match (drain.start (started.act (.post (.response "rust-analyzer" body)))).1 with
      | .error fault => some fault
      | .ok _ => none
    stop "\x7b\"id\":\"\\ud800\",\"method\":\"x\"\x7d" = some .halves ∧
      stop "[[[]]]" = none ∧ stop "[[[[]]]]" = some .nesting := by
  decide +kernel

end Hub

end TextEditor.Server
