import TextEditor.Proofs.Server.Sessions

/-!
# Hearing from the servers

Whatever a server sends, and in whatever order, the account stays in order.  The answer to its start
makes a server ready: until it was told of them all, its documents are out of account, and each
announcement takes one in.
-/

namespace TextEditor.Server.Hub

variable {since : Past} {out : String → String → Prop}
variable {h : Hub} {s : Session} {client : String}

theorem accounts_of_face {h' : Hub} (haccounts : h.Accounts since out) (hface : h'.face = h.face) :
    h'.Accounts since out := by
  obtain ⟨streams, haccount⟩ := haccounts
  exact ⟨streams, hface ▸ haccount⟩

theorem mem_of_sessionOfClient? (hs : h.sessionOfClient? client = some s) :
    s ∈ h.sessions.values :=
  List.mem_of_find?_eq_some hs

/-! ## Crashes -/

/-- The hub in which no server follows the documents of a server that crashed. -/
def letGo (h : Hub) (client : String) : Hub :=
  match h.sessionOfClient? client with
  | some s => if h.stateOf s = ClientState.crashed then h.release s.documents.values else h
  | none => h

/-- The hub in which a crash is noted. -/
def noteCrash (h : Hub) (client reason : String) : Hub :=
  if h.notesCrashes then { h with crashes := h.crashes ++ [(client, reason)] } else h

theorem handleCrash_eq (h : Hub) (client reason : String) :
    ∃ data, h.handleCrash client reason =
      ((h.letGo client).report .error "lsp.session_lost" data).noteCrash client reason :=
  ⟨_, rfl⟩

theorem accounts_letGo (haccounts : h.Accounts since nothing) (client : String) :
    (h.letGo client).Accounts since nothing := by
  unfold letGo
  cases hs : h.sessionOfClient? client with
  | none => exact haccounts
  | some s =>
    dsimp only
    split
    · next hcrashed =>
      apply accounts_release haccounts
      intro d hd
      obtain ⟨⟨uri, d'⟩, hmem, rfl⟩ := List.mem_map.1 hd
      obtain ⟨streams, haccount⟩ := haccounts
      have hfind := haccount.regular.find?_of_mem_values (mem_of_sessionOfClient? hs)
      refine idle_of_placed haccount (fun s' hs' hready => ?_)
        (haccount.placed s.language s uri d' hfind hmem)
      obtain rfl : s = s' := Option.some.inj (hfind.symm.trans hs')
      rw [hready] at hcrashed
      cases hcrashed
    · exact haccounts

/-! ## The start -/

/-- The documents of a session are announced one by one. -/
theorem start_announceAll {entries : List (String × TrackedDocument)}
    (haccounts : h.Accounts since fun language uri =>
      language = s.language ∧ uri ∈ entries.map Prod.fst)
    (hserves : h.face.Serves s) :
    ((entries.forM fun entry => announce s entry.1).start h).2.Accounts since nothing := by
  induction entries generalizing h with
  | nil =>
    exact accounts_of_face (h := h) (by
      obtain ⟨streams, haccount⟩ := haccounts
      exact ⟨streams, haccount.suspend _ fun language uri hin => by simp at hin⟩) rfl
  | cons entry rest ih =>
    obtain ⟨h', hstart, haccounts', hkeeps⟩ := start_announce haccounts
      (fun language uri => language = s.language ∧ uri ∈ rest.map Prod.fst) entry.1 hserves
      ⟨rfl, List.mem_cons_self⟩
      (fun language uri hin hnot => by
        refine ⟨hin.1, ?_⟩
        rcases List.mem_cons.1 hin.2 with heq | hrest
        · exact heq
        · exact absurd ⟨hin.1, hrest⟩ hnot)
    rw [List.forM, Step.start_bind, hstart]
    exact ih haccounts' (hkeeps s hserves)

/-- The server said of itself what it had to say; now it is told that it is started, and of the
documents. -/
def initiate (s : Session) (result : Json) : Step Hub Unit := do
  let encoding ← Step.ofExcept .shape (Message.negotiatedEncoding result)
  modify fun h =>
    { h.alterSession s.language fun s => { s with encoding } with
      fleet := h.fleet.modifyClient s.client Client.markReady }
  let h ← get
  let some s := h.sessions.find? s.language | return ()
  modify fun h =>
    h.report .info "lsp.ready"
      [("client", h.fleet.nameOf s.client), ("legend", toString s.legend.length),
        ("encoding", s.encoding.name)]
  if ← guarded s (Fleet.sendStarted s.client) then
    s.documents.forM fun entry => announce s entry.1

theorem start_handleStarted (s : Session) (result : Json) (h : Hub) :
    (handleStarted s result).start h =
      match Message.tokenTypes result with
      | .error fault => (.error (.shape fault), h)
      | .ok legend =>
        (initiate s result).start
          (if !legend.isEmpty then h.alterSession s.language fun s => { s with legend }
          else h) := by
  rw [handleStarted, Step.start_bind]
  cases Message.tokenTypes result with
  | error fault => rfl
  | ok legend =>
    rw [Step.start_ofExcept_ok]
    dsimp only
    cases legend.isEmpty <;> rfl

/-- The server of the language is the one of the session, and its start was just answered. -/
structure Answers (h : Hub) (s : Session) : Prop where
  current : ∃ s', h.sessions.find? s.language = some s' ∧ s'.client = s.client
  starting : ∃ l, h.fleet.lines[s.client]? = some l ∧ l.state = .starting ∧ l.starts = 0

/-- The hub once a server that was starting has answered. -/
def readied (h : Hub) (s : Session) (encoding : Encoding) : Hub :=
  { h.alterSession s.language fun s => { s with encoding } with
    fleet := h.fleet.modifyClient s.client Client.markReady }

theorem face_readied {l : Line} (hl : h.fleet.lines[s.client]? = some l)
    (hstate : l.state = .starting) (encoding : Encoding) :
    (h.readied s encoding).face = { h.face with
      sessions := h.face.sessions.alter s.language fun s => { s with encoding }
      lines := h.face.lines.modify s.client fun l => { l with state := .ready } } := by
  have haltered := face_alterSession h s.language fun s => { s with encoding }
  have hlines : (h.readied s encoding).fleet.lines =
      h.fleet.lines.modify s.client fun l => { l with state := .ready } :=
    Fleet.lines_markReady hl hstate
  have hsame : (h.readied s encoding).face =
      { (h.alterSession s.language fun s => { s with encoding }).face with
        lines := (h.readied s encoding).fleet.lines } := rfl
  rw [hsame, hlines, haltered]
  rfl

variable {s' : Session} {encoding : Encoding}

theorem find?_readied (hs' : h.sessions.find? s.language = some s') :
    (h.readied s encoding).sessions.find? s.language = some { s' with encoding } := by
  have hfind := find?_alterSession h s.language (fun s => { s with encoding }) s.language
  rw [if_pos rfl, hs', Option.map_some] at hfind
  exact hfind

theorem serves_readied (hanswers : h.Answers s) (hs' : h.sessions.find? s.language = some s')
    (hlanguage : s'.language = s.language) :
    (h.readied s encoding).face.Serves { s' with encoding } := by
  obtain ⟨⟨s₁, hs₁, hclient⟩, l, hl, hstate, -⟩ := hanswers
  obtain rfl : s' = s₁ := Option.some.inj (hs'.symm.trans hs₁)
  refine ⟨⟨_, hlanguage ▸ find?_readied hs', rfl, rfl⟩, ?_⟩
  rw [face_readied hl hstate]
  simp [hclient, show h.face.lines[s.client]? = some l from hl]

/-- Tell a server that it is started, and of its documents. -/
def greet (s : Session) : Step Hub Unit := do
  if ← guarded s (Fleet.sendStarted s.client) then
    s.documents.forM fun entry => announce s entry.1

theorem start_initiate {result : Json}
    (hencoding : Message.negotiatedEncoding result = .ok encoding)
    (hs' : h.sessions.find? s.language = some s') :
    ∃ data, (initiate s result).start h = (greet { s' with encoding }).start
      ((h.readied s encoding).report .info "lsp.ready" data) := by
  have hfind : (h.readied s encoding).sessions.find? s.language = some { s' with encoding } :=
    find?_readied hs'
  rw [initiate, Step.start_bind, hencoding, Step.start_ofExcept_ok]
  dsimp only
  rw [Step.start_bind, Step.start_modify]
  change ∃ data, (_ : Step Hub Unit).start (h.readied s encoding) = _
  rw [Step.start_bind, Step.start_get]
  dsimp only
  rw [hfind]
  dsimp only
  rw [Step.start_bind, Step.start_modify]
  exact ⟨_, rfl⟩

/-- The hub in which a server is ready, and its documents are out of account. -/
theorem accounts_readied (haccounts : h.Accounts since nothing) (hanswers : h.Answers s)
    (hs' : h.sessions.find? s.language = some s') (hlanguage : s'.language = s.language) :
    (h.readied s encoding).Accounts since fun language uri =>
      language = s'.language ∧ uri ∈ s'.documents.map Prod.fst := by
  obtain ⟨streams, haccount⟩ := haccounts
  obtain ⟨⟨s₁, hs₁, hclient⟩, l, hl, hstate, hstarts⟩ := hanswers
  obtain rfl : s' = s₁ := Option.some.inj (hs'.symm.trans hs₁)
  have hface := face_readied hl hstate encoding
  have haltered : Account since nothing streams { h.face with
      sessions := h.face.sessions.alter s.language fun s => { s with encoding } } := by
    refine haccount.alterSession _ _ (fun s => ⟨rfl, rfl⟩) (fun s₀ hs₀ uri d hmem => ?_)
      fun s₀ hs₀ hready => ?_
    · exact haccount.placed s.language s₀ uri d hs₀ hmem
    · obtain rfl : s' = s₀ := Option.some.inj (hs'.symm.trans hs₀)
      have hl' : h.face.lines[s'.client]? = some l := hclient ▸ hl
      rw [hl', Option.map_some, hstate] at hready
      cases hready
  let out : String → String → Prop :=
    fun language uri => language = s'.language ∧ uri ∈ s'.documents.map Prod.fst
  have hfind : (h.readied s encoding).face.sessions.find? s.language = some { s' with encoding } :=
    find?_readied hs'
  have hready := (haltered.suspend out fun _ _ hin => hin.elim).ready s.language
    { s' with encoding } (l := l)
    (by rw [hface] at hfind; exact hfind) (hclient ▸ hl) hstarts
    (fun uri d hd => ⟨hlanguage.symm, List.mem_map.2 ⟨_, Table.mem_of_find? hd, rfl⟩⟩)
  rw [show ({ s' with encoding } : Session).client = s.client from hclient] at hready
  exact ⟨streams, hface ▸ hready⟩

theorem accounts_initiate (haccounts : h.Accounts since nothing) (hanswers : h.Answers s)
    (result : Json) : ((initiate s result).start h).2.Accounts since nothing := by
  cases hencoding : Message.negotiatedEncoding result with
  | error fault =>
    rw [initiate, Step.start_bind, hencoding]
    exact haccounts
  | ok encoding =>
  obtain ⟨s', hs', -⟩ := hanswers.current
  have hlanguage : s'.language = s.language := by
    obtain ⟨streams, haccount⟩ := haccounts
    exact haccount.named _ _ hs'
  obtain ⟨data, hstart⟩ := start_initiate hencoding hs'
  generalize hreported : (h.readied s encoding).report .info "lsp.ready" data = h₁ at hstart
  have hface : h₁.face = (h.readied s encoding).face := hreported ▸ rfl
  have haccounts₁ := accounts_of_face (accounts_readied haccounts hanswers hs' hlanguage) hface
  have hfind₁ : h₁.sessions.find? s.language = some { s' with encoding } :=
    hreported ▸ find?_readied hs'
  have hserves₁ : h₁.face.Serves { s' with encoding } :=
    hface ▸ serves_readied hanswers hs' hlanguage
  obtain ⟨written, h₂, hstart₂, haccounts₂, hkeeps₂, hwritten⟩ :=
    start_guarded_neutral haccounts₁ (s := { s' with encoding })
      ((Fleet.sends_started s'.client).mono fun m hm uri => hm ▸ rfl) hfind₁ rfl
  rw [hstart, greet, Step.start_bind, hstart₂, hwritten hserves₁]
  exact start_announceAll haccounts₂ (hkeeps₂ _ hserves₁)

theorem accounts_legend (haccounts : h.Accounts since out) (language : String)
    (legend : List String) :
    (h.alterSession language fun s => { s with legend }).Accounts since out := by
  obtain ⟨streams, haccount⟩ := haccounts
  refine ⟨streams, ?_⟩
  rw [face_alterSession]
  refine haccount.alterSession _ _ (fun s => ⟨rfl, rfl⟩) (fun s hs uri d hmem => ?_)
    fun s hs hready => ⟨rfl, fun uri d hfound hopened _ => ⟨d, hfound, hopened, rfl, rfl⟩⟩
  exact haccount.placed language s uri d hs hmem

theorem Answers.legend (hanswers : h.Answers s) (legend : List String) :
    (h.alterSession s.language fun s => { s with legend }).Answers s where
  current := by
    obtain ⟨s', hs', hclient⟩ := hanswers.current
    refine ⟨{ s' with legend }, ?_, hclient⟩
    rw [find?_alterSession, if_pos rfl, hs', Option.map_some]
  starting := by
    have hlines := congrArg Face.lines (face_alterSession h s.language fun s => { s with legend })
    obtain ⟨l, hl, hstarting⟩ := hanswers.starting
    exact ⟨l, (congrArg (·[s.client]?) hlines).trans hl, hstarting⟩

/-! ## Answers -/

/-- The request to start that an answer matches was the only one to wait. -/
theorem answers_popRequest {number : Int} {path : String} (hregular : h.face.Regular)
    (hs : h.sessions.find? s.language = some s)
    (hpop : (h.fleet.popRequest s.client number).1 = some (.start path)) :
    ({ h with fleet := (h.fleet.popRequest s.client number).2 } : Hub).Answers s := by
  obtain ⟨l, l', hl, hl', hstate, hlt⟩ := Fleet.starts_popRequest_lt hpop
  obtain ⟨hone, hnone⟩ := hregular.settled l (List.mem_of_getElem? hl)
  refine ⟨⟨s, hs, rfl⟩, l', hl', ?_, by omega⟩
  by_contra hne
  have hzero := hnone fun hstarting => hne (hstate.trans hstarting)
  omega

theorem start_shown (value : Json) (h : Hub) :
    (shown value).start h =
      (if h.fleet.nesting.reported < value.nesting 1 then .error .nesting else .ok value.display,
        h) := by
  rw [shown, Step.start_bind, Step.start_get]
  dsimp only
  split <;> rfl

theorem keeps_shown (P : Hub → Prop) (value : Json) : Step.Keeps P (shown value) := by
  intro h hP
  rw [start_shown]
  exact hP

/-- One member of an error as reports show it. -/
def errorPart (error : Json) (name : String) : Step Hub String := do
  let value ← Step.ofExcept .shape (error.member name)
  if (error.field? name).isSome then shown value else return ""

/-- What becomes of an answer once it is known what was asked for. -/
def settle (s : Session) (client : String) (message : Json) (kind : RequestKind) :
    Step Hub Unit := do
  match message.field? "error" with
  | some error =>
    let code ← errorPart error.orEmpty "code"
    let text ← errorPart error.orEmpty "message"
    modify fun h =>
      h.report .warning "lsp.error"
        [("client", client), ("id", ((message.field? "id").getD .null).display), ("code", code),
          ("message", text)]
  | none =>
    let result := (message.field? "result").getD .null
    match kind with
    | .start _ => handleStarted s result
    | .tokens uri version => handleTokens s uri version result

/-- The number of the request that a message answers. -/
def numberOf (message : Json) : Option Int :=
  ((message.field? "id").getD .null).whole?

theorem start_handleAnswer_of_number_none {message : Json} (hnumber : numberOf message = none) :
    (handleAnswer s client message).start h = (.ok (), h) := by
  rw [numberOf] at hnumber
  unfold handleAnswer
  dsimp only
  rw [hnumber]
  rfl

theorem start_handleAnswer_of_kind_none {message : Json} {number : Int}
    (hnumber : numberOf message = some number)
    (hkind : (h.fleet.popRequest s.client number).1 = none) :
    (handleAnswer s client message).start h =
      (.ok (), { h with fleet := (h.fleet.popRequest s.client number).2 }) := by
  rw [numberOf] at hnumber
  unfold handleAnswer
  dsimp only
  rw [hnumber]
  dsimp only
  rw [Step.start_bind, Step.start_get]
  dsimp only
  rw [Step.start_bind, Step.start_modify]
  dsimp only
  rw [hkind]
  rfl

theorem start_handleAnswer_of_kind {message : Json} {number : Int} {kind : RequestKind}
    (hnumber : numberOf message = some number)
    (hkind : (h.fleet.popRequest s.client number).1 = some kind) :
    (handleAnswer s client message).start h =
      (settle s client message kind).start
        { h with fleet := (h.fleet.popRequest s.client number).2 } := by
  rw [numberOf] at hnumber
  unfold handleAnswer
  dsimp only
  rw [hnumber]
  dsimp only
  rw [Step.start_bind, Step.start_get]
  dsimp only
  rw [Step.start_bind, Step.start_modify]
  dsimp only
  rw [hkind]
  rfl

/-! ## Everything -/

section Keeps

variable {P : Hub → Prop}
variable (hreport : ∀ h level name data, P h → P (h.report level name data))

include hreport

/-- The tokens of the present version are kept with the document, and others are reported. -/
theorem keeps_handleTokens (hcolor : ∀ h language uri tokens id, P h →
      P (Hub.alterBuffer (h.alterDocument language uri fun d =>
        { d with tokens, tokensVersion := d.version }) id fun b => { b with dirty := true }))
    (s : Session) (uri : String) (version : Int) (result : Json) :
    Step.Keeps P (handleTokens s uri version result) := by
  unfold handleTokens
  dsimp only
  split
  · exact Step.Keeps.modify fun h => hreport h _ _ _
  split
  · exact Step.Keeps.modify fun h => hreport h _ _ _
  next document _ _ =>
  have hdecoded : ∀ data : List Json, Step.Keeps P (do
      let tokens ← Step.ofExcept .shape (SemanticToken.decode s.legend data)
      modify fun h : Hub =>
        (h.alterDocument s.language uri fun d =>
          { d with tokens, tokensVersion := d.version }).alterBuffer document.buffer fun b =>
            { b with dirty := true }) :=
    fun data => Step.Keeps.bind (Step.Keeps.ofExcept _ _) fun tokens =>
      Step.Keeps.modify fun h => hcolor h s.language uri tokens document.buffer
  split
  · exact Step.Keeps.bind (Step.Keeps.ofExcept _ _) hdecoded
  · exact Step.Keeps.bind (Step.Keeps.pure _) hdecoded

/-- An error is reported, and nothing else comes of it. -/
theorem keeps_settle_of_error {message error : Json} (herror : message.field? "error" = some error)
    (s : Session) (client : String) (kind : RequestKind) :
    Step.Keeps P (settle s client message kind) := by
  have hpart : ∀ name : String, Step.Keeps P (errorPart error.orEmpty name) := by
    refine fun name => Step.Keeps.bind (Step.Keeps.ofExcept _ _) fun value => ?_
    split
    · exact keeps_shown P value
    · exact Step.Keeps.pure _
  unfold settle
  rw [herror]
  refine Step.Keeps.bind (hpart "code") fun code => ?_
  exact Step.Keeps.bind (hpart "message") fun text => Step.Keeps.modify fun h => hreport h _ _ _

end Keeps

/-- The property lasts while events are handled: each step by which one is handled keeps it. -/
structure Lasts (P : Hub → Prop) : Prop where
  regular {h : Hub} : P h → h.face.Regular
  of_face {h h' : Hub} : P h → h'.face = h.face → P h'
  letGo {h : Hub} (client : String) : P h → P (h.letGo client)
  reply {h : Hub} {s : Session} (message : Json) : P h → h.sessions.find? s.language = some s →
    P ((guarded s (Fleet.sendResponse s.client message)).start h).2
  pop {h : Hub} (client : Nat) (number : Int) : P h →
    P { h with fleet := (h.fleet.popRequest client number).2 }
  legend {h : Hub} (language : String) (legend : List String) : P h →
    P (h.alterSession language fun s => { s with legend })
  initiate {h : Hub} {s : Session} (result : Json) : P h → h.Answers s →
    P ((initiate s result).start h).2
  color (h : Hub) (language uri : String) (tokens : List SemanticToken) (id : Nat) : P h →
    P (Hub.alterBuffer (h.alterDocument language uri fun d =>
      { d with tokens, tokensVersion := d.version }) id fun b => { b with dirty := true })

namespace Lasts

variable {P : Hub → Prop}

theorem report (hP : Lasts P) (h : Hub) (level : Level) (name : String) (data : Pairs)
    (hhub : P h) : P (h.report level name data) :=
  hP.of_face hhub rfl

theorem handleStarted (hP : Lasts P) (hhub : P h) (hanswers : h.Answers s) (result : Json) :
    P ((handleStarted s result).start h).2 := by
  rw [start_handleStarted]
  cases Message.tokenTypes result with
  | error fault => exact hhub
  | ok legend =>
    dsimp only
    split
    · exact hP.initiate result (hP.legend s.language legend hhub) (hanswers.legend legend)
    · exact hP.initiate result hhub hanswers

theorem settle (hP : Lasts P) (hhub : P h) {kind : RequestKind}
    (hanswers : ∀ path, kind = .start path → h.Answers s) (client : String) (message : Json) :
    P ((settle s client message kind).start h).2 := by
  cases herror : message.field? "error" with
  | some error => exact keeps_settle_of_error hP.report herror s client kind h hhub
  | none =>
    unfold Hub.settle
    rw [herror]
    cases kind with
    | start path => exact hP.handleStarted hhub (hanswers path rfl) _
    | tokens uri version => exact keeps_handleTokens hP.report hP.color s uri version _ h hhub

theorem handleAnswer (hP : Lasts P) (hhub : P h) (hs : h.sessions.find? s.language = some s)
    (client : String) (message : Json) : P ((handleAnswer s client message).start h).2 := by
  cases hnumber : numberOf message with
  | none =>
    rw [start_handleAnswer_of_number_none hnumber]
    exact hhub
  | some number =>
  have hpopped := hP.pop s.client number hhub
  cases hkind : (h.fleet.popRequest s.client number).1 with
  | none =>
    rw [start_handleAnswer_of_kind_none hnumber hkind]
    exact hpopped
  | some kind =>
    rw [start_handleAnswer_of_kind hnumber hkind]
    refine hP.settle hpopped (fun path hpath => ?_) client message
    exact answers_popRequest (hP.regular hhub) hs (hkind.trans (congrArg some hpath))

theorem handleMessage (hP : Lasts P) (hhub : P h) (hs : h.sessions.find? s.language = some s)
    (client : String) (message : Json) : P ((handleMessage s client message).start h).2 := by
  unfold Hub.handleMessage
  split
  · next method _ =>
    split
    · have hreplied := hP.reply message hhub hs
      rw [Step.start_bind]
      generalize (guarded s _).start h = result at hreplied ⊢
      obtain ⟨outcome, h'⟩ := result
      cases outcome <;> exact hreplied
    · exact Step.Keeps.bind (keeps_shown P method)
        (fun text => Step.Keeps.modify fun h => hP.report h _ _ _) h hhub
  · exact hP.handleAnswer hhub hs client message

theorem handleResponse (hP : Lasts P) (client : String) (payload : Bytes) :
    Step.Keeps P (handleResponse client payload) := by
  apply Step.Keeps.get_bind
  intro h hhub
  cases hs : h.sessionOfClient? client with
  | none => exact hhub
  | some s =>
    dsimp only
    split
    · exact hhub
    · exact hP.of_face hhub rfl
    · exact hP.handleMessage hhub
        ((hP.regular hhub).find?_of_mem_values (mem_of_sessionOfClient? hs)) client _
    · exact hhub

theorem handleCrash (hP : Lasts P) (hhub : P h) (client reason : String) :
    P (h.handleCrash client reason) := by
  obtain ⟨data, hcrash⟩ := handleCrash_eq h client reason
  rw [hcrash, noteCrash]
  split
  · exact hP.of_face (hP.letGo client hhub) rfl
  · exact hP.of_face (hP.letGo client hhub) rfl

theorem handleNext (hP : Lasts P) : Step.Keeps P handleNext := by
  apply Step.Keeps.get_bind
  intro h hhub
  split
  · exact hhub
  · next event rest _ =>
    rw [Step.start_bind, Step.start_modify]
    dsimp only
    have htaken : P { h with fleet := { h.fleet with queue := rest } } := hP.of_face hhub rfl
    cases event with
    | crash client reason => exact hP.handleCrash htaken client reason
    | response client payload => exact hP.handleResponse client payload _ htaken

theorem drain (hP : Lasts P) : Step.Keeps P drain :=
  Step.Keeps.get_bind fun h hhub =>
    Step.Keeps.bind (Step.Keeps.forM fun _ => hP.handleNext) (fun _ => Step.Keeps.pure _) h hhub

end Lasts

/-- The account lasts, whatever the servers send. -/
theorem lasts_accounts : Lasts (Accounts since nothing) where
  regular := fun ⟨_, haccount⟩ => haccount.regular
  of_face := accounts_of_face
  letGo client haccounts := accounts_letGo haccounts client
  reply {h s} message haccounts hs := by
    rcases Fleet.sends_response h.fleet s.client message with ⟨fault, hfault, hstart⟩ | hsends
    · rw [start_guarded_of_error hstart hfault]
      exact haccounts
    · obtain ⟨written, h', hstart, haccounts', -⟩ := start_guarded_neutral haccounts hsends hs rfl
      rw [hstart]
      exact haccounts'
  pop {h} client number := fun ⟨streams, haccount⟩ =>
    ⟨streams, haccount.wane (Fleet.wane_popRequest h.fleet client number)⟩
  legend language legend haccounts := accounts_legend haccounts language legend
  initiate result haccounts hanswers := accounts_initiate haccounts hanswers result
  color h language uri tokens id := fun ⟨streams, haccount⟩ => by
    have haltered := haccount.alterDocument language uri
      (fun d => { d with tokens, tokensVersion := d.version }) (fun d => ⟨rfl, rfl⟩)
      (.inr fun d => ⟨rfl, rfl⟩)
    rw [← face_alterDocument] at haltered
    exact ⟨streams, haltered.rest _ _ fun b hb => ⟨rfl, rfl, rfl, .inr ⟨rfl, rfl⟩⟩⟩

end TextEditor.Server.Hub
