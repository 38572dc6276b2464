import TextEditor.Proofs.Server.Account

/-!
# Telling the servers

A document goes out of account when its buffer is followed anew or drained, and is in account
again when the message about it was written.  With a server that is ready the message is always
written, so the account of a hub is in order after each of the steps by which it tells its
servers.
-/

namespace TextEditor.Server

/-- The server of the session is ready, and it is still that of its language. -/
structure Face.Serves (F : Face) (s : Session) : Prop where
  current : ∃ s', F.sessions.find? s.language = some s' ∧ s'.client = s.client ∧
    s'.encoding = s.encoding
  ready : F.lines[s.client]?.map Line.state = some .ready

namespace Face

variable {F : Face} {s : Session}

theorem Serves.sent (h : F.Serves s) (client : Nat) (m : Outgoing) :
    (F.sent client m).Serves s where
  current := h.current
  ready := by
    obtain ⟨l, hl, hready⟩ := Option.map_eq_some_iff.1 h.ready
    rw [Face.sent, List.getElem?_modify, hl, ← hready]
    by_cases hclient : client = s.client <;> simp [hclient, Line.receive]

theorem Serves.alter (h : F.Serves s) (language : String) {change : Session → Session}
    (hchange : ∀ s, (change s).client = s.client ∧ (change s).encoding = s.encoding) :
    ({ F with sessions := F.sessions.alter language change } : Face).Serves s where
  current := by
    obtain ⟨s', hs', hclient, hencoding⟩ := h.current
    rw [Table.find?_alter]
    split
    · next hlanguage =>
      rw [← hlanguage, hs']
      exact ⟨_, rfl, (hchange s').1.trans hclient, (hchange s').2.trans hencoding⟩
    · exact ⟨s', hs', hclient, hencoding⟩
  ready := h.ready

/-- A document that is open after a change of it was there before. -/
theorem Live.of_alter {language uri : String} {change : TrackedDocument → TrackedDocument}
    {document : TrackedDocument}
    (h : ({ F with
      sessions := F.sessions.alter language fun s =>
        { s with documents := s.documents.alter uri change } } : Face).Live language uri s
          document) :
    ∃ s' document', F.sessions.find? language = some s' ∧
      s'.documents.find? uri = some document' ∧ s.client = s'.client ∧ s.encoding = s'.encoding ∧
        document = change document' := by
  have hsession := h.session
  rw [Table.find?_alter, if_pos rfl] at hsession
  obtain ⟨s', hs', rfl⟩ := Option.map_eq_some_iff.1 hsession
  have hfound := h.found
  rw [Table.find?_alter, if_pos rfl] at hfound
  obtain ⟨document', hdocument', rfl⟩ := Option.map_eq_some_iff.1 hfound
  exact ⟨s', document', hs', hdocument', rfl, rfl, rfl⟩

end Face

namespace Hub

variable {since : Past} {out : String → String → Prop}
variable {h : Hub} {s : Session} {language uri : String}

/-- The account of the hub is in order for some streams. -/
def Accounts (since : Past) (out : String → String → Prop) (h : Hub) :
    Prop :=
  ∃ streams, Account since out streams h.face

/-- No document is out of account. -/
def nothing : String → String → Prop :=
  fun _ _ => False

/-- One document is out of account. -/
def only (language uri : String) : String → String → Prop :=
  fun language' uri' => language' = language ∧ uri' = uri

theorem face_alterSession (h : Hub) (language : String) (change : Session → Session) :
    (h.alterSession language change).face =
      { h.face with sessions := h.face.sessions.alter language change } := by
  unfold alterSession Table.alter face
  dsimp only
  cases h.sessions.find? language <;> rfl

theorem find?_alterSession (h : Hub) (language : String) (change : Session → Session)
    (other : String) :
    (h.alterSession language change).sessions.find? other =
      if other = language then (h.sessions.find? language).map change
      else h.sessions.find? other := by
  have hsessions : (h.alterSession language change).sessions = h.sessions.alter language change :=
    congrArg Face.sessions (face_alterSession h language change)
  rw [hsessions, Table.find?_alter]

theorem alterDocument_eq (h : Hub) (language uri : String)
    (change : TrackedDocument → TrackedDocument) :
    h.alterDocument language uri change =
      h.alterSession language fun s =>
        { s with documents := s.documents.alter uri change } := by
  unfold alterDocument
  congr 1
  funext s
  unfold Table.alter
  cases s.documents.find? uri <;> rfl

theorem face_alterDocument (h : Hub) (language uri : String)
    (change : TrackedDocument → TrackedDocument) :
    (h.alterDocument language uri change).face =
      { h.face with
        sessions := h.face.sessions.alter language fun s =>
          { s with documents := s.documents.alter uri change } } := by
  rw [alterDocument_eq, face_alterSession]

/-! ## Writing -/

/-- A message to the server of a session arrives if the server is alive, and is dropped
otherwise. -/
theorem start_guarded {step : Step Fleet Unit} {kind : Outgoing → Prop} {l : Line}
    (hsends : Fleet.Sends h.fleet step s.client kind) (hl : h.fleet.lines[s.client]? = some l)
    (hinput : l.hasInput = true) (hfault : l.fault = none) :
    (l.state.isAlive = true ∧ ∃ m h', kind m ∧ (guarded s step).start h = (.ok true, h') ∧
      h'.face = h.face.sent s.client m) ∨
    (l.state.isAlive = false ∧ ∃ h', (guarded s step).start h = (.ok false, h') ∧
      h'.face = h.face) := by
  obtain ⟨htakes, hdead⟩ := hsends l hl
  rw [guarded, Step.start_bind, Step.start_attempt, onFleet, Step.start_zoom]
  cases halive : l.state.isAlive with
  | true =>
    obtain ⟨m, a, f', hm, hstart, hlines⟩ := htakes ⟨halive, hinput, hfault⟩
    rw [hstart]
    refine .inl ⟨rfl, m, { h with fleet := f' }, hm, rfl, ?_⟩
    simp only [face, Face.sent, hlines]
  | false =>
    obtain ⟨fault, hstart⟩ := hdead halive
    rw [hstart]
    exact .inr ⟨rfl, _, rfl, rfl⟩

/-- What fails with nothing done, and not because of a write, is raised. -/
theorem start_guarded_of_error {step : Step Fleet Unit} {fault : Fault}
    (hstart : step.start h.fleet = (.error fault, h.fleet)) (hfault : ∀ w, fault ≠ .write w) :
    (guarded s step).start h = (.error fault, h) := by
  rw [guarded, Step.start_bind, Step.start_attempt, onFleet, Step.start_zoom, hstart]
  cases fault with
  | write w => exact absurd rfl (hfault w)
  | _ => rfl

/-- A message that concerns no document leaves the account in order. -/
theorem start_guarded_neutral {step : Step Fleet Unit} {s' : Session}
    (haccounts : h.Accounts since out) (hsends : Fleet.Sends h.fleet step s.client Fleet.Neutral)
    (hs' : h.sessions.find? language = some s') (hclient : s'.client = s.client) :
    ∃ written h', (guarded s step).start h = (.ok written, h') ∧ h'.Accounts since out ∧
      (∀ s, h.face.Serves s → h'.face.Serves s) ∧ (h.face.Serves s → written = true) := by
  obtain ⟨streams, haccount⟩ := haccounts
  obtain ⟨l, hl, hinput, hfault⟩ := haccount.served language s' hs'
  rw [hclient] at hl
  rcases start_guarded hsends hl hinput hfault with
    ⟨-, m, h', hm, hstart, hface⟩ | ⟨hdead, h', hstart, hface⟩
  · refine ⟨true, h', hstart, ?_, ?_, fun _ => rfl⟩
    · refine ⟨streams.modify s.client (· ++ [m]), ?_⟩
      rw [hface, ← hclient]
      apply haccount.send hs' (fun uri _ => hm uri)
      intro messages _ uri version changes heq
      have hversion := hm uri
      simp [heq, Outgoing.version?] at hversion
    · intro s hserves
      rw [hface]
      exact hserves.sent _ m
  · refine ⟨false, h', hstart, ⟨streams, hface ▸ haccount⟩, fun s hserves => hface ▸ hserves,
      fun hserves => ?_⟩
    have hready := hserves.ready
    have hl' : h.face.lines[s.client]? = some l := hl
    rw [hl', Option.map_some] at hready
    rw [Option.some.inj hready] at hdead
    cases hdead

/-- The session serves in the hub, so a message to its server arrives. -/
theorem start_tell {step : Step Fleet Unit} {m : Outgoing} {streams : List (List Outgoing)}
    (haccount : Account since out streams h.face) (hserves : h.face.Serves s)
    (hsends : Fleet.Sends h.fleet step s.client (· = m))
    (hout : ∀ uri, ¬out s.language uri → m.version? uri = none)
    (horder : ∀ messages, streams[s.client]? = some messages →
      ∀ uri version changes, m = .didChange uri version changes →
        Continues messages uri version) :
    ∃ h', (guarded s step).start h = (.ok true, h') ∧ h'.face = h.face.sent s.client m ∧
      Account since out (streams.modify s.client (· ++ [m])) h'.face := by
  obtain ⟨s', hs', hclient, -⟩ := hserves.current
  obtain ⟨l, hl, hinput, hfault⟩ := haccount.served s.language s' hs'
  rw [hclient] at hl
  have hready := hserves.ready
  rw [hl, Option.map_some] at hready
  rcases start_guarded hsends hl hinput hfault with ⟨-, m, h', rfl, hstart, hface⟩ | ⟨hdead, -⟩
  · have hsent := haccount.send hs' hout (hclient ▸ horder)
    rw [hclient] at hsent
    exact ⟨h', hstart, hface, hface ▸ hsent⟩
  · rw [Option.some.inj hready] at hdead
    cases hdead

theorem sends_requestTokens (f : Fleet) (s : Session) (uri : String) (version : Int) :
    Fleet.Sends f (do let _ ← Fleet.sendTokensRequest s.client uri version) s.client
      Fleet.Neutral := by
  intro l hl
  obtain ⟨htakes, hdead⟩ := Fleet.sends_tokensRequest s.client uri version l hl
  refine ⟨fun h => ?_, fun h => ?_⟩
  · obtain ⟨m, number, f', hm, hstart, hlines⟩ := htakes h
    refine ⟨m, (), f', hm, ?_, hlines⟩
    rw [Step.start_bind, hstart]
    rfl
  · obtain ⟨fault, hstart⟩ := hdead h
    refine ⟨fault, ?_⟩
    rw [Step.start_bind, hstart]

theorem start_requestTokens (haccounts : h.Accounts since out) (hserves : h.face.Serves s)
    (document : TrackedDocument) :
    ∃ h', (requestTokens s document).start h = (.ok (), h') ∧ h'.Accounts since out ∧
      ∀ s, h.face.Serves s → h'.face.Serves s := by
  obtain ⟨s', hs', hclient, -⟩ := hserves.current
  obtain ⟨written, h', hstart, haccounts', hkeeps, -⟩ := start_guarded_neutral haccounts
    (sends_requestTokens h.fleet s document.uri document.version) hs' hclient
  refine ⟨h', ?_, haccounts', hkeeps⟩
  rw [requestTokens, Step.start_bind, hstart]
  rfl

theorem document?_eq_some {document : TrackedDocument}
    (hd : h.document? language uri = some document) :
    ∃ s, h.sessions.find? language = some s ∧ s.documents.find? uri = some document :=
  Option.bind_eq_some_iff.1 hd

theorem document?_of_live {document : TrackedDocument}
    (hlive : h.face.Live language uri s document) : h.document? language uri = some document :=
  Option.bind_eq_some_iff.2 ⟨s, hlive.session, hlive.found⟩

/-- What the account says of a document of a session that serves. -/
theorem document_of_serves {streams : List (List Outgoing)} {document : TrackedDocument}
    (haccount : Account since out streams h.face) (hserves : h.face.Serves s)
    (hdocument : h.document? s.language uri = some document) :
    ∃ s' b messages, h.sessions.find? s.language = some s' ∧
      (s'.client = s.client ∧ s'.encoding = s.encoding) ∧
        s'.documents.find? uri = some document ∧ h.buffers[document.buffer]? = some b ∧
          (uriOf b = uri ∧ b.language = s.language) ∧ streams[s.client]? = some messages := by
  obtain ⟨s', hs', hfound⟩ := document?_eq_some hdocument
  obtain ⟨s₀, hs₀, hsame⟩ := hserves.current
  obtain rfl : s₀ = s' := Option.some.inj (hs₀.symm.trans hs')
  obtain ⟨-, b, hb, hplace⟩ :=
    haccount.placed s.language s₀ uri document hs' (Table.mem_of_find? hfound)
  obtain ⟨l, hl, -⟩ := haccount.served s.language s₀ hs'
  obtain ⟨messages, hmessages, -⟩ := haccount.messages_of_line hl
  exact ⟨s₀, b, messages, hs', hsame, hfound, hb, hplace, hsame.1 ▸ hmessages⟩

/-! ## Opening -/

/-- Tell of a document whose buffer is followed. -/
def tellOpening (s : Session) (uri : String) (document : TrackedDocument) (b : Buffer) :
    Step Hub Unit := do
  let opened ← guarded s (Fleet.sendDidOpen s.client uri b.language b.text document.version)
  if opened then
    modify fun h => h.alterDocument s.language uri fun d => { d with opened := true }
    requestTokens s document

theorem start_announce_of_none (hdocument : h.document? s.language uri = none) :
    (announce s uri).start h = (.ok (), h) := by
  rw [announce, Step.start_bind, Step.start_get]
  dsimp only
  rw [hdocument]
  rfl

theorem start_announce_of_some {document : TrackedDocument} {b : Buffer}
    (hdocument : h.document? s.language uri = some document)
    (hb : h.buffers[document.buffer]? = some b) :
    (announce s uri).start h =
      (tellOpening s uri document b).start (h.alterBuffer document.buffer Buffer.track) := by
  have hb' : (h.alterBuffer document.buffer Buffer.track).buffers[document.buffer]? =
      some b.track := by
    simp [alterBuffer, hb]
  rw [announce, Step.start_bind, Step.start_get]
  dsimp only
  rw [hdocument]
  dsimp only
  rw [Step.start_bind, Step.start_modify]
  dsimp only
  rw [Step.start_bind, Step.start_get]
  dsimp only
  rw [hb']
  rfl

/-- Once its server was told of it the document is in account. -/
theorem start_tellOpening {out' : String → String → Prop} {document : TrackedDocument} {b : Buffer}
    (haccounts : h.Accounts since out') (hserves : h.face.Serves s)
    (hdocument : h.document? s.language uri = some document)
    (hb : h.buffers[document.buffer]? = some b.track) (huri : out' s.language uri)
    (hout : ∀ language' uri', out' language' uri' → ¬out language' uri' →
      language' = s.language ∧ uri' = uri) :
    ∃ h', (tellOpening s uri document b).start h = (.ok (), h') ∧ h'.Accounts since out ∧
      ∀ s, h.face.Serves s → h'.face.Serves s := by
  obtain ⟨streams, haccount⟩ := haccounts
  obtain ⟨s', b', messages, hs', ⟨hclient, -⟩, hfound, hb', ⟨-, hlanguage⟩, hmessages⟩ :=
    document_of_serves haccount hserves hdocument
  obtain rfl : b.track = b' := Option.some.inj (hb.symm.trans hb')
  let m : Outgoing := .didOpen uri b.language b.text document.version
  obtain ⟨h₁, hstart₁, hface₁, haccount₁⟩ := start_tell haccount hserves
    (Fleet.sends_didOpen s.client uri b.language b.text document.version)
    (fun uri' hnot => if_neg fun heq : uri = uri' => hnot (heq ▸ huri))
    (fun _ _ _ _ _ heq => nomatch heq)
  let change : TrackedDocument → TrackedDocument := fun d => { d with opened := true }
  let h₂ := h₁.alterDocument s.language uri change
  have hface₂ := face_alterDocument h₁ s.language uri change
  have hserves₂ : ∀ s₀, h.face.Serves s₀ → h₂.face.Serves s₀ := fun s₀ hserves₀ => by
    rw [hface₂, hface₁]
    exact (hserves₀.sent _ _).alter _ fun s => ⟨rfl, rfl⟩
  -- Everything of the document is told now.
  have haccount₂ : Account since out (streams.modify s.client (· ++ [m])) h₂.face := by
    have haltered := haccount₁.alterDocument s.language uri change (fun d => ⟨rfl, rfl⟩) (.inl huri)
    rw [hface₂]
    apply haltered.resume
    intro language' uri' s₂ d₂ hlive hin hnot
    obtain ⟨rfl, rfl⟩ := hout language' uri' hin hnot
    obtain ⟨s₁, d₁, hs₁, hd₁, hclient₂, -, rfl⟩ := hlive.of_alter
    rw [hface₁] at hs₁
    obtain rfl : s' = s₁ := Option.some.inj (hs'.symm.trans hs₁)
    obtain rfl : document = d₁ := Option.some.inj (hfound.symm.trans hd₁)
    refine ⟨messages ++ [m], ?_, b.track, messages, b.text, [], ?_, rfl, ?_, ?_, fun e => rfl⟩
    · simp [m, hclient₂, hclient, hmessages]
    · rw [hface₁]
      exact hb
    · rw [← hlanguage]
      exact Tells.didOpen ..
    · refine haccount.now _ _ hb _ _ ?_
      rw [Unpassed, hclient₂, hclient, List.getD_eq_getElem?_getD, hmessages]
      exact List.prefix_refl messages
  obtain ⟨h₃, hstart₃, haccounts₃, hkeeps₃⟩ :=
    start_requestTokens ⟨_, haccount₂⟩ (hserves₂ s hserves) document
  refine ⟨h₃, ?_, haccounts₃, fun s₀ hserves₀ => hkeeps₃ s₀ (hserves₂ s₀ hserves₀)⟩
  rw [tellOpening, Step.start_bind, hstart₁]
  simp only [if_true]
  rw [Step.start_bind, Step.start_modify]
  exact hstart₃

/-- Announcing a document takes it in account. -/
theorem start_announce {out' : String → String → Prop} (haccounts : h.Accounts since out')
    (out : String → String → Prop) (uri : String) (hserves : h.face.Serves s)
    (huri : out' s.language uri)
    (hout : ∀ language' uri', out' language' uri' → ¬out language' uri' →
      language' = s.language ∧ uri' = uri) :
    ∃ h', (announce s uri).start h = (.ok (), h') ∧ h'.Accounts since out ∧
      ∀ s, h.face.Serves s → h'.face.Serves s := by
  obtain ⟨streams, haccount⟩ := haccounts
  cases hdocument : h.document? s.language uri with
  | none =>
    refine ⟨h, start_announce_of_none hdocument, ⟨streams, haccount.resume ?_⟩, fun _ hs => hs⟩
    intro language' uri' s' document hlive hin hnot
    obtain ⟨rfl, rfl⟩ := hout language' uri' hin hnot
    rw [document?_of_live hlive] at hdocument
    cases hdocument
  | some document =>
    obtain ⟨s', b, -, hs', -, hfound, hb, ⟨hplace, hlanguage⟩, -⟩ :=
      document_of_serves haccount hserves hdocument
    let h₁ := h.alterBuffer document.buffer Buffer.track
    have hserves₁ : ∀ s₀, h.face.Serves s₀ → h₁.face.Serves s₀ :=
      fun s₀ hserves₀ => ⟨hserves₀.current, hserves₀.ready⟩
    have haccount₁ : Account since out' streams h₁.face :=
      haccount.touch _ _ (fun b => ⟨rfl, rfl, rfl⟩) fun b' hb' => by
        obtain rfl : b = b' := Option.some.inj (hb.symm.trans hb')
        rw [hlanguage, hplace]
        exact huri
    have hdocument₁ : h₁.document? s.language uri = some document := hdocument
    have hb₁ : h₁.buffers[document.buffer]? = some b.track := by
      simp [h₁, alterBuffer, hb]
    obtain ⟨h₂, hstart, haccounts₂, hkeeps⟩ :=
      start_tellOpening ⟨streams, haccount₁⟩ (hserves₁ s hserves) hdocument₁ hb₁ huri hout
    rw [start_announce_of_some hdocument hb]
    exact ⟨h₂, hstart, haccounts₂, fun s₀ hserves₀ => hkeeps s₀ (hserves₁ s₀ hserves₀)⟩

/-! ## Changing -/

/-- Tell of changes that were drained. -/
def tellChanges (s : Session) (uri : String) (document : TrackedDocument) (changes : List Delta) :
    Step Hub Bool := do
  modify fun h => h.alterDocument s.language uri fun d => { d with version := document.version + 1 }
  let sent ← guarded s (Fleet.sendDidChange s.client uri (document.version + 1)
    (changes.map fun delta => Message.rangeChange delta s.encoding))
  if sent then requestTokens s { document with version := document.version + 1 }
  return sent

theorem start_syncDocument_of_none (hdocument : h.document? s.language uri = none) :
    (syncDocument s uri).start h = (.ok false, h) := by
  rw [syncDocument, Step.start_bind, Step.start_get]
  dsimp only
  rw [hdocument]
  rfl

theorem start_syncDocument_of_no_buffer {document : TrackedDocument}
    (hdocument : h.document? s.language uri = some document)
    (hb : h.buffers[document.buffer]? = none) : (syncDocument s uri).start h = (.ok false, h) := by
  rw [syncDocument, Step.start_bind, Step.start_get]
  dsimp only
  rw [hdocument]
  dsimp only
  rw [Step.start_bind, Step.start_get]
  dsimp only
  rw [hb]
  rfl

theorem start_syncDocument_of_some {document : TrackedDocument} {b : Buffer}
    (hdocument : h.document? s.language uri = some document)
    (hb : h.buffers[document.buffer]? = some b) :
    (syncDocument s uri).start h =
      (if b.changes.isEmpty || !document.opened then pure false
        else tellChanges s uri document b.changes).start
        (h.alterBuffer document.buffer fun b => b.drainChanges.2) := by
  rw [syncDocument, Step.start_bind, Step.start_get]
  dsimp only
  rw [hdocument]
  dsimp only
  rw [Step.start_bind, Step.start_get]
  dsimp only
  rw [hb]
  dsimp only
  rw [Step.start_bind, Step.start_modify]
  rfl

/-- Draining a buffer that has nothing to tell, or no one to be told. -/
theorem accounts_drain {document : TrackedDocument} {b : Buffer}
    (haccounts : h.Accounts since nothing)
    (hdocument : h.document? language uri = some document)
    (hb : h.buffers[document.buffer]? = some b)
    (hidle : b.changes = [] ∨ document.opened = false) :
    (h.alterBuffer document.buffer fun b => b.drainChanges.2).Accounts since nothing := by
  obtain ⟨streams, haccount⟩ := haccounts
  refine ⟨streams, ?_⟩
  rcases hidle with hempty | hclosed
  · refine haccount.rest _ _ fun b' hb' => ?_
    obtain rfl : b = b' := Option.some.inj (hb.symm.trans hb')
    exact ⟨rfl, rfl, rfl, .inr ⟨rfl, hempty.symm⟩⟩
  · obtain ⟨s, hs, hfound⟩ := document?_eq_some hdocument
    obtain ⟨-, b', hb', hplace, hlanguage⟩ :=
      haccount.placed language s uri document hs (Table.mem_of_find? hfound)
    have htouched := (haccount.suspend (only language uri) fun _ _ h => h.elim).touch
      document.buffer (fun b => b.drainChanges.2) (fun b => ⟨rfl, rfl, rfl⟩) fun b₀ hb₀ => by
        obtain rfl : b' = b₀ := Option.some.inj (hb'.symm.trans hb₀)
        exact ⟨hlanguage, hplace⟩
    apply htouched.resume
    intro language' uri' s' d hlive hin _
    obtain ⟨rfl, rfl⟩ := hin
    obtain rfl : s = s' := Option.some.inj (hs.symm.trans hlive.session)
    obtain rfl : document = d := Option.some.inj (hfound.symm.trans hlive.found)
    rw [hlive.opened] at hclosed
    cases hclosed

/-- Once its server was told of the changes the document is in account. -/
theorem accounts_tellChanges {streams : List (List Outgoing)} {document : TrackedDocument}
    {b : Buffer} {messages earlier : List Outgoing} {text : Text} {sent changes : List Delta}
    (haccount : Account since (only s.language uri) streams h.face) (hserves : h.face.Serves s)
    (hdocument : h.document? s.language uri = some document)
    (hb : h.buffers[document.buffer]? = some b) (htracking : b.tracking = true)
    (hheld : b.changes = []) (hmessages : streams[s.client]? = some messages)
    (htells : Tells messages uri s.language s.encoding earlier text sent document.version)
    (hsince : since s.client earlier document.buffer text (sent ++ changes))
    (hreplay : ∀ e, Delta.replay e text (sent ++ changes) = b.text) :
    ((tellChanges s uri document changes).start h).2.Accounts since nothing ∧
      ∀ s₀, h.face.Serves s₀ →
        ((tellChanges s uri document changes).start h).2.face.Serves s₀ := by
  obtain ⟨s', -, -, hs', ⟨hclient, hencoding⟩, hfound, -⟩ :=
    document_of_serves haccount hserves hdocument
  let change : TrackedDocument → TrackedDocument :=
    fun d => { d with version := document.version + 1 }
  let h₁ := h.alterDocument s.language uri change
  have hface₁ := face_alterDocument h s.language uri change
  have haccount₁ := haccount.alterDocument s.language uri change (fun d => ⟨rfl, rfl⟩)
    (.inl ⟨rfl, rfl⟩)
  rw [← hface₁] at haccount₁
  have hserves₁ : ∀ s₀, h.face.Serves s₀ → h₁.face.Serves s₀ := fun s₀ hserves₀ => by
    rw [hface₁]
    exact hserves₀.alter _ fun s => ⟨rfl, rfl⟩
  let m : Outgoing := .didChange uri (document.version + 1)
    (changes.map fun delta => Message.rangeChange delta s.encoding)
  obtain ⟨h₂, hstart₂, hface₂, haccount₂⟩ := start_tell haccount₁ (hserves₁ s hserves) (m := m)
    (Fleet.sends_didChange s.client uri _ _)
    (fun uri' hnot => if_neg fun heq : uri = uri' => hnot ⟨rfl, heq.symm⟩)
    (fun messages' hmessages' uri' version changes' heq => by
      obtain rfl : messages = messages' := Option.some.inj (hmessages.symm.trans hmessages')
      obtain ⟨rfl, rfl, -⟩ := Outgoing.didChange.inj heq
      exact htells.continues)
  have haccount₃ : Account since nothing (streams.modify s.client (· ++ [m])) h₂.face := by
    apply haccount₂.resume
    intro language' uri' s₃ d₃ hlive hin _
    obtain ⟨rfl, rfl⟩ := hin
    rw [hface₂, hface₁] at hlive
    obtain ⟨s₀, d₀, hs₀, hd₀, hclient₃, hencoding₃, rfl⟩ :=
      Face.Live.of_alter (F := h.face.sent s.client m) hlive
    obtain rfl : s' = s₀ := Option.some.inj (hs'.symm.trans hs₀)
    obtain rfl : document = d₀ := Option.some.inj (hfound.symm.trans hd₀)
    refine ⟨messages ++ [m], ?_, b, earlier, text, sent ++ changes, ?_, htracking, ?_, ?_⟩
    · simp [hclient₃, hclient, hmessages]
    · rw [hface₂, hface₁]
      exact hb
    · rw [hencoding₃, hencoding]
      exact htells.didChange changes
    · rw [hheld, List.append_nil, hclient₃, hclient]
      exact ⟨hsince, hreplay⟩
  have hserves₂ : ∀ s₀, h.face.Serves s₀ → h₂.face.Serves s₀ := fun s₀ hserves₀ => by
    rw [hface₂]
    exact (hserves₁ s₀ hserves₀).sent _ _
  obtain ⟨h₃, hstart₃, haccounts₃, hkeeps₃⟩ := start_requestTokens ⟨_, haccount₃⟩
    (hserves₂ s hserves) { document with version := document.version + 1 }
  have hstart : (tellChanges s uri document changes).start h = (.ok true, h₃) := by
    rw [tellChanges, Step.start_bind, Step.start_modify]
    dsimp only
    rw [Step.start_bind, hstart₂]
    simp only [if_true]
    rw [Step.start_bind, hstart₃]
    rfl
  rw [hstart]
  exact ⟨haccounts₃, fun s₀ hserves₀ => hkeeps₃ s₀ (hserves₂ s₀ hserves₀)⟩

theorem accounts_syncDocument (haccounts : h.Accounts since nothing) (hserves : h.face.Serves s)
    (uri : String) :
    ((syncDocument s uri).start h).2.Accounts since nothing ∧
      ∀ s₀, h.face.Serves s₀ → ((syncDocument s uri).start h).2.face.Serves s₀ := by
  obtain ⟨streams, haccount⟩ := haccounts
  cases hdocument : h.document? s.language uri with
  | none =>
    rw [start_syncDocument_of_none hdocument]
    exact ⟨⟨streams, haccount⟩, fun _ hserves => hserves⟩
  | some document =>
    obtain ⟨s', b, messages, hs', ⟨hclient, hencoding⟩, hfound, hb, ⟨hplace, hlanguage⟩,
      hmessages⟩ := document_of_serves haccount hserves hdocument
    rw [start_syncDocument_of_some hdocument hb]
    by_cases hidle : (b.changes.isEmpty || !document.opened) = true
    · rw [if_pos hidle]
      refine ⟨accounts_drain ⟨streams, haccount⟩ hdocument hb ?_, fun s hserves =>
        ⟨hserves.current, hserves.ready⟩⟩
      simpa using hidle
    · rw [if_neg hidle]
      have hopened : document.opened = true := by
        simp only [Bool.or_eq_true, Bool.not_eq_true', not_or, Bool.not_eq_false] at hidle
        exact hidle.2
      -- What the account says of the document before.
      obtain ⟨messages', hmessages', b', earlier, text, sent, hb', htracking, htells, hsince,
        hreplay⟩ := haccount.told s.language uri s' document
          ⟨hs', by rw [hclient]; exact hserves.ready, hfound, hopened⟩ fun h => h
      rw [hclient] at hmessages' hsince
      obtain rfl : messages = messages' := Option.some.inj (hmessages.symm.trans hmessages')
      obtain rfl : b = b' := Option.some.inj (hb.symm.trans hb')
      let h₁ := h.alterBuffer document.buffer fun b => b.drainChanges.2
      have hserves₁ : ∀ s₀, h.face.Serves s₀ → h₁.face.Serves s₀ :=
        fun s₀ hserves₀ => ⟨hserves₀.current, hserves₀.ready⟩
      have haccount₁ : Account since (only s.language uri) streams h₁.face :=
        (haccount.suspend (only s.language uri) fun _ _ h => h.elim).touch _ _
          (fun b => ⟨rfl, rfl, rfl⟩) fun b₀ hb₀ => by
            obtain rfl : b = b₀ := Option.some.inj (hb.symm.trans hb₀)
            exact ⟨hlanguage, hplace⟩
      have hdocument₁ : h₁.document? s.language uri = some document := hdocument
      have hb₁ : h₁.buffers[document.buffer]? = some b.drainChanges.2 := by
        simp [h₁, alterBuffer, hb]
      obtain ⟨haccounts₂, hkeeps⟩ := accounts_tellChanges haccount₁ (hserves₁ s hserves) hdocument₁
        hb₁ htracking rfl hmessages (hencoding ▸ htells) hsince hreplay
      exact ⟨haccounts₂, fun s₀ hserves₀ => hkeeps s₀ (hserves₁ s₀ hserves₀)⟩

/-! ## All sessions -/

theorem stateOf_eq {streams : List (List Outgoing)} (haccount : Account since out streams h.face)
    (hs : h.sessions.find? language = some s) :
    h.fleet.lines[s.client]?.map Line.state = some (h.stateOf s) := by
  obtain ⟨l, hl, -⟩ := haccount.served language s hs
  have hl' : h.fleet.lines[s.client]? = some l := hl
  rw [hl', stateOf, Fleet.stateOf_of_line hl', Option.map_some]

theorem serves_of_isReady {streams : List (List Outgoing)}
    (haccount : Account since out streams h.face) (hs : s ∈ h.sessions.values)
    (hready : h.isReady s = true) : h.face.Serves s := by
  have hfind := haccount.regular.find?_of_mem_values hs
  refine ⟨⟨s, hfind, rfl, rfl⟩, ?_⟩
  have hstate : h.stateOf s = .ready := of_decide_eq_true hready
  rw [← hstate]
  exact stateOf_eq haccount hfind

/-- Telling the servers of all changes leaves the account in order. -/
theorem keeps_syncChanges : Step.Keeps (Accounts since nothing) syncChanges := by
  apply Step.Keeps.get_bind
  intro h haccounts
  let P : Hub → Prop := fun x => x.Accounts since nothing ∧
    ∀ s ∈ h.sessions.values, h.isReady s = true → x.face.Serves s
  have hP : P h := by
    obtain ⟨streams, haccount⟩ := haccounts
    exact ⟨⟨streams, haccount⟩, fun s hs hready => serves_of_isReady haccount hs hready⟩
  suffices hkeeps : Step.Keeps P (h.sessions.values.foldlM (fun total s => do
      if h.isReady s then
        s.documents.foldlM (fun total entry => do
          let sent ← syncDocument s entry.1
          return if sent then total + 1 else total) total
      else return total) 0) from (hkeeps h hP).1
  refine Step.Keeps.foldlM (fun total s hs => ?_) 0
  by_cases hready : h.isReady s = true
  · rw [if_pos hready]
    refine Step.Keeps.foldlM (fun total entry _ => ?_) total
    refine Step.Keeps.bind (fun x hx => ?_) fun sent => Step.Keeps.pure _
    obtain ⟨haccounts', hkeeps⟩ := accounts_syncDocument hx.1 (hx.2 s hs hready) entry.1
    exact ⟨haccounts', fun s₀ hs₀ hready₀ => hkeeps s₀ (hx.2 s₀ hs₀ hready₀)⟩
  · rw [if_neg hready]
    exact Step.Keeps.pure total

end Hub

end TextEditor.Server
