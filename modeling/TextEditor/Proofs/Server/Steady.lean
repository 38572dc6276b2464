import TextEditor.Proofs.Server.Asking
import TextEditor.Proofs.Server.Run

/-!
# Steady hubs

Each session has a client of the server of its language, and a process is sent nothing but its
start, and answers to its own requests, until it has answered that.  Each step of the hub leaves
this so, and while it lasts no reader posts but that of the server which it starts, if it starts
one.
-/

namespace TextEditor.Server

/-- The client whose reader may post while the deed lasts: the one that takes a step, or the one
that is started, if one is.  What comes from elsewhere no reader posts. -/
def Deed.reader (h : Hub) : Deed → Option Nat
  | .read client => some client
  | .post _ => none
  | _ => some h.fleet.connections.length

namespace Hub

/-- Each language has one session at most, with a client of its server, and the processes were sent
what they should have been. -/
structure Sound (settings : Settings) (answered : Nat → Prop) (h : Hub) : Prop where
  configured : h.settings = settings
  keys : (h.sessions.map Prod.fst).Nodup
  served : ∀ language s, (language, s) ∈ h.sessions → s.language = language ∧
    ∃ c, h.fleet.connections[s.client]? = some c ∧
      settings.server? language = some c.client.name
  honest : h.fleet.Honest answered

/-- A sound hub, as it came of another one while one reader was at work. -/
structure Steady (settings : Settings) (answered : Nat → Prop) (reader : Nat) (f₀ : Fleet)
    (h : Hub) : Prop extends h.Sound settings answered where
  minds : f₀.Minds answered reader h.fleet

variable {settings : Settings} {answered : Nat → Prop} {reader : Nat} {f₀ : Fleet}
variable {h h' : Hub} {s : Session} {language : String}

theorem Sound.mono {answered' : Nat → Prop} (h₁ : h.Sound settings answered)
    (hanswered : ∀ id, answered id → answered' id) : h.Sound settings answered' :=
  ⟨h₁.configured, h₁.keys, h₁.served, fun id c hc => (h₁.honest id c hc).mono (hanswered id)⟩

theorem Sound.steady (h₁ : h.Sound settings answered) (reader : Nat) :
    h.Steady settings answered reader h.fleet :=
  ⟨h₁, .of_eq rfl rfl⟩

theorem Sound.find? (h₁ : h.Sound settings answered) (hs : s ∈ h.sessions.values) :
    h.sessions.find? s.language = some s := by
  obtain ⟨⟨language, s'⟩, hmem, rfl⟩ := List.mem_map.1 hs
  obtain ⟨rfl, -⟩ := h₁.served language s' hmem
  exact Table.find?_of_mem h₁.keys hmem

/-- A server that is ready has answered. -/
theorem Sound.answered_of_isReady (h₁ : h.Sound settings answered) (hready : h.isReady s = true) :
    answered s.client := by
  have hstate : h.fleet.stateOf s.client = .ready := of_decide_eq_true hready
  rw [Fleet.stateOf, Fleet.client?] at hstate
  cases hc : h.fleet.connections[s.client]? with
  | none =>
    rw [hc] at hstate
    cases hstate
  | some c =>
    rw [hc] at hstate
    exact (h₁.honest s.client c hc).ready hstate

namespace Steady

theorem fleet {f : Fleet} (h₁ : h.Steady settings answered reader f₀)
    (hminds : h.fleet.Minds answered reader f) :
    ({ h with fleet := f } : Hub).Steady settings answered reader f₀ where
  configured := h₁.configured
  keys := h₁.keys
  served := by
    intro language s hs
    obtain ⟨hlanguage, c, hc, hserver⟩ := h₁.served language s hs
    obtain ⟨c', hc', hleads⟩ := hminds.leads s.client c hc
    exact ⟨hlanguage, c', hc', hserver.trans (congrArg some hleads.name.symm)⟩
  honest := hminds.honest h₁.honest
  minds := h₁.minds.trans hminds

theorem of_eq (h₁ : h.Steady settings answered reader f₀) (hsettings : h'.settings = h.settings)
    (hsessions : h'.sessions = h.sessions)
    (hconnections : h'.fleet.connections = h.fleet.connections)
    (hqueue : h'.fleet.queue = h.fleet.queue) : h'.Steady settings answered reader f₀ := by
  have hminds := h₁.fleet (f := h'.fleet) (.of_eq hconnections hqueue)
  exact ⟨⟨hsettings.trans hminds.configured, hsessions ▸ hminds.keys, hsessions ▸ hminds.served,
    hminds.honest⟩, hminds.minds⟩

theorem withSessions {sessions : Table Session} (h₁ : h.Steady settings answered reader f₀)
    (hkeys : (sessions.map Prod.fst).Nodup)
    (hserved : ∀ language s, (language, s) ∈ sessions → s.language = language ∧
      ∃ c, h.fleet.connections[s.client]? = some c ∧
        settings.server? language = some c.client.name) :
    ({ h with sessions } : Hub).Steady settings answered reader f₀ :=
  ⟨⟨h₁.configured, hkeys, hserved, h₁.honest⟩, h₁.minds⟩

theorem alterSession (h₁ : h.Steady settings answered reader f₀) (language : String)
    (change : Session → Session)
    (hchange : ∀ s, (change s).client = s.client ∧ (change s).language = s.language) :
    (h.alterSession language change).Steady settings answered reader f₀ := by
  have halter : h.alterSession language change =
      { h with sessions := h.sessions.alter language change } := by
    unfold Hub.alterSession Table.alter
    cases h.sessions.find? language <;> rfl
  rw [halter]
  refine h₁.withSessions (Table.keys_alter h₁.keys language change) fun language' s hs => ?_
  rcases Table.mem_alter hs with hold | ⟨s', hs', heq⟩
  · exact h₁.served language' s hold
  · obtain ⟨rfl, rfl⟩ := Prod.mk.inj heq
    obtain ⟨hlanguage, c, hc, hserver⟩ := h₁.served language' s' (Table.mem_of_find? hs')
    exact ⟨(hchange s').2.trans hlanguage, c, (hchange s').1 ▸ hc, hserver⟩

theorem alterDocument (h₁ : h.Steady settings answered reader f₀) (language uri : String)
    (change : TrackedDocument → TrackedDocument) :
    (h.alterDocument language uri change).Steady settings answered reader f₀ := by
  rw [alterDocument_eq]
  exact h₁.alterSession language _ fun s => ⟨rfl, rfl⟩

theorem alterBuffer (h₁ : h.Steady settings answered reader f₀) (id : Nat)
    (change : Buffer → Buffer) : (h.alterBuffer id change).Steady settings answered reader f₀ :=
  h₁.of_eq rfl rfl rfl rfl

theorem report (h₁ : h.Steady settings answered reader f₀) (level : Level) (name : String)
    (data : Pairs) : (h.report level name data).Steady settings answered reader f₀ :=
  h₁.of_eq rfl rfl rfl rfl

theorem release (h₁ : h.Steady settings answered reader f₀) (documents : List TrackedDocument) :
    (h.release documents).Steady settings answered reader f₀ := by
  induction documents generalizing h with
  | nil => exact h₁
  | cons document rest ih => exact ih (h₁.alterBuffer document.buffer Buffer.untrack)

end Steady

/-! ## Telling -/

theorem steady_guarded {step : Step Fleet Unit}
    (hstep : ∀ f, Fleet.Minds answered reader f (step.start f).2) (s : Session) :
    Step.Keeps (Steady settings answered reader f₀) (guarded s step) := by
  intro h h₁
  have hfleet := h₁.fleet (hstep h.fleet)
  rw [guarded, Step.start_bind, Step.start_attempt, onFleet, Step.start_zoom]
  generalize step.start h.fleet = result at hfleet ⊢
  obtain ⟨outcome, f⟩ := result
  cases outcome with
  | ok done => exact hfleet
  | error fault =>
    cases fault with
    | write fault => exact hfleet.of_eq rfl rfl rfl rfl
    | _ => exact hfleet

theorem steady_requestTokens (hanswered : answered s.client) (document : TrackedDocument) :
    Step.Keeps (Steady settings answered reader f₀) (requestTokens s document) := by
  refine Step.Keeps.bind (steady_guarded (fun f => ?_) s) fun _ => Step.Keeps.pure _
  have hsent : Fleet.Minds answered reader f _ :=
    Fleet.minds_sendTokensRequest hanswered document.uri document.version
  rw [Step.start_bind]
  generalize (Fleet.sendTokensRequest s.client document.uri document.version).start f = result
    at hsent ⊢
  obtain ⟨outcome, f'⟩ := result
  cases outcome <;> exact hsent

theorem steady_announce (hanswered : answered s.client) (uri : String) :
    Step.Keeps (Steady settings answered reader f₀) (announce s uri) := by
  apply Step.Keeps.get_bind
  intro h h₁
  cases h.document? s.language uri with
  | none => exact h₁
  | some document =>
  refine Step.Keeps.bind (Step.Keeps.modify fun h h₁ => h₁.alterBuffer _ _) (fun _ => ?_) h h₁
  apply Step.Keeps.get_bind
  intro h h₁
  cases h.buffers[document.buffer]? with
  | none => exact h₁
  | some b =>
  refine Step.Keeps.bind (steady_guarded (fun f => Fleet.minds_sendDidOpen hanswered uri b.language
    b.text document.version) s) (fun opened => ?_) h h₁
  cases opened with
  | false => exact Step.Keeps.pure _
  | true =>
    exact Step.Keeps.bind (Step.Keeps.modify fun h h₁ => h₁.alterDocument _ _ _) fun _ =>
      steady_requestTokens hanswered document

theorem steady_syncDocument (hanswered : answered s.client) (uri : String) :
    Step.Keeps (Steady settings answered reader f₀) (syncDocument s uri) := by
  intro h h₁
  cases hdocument : h.document? s.language uri with
  | none =>
    rw [start_syncDocument_of_none hdocument]
    exact h₁
  | some document =>
  cases hb : h.buffers[document.buffer]? with
  | none =>
    rw [start_syncDocument_of_no_buffer hdocument hb]
    exact h₁
  | some b =>
    rw [start_syncDocument_of_some hdocument hb]
    have hdrained := h₁.alterBuffer document.buffer fun b => b.drainChanges.2
    split
    · exact hdrained
    · refine Step.Keeps.bind (Step.Keeps.modify fun h h₁ => h₁.alterDocument _ _ _) (fun _ => ?_) _
        hdrained
      refine Step.Keeps.bind (steady_guarded (fun f => Fleet.minds_sendDidChange hanswered uri
        (document.version + 1) _) s) fun sent => ?_
      cases sent with
      | false => exact Step.Keeps.pure _
      | true => exact Step.Keeps.bind (steady_requestTokens hanswered _) fun _ => Step.Keeps.pure _

theorem steady_syncChanges :
    Step.Keeps (Steady settings answered reader f₀) syncChanges := by
  apply Step.Keeps.get_bind
  intro h h₁
  refine Step.Keeps.foldlM (fun total s _ => ?_) 0 h h₁
  by_cases hready : h.isReady s = true
  · rw [if_pos hready]
    refine Step.Keeps.foldlM (fun total entry _ => ?_) total
    exact Step.Keeps.bind (steady_syncDocument (h₁.answered_of_isReady hready) entry.1) fun _ =>
      Step.Keeps.pure _
  · rw [if_neg hready]
    exact Step.Keeps.pure total

/-! ## Sessions and documents -/

/-- The session that starts has the client of its server, whose reader may post. -/
theorem steady_startSession (h₁ : h.Steady settings answered reader f₀)
    (hreader : h.fleet.connections.length = reader) (language path : String) :
    ((startSession language path).start h).2.Steady settings answered reader f₀ := by
  rw [startSession, Step.start_bind, Step.start_get]
  dsimp only
  split
  · exact h₁
  · exact h₁
  next server _ hserver =>
  rw [Step.start_bind, Step.start_attempt, onFleet, Step.start_zoom]
  have hminds : h.fleet.Minds answered reader _ := hreader ▸ Fleet.minds_spawn h.fleet server []
    h.root path h.settings.maxMessageSize
  generalize hspawn :
    (Fleet.spawn server [] h.root path h.settings.maxMessageSize).start h.fleet = result at hminds ⊢
  obtain ⟨outcome, f⟩ := result
  have hfleet := h₁.fleet hminds
  cases outcome with
  | ok client =>
    have hname := Fleet.name_spawn (congrArg Prod.fst hspawn)
    rw [hspawn] at hname
    obtain ⟨c, hc, rfl⟩ := hname
    refine hfleet.withSessions (Table.keys_put h₁.keys language _) fun language' s hs => ?_
    rcases Table.mem_put hs with heq | hold
    · obtain ⟨rfl, rfl⟩ := Prod.mk.inj heq
      exact ⟨rfl, c, hc, h₁.configured ▸ hserver⟩
    · exact hfleet.served language' s hold
  | error fault =>
    have hfailed : ∀ (level : Level) (name : String) (data : Pairs),
        (({ h with fleet := f } : Hub).report level name data).Steady settings answered reader f₀ :=
      fun level name data => hfleet.report level name data
    cases fault with
    | write fault => exact hfailed _ _ _
    | pipe fault =>
      obtain ⟨kind, message⟩ := fault
      cases kind with
      | system name => exact hfailed _ _ _
      | value => exact hfleet
      | other name => exact hfleet
    | _ => exact hfleet

theorem steady_renew (h₁ : h.Steady settings answered reader f₀)
    (hreader : h.fleet.connections.length = reader) (b : Buffer)
    (documents : Table TrackedDocument) :
    ((renew b documents).start h).2.Steady settings answered reader f₀ := by
  refine Step.Keeps.after (steady_startSession h₁ hreader b.language b.path) fun started => ?_
  cases started with
  | none => exact Step.Keeps.pure _
  | some s =>
    exact Step.Keeps.bind (Step.Keeps.modify fun h h₁ => h₁.alterSession _ _ fun s => ⟨rfl, rfl⟩)
      fun _ => Step.Keeps.pure _

theorem steady_sessionFor (h₁ : h.Steady settings answered reader f₀)
    (hreader : h.fleet.connections.length = reader) (b : Buffer) :
    ((sessionFor b).start h).2.Steady settings answered reader f₀ := by
  rw [start_sessionFor]
  cases h.sessions.find? b.language with
  | none => exact steady_renew h₁ hreader b []
  | some s =>
    dsimp only
    split
    · exact h₁
    · exact steady_renew h₁ hreader b s.documents

theorem steady_openDocument (h₁ : h.Steady settings answered reader f₀)
    (hreader : h.fleet.connections.length = reader) (id : Nat) :
    ((openDocument id).start h).2.Steady settings answered reader f₀ := by
  rw [openDocument, Step.start_bind, Step.start_get]
  dsimp only
  cases h.buffers[id]? with
  | none => exact h₁
  | some b =>
  dsimp only
  split
  · exact h₁
  split
  · exact h₁
  refine Step.Keeps.after (steady_sessionFor h₁ hreader b) fun joined => ?_
  cases joined with
  | none => exact Step.Keeps.pure _
  | some session =>
  let document : TrackedDocument := { buffer := id, uri := uriOf b }
  refine Step.Keeps.bind (Step.Keeps.modify fun h h₁ =>
    (h₁.alterSession b.language
      (fun s => { s with documents := s.documents.put document.uri document })
      fun s => ⟨rfl, rfl⟩).alterBuffer id Buffer.track) fun _ => ?_
  apply Step.Keeps.get_bind
  intro h h₁
  split
  · next hready =>
    refine Step.Keeps.bind (steady_announce (h₁.answered_of_isReady hready) _) (fun _ => ?_) h h₁
    exact Step.Keeps.get_bind fun _ h₂ => h₂
  · exact h₁

theorem steady_closeDocument (h₁ : h.Steady settings answered reader f₀) (id : Nat) :
    (h.closeDocument id).Steady settings answered reader f₀ := by
  unfold closeDocument
  cases h.buffers[id]? with
  | none => exact h₁
  | some b =>
  refine Steady.alterBuffer (h₁.withSessions ?_ fun language s hs => ?_) id Buffer.untrack
  · rw [List.map_map]
    exact h₁.keys
  · obtain ⟨⟨language', s'⟩, hmem, heq⟩ := List.mem_map.1 hs
    obtain ⟨rfl, rfl⟩ := Prod.mk.inj heq
    exact h₁.served language' s' hmem

theorem steady_terminate (h₁ : h.Steady settings answered reader f₀) (client : Nat) :
    ({ h with fleet := h.fleet.terminate client } : Hub).Steady settings answered reader f₀ :=
  h₁.fleet (Fleet.minds_terminate h.fleet client)

theorem length_terminate (f : Fleet) (id : Nat) :
    (f.terminate id).connections.length = f.connections.length := by
  unfold Fleet.terminate
  split
  · rfl
  · simp [Fleet.report, Fleet.modifyProcess, Fleet.modifyClient, Fleet.alter]

theorem steady_succeed (h₁ : h.Steady settings answered reader f₀)
    (hreader : h.fleet.connections.length = reader) (language : String) (old : Session)
    (b : Buffer) : ((succeed language old b).start h).2.Steady settings answered reader f₀ := by
  refine Step.Keeps.after (steady_startSession h₁ hreader language b.path) fun started => ?_
  cases started with
  | none =>
    exact Step.Keeps.bind (Step.Keeps.modify fun h h₁ => h₁.release _) fun _ => Step.Keeps.pure _
  | some session =>
    refine Step.Keeps.bind (Step.Keeps.modify fun h h₁ =>
      h₁.alterSession _ _ fun s => ⟨rfl, rfl⟩) fun _ => ?_
    exact Step.Keeps.bind (Step.Keeps.modify fun h h₁ => h₁.report _ _ _) fun _ =>
      Step.Keeps.pure _

theorem steady_restart (h₁ : h.Steady settings answered reader f₀)
    (hreader : h.fleet.connections.length = reader) (language : String) :
    ((restart language).start h).2.Steady settings answered reader f₀ := by
  rw [restart, Step.start_bind, Step.start_get]
  dsimp only
  rw [Step.start_bind, Step.start_modify]
  dsimp only
  have herased : ({ h with sessions := h.sessions.erase language } : Hub).Steady settings answered
      reader f₀ :=
    h₁.withSessions (Table.keys_erase h₁.keys language) fun language' s hs =>
      h₁.served language' s (List.mem_filter.1 hs).1
  cases h.sessions.find? language with
  | none => exact herased
  | some old =>
  dsimp only
  cases old.documents.values.head? with
  | none => exact herased
  | some first =>
  dsimp only
  rw [Step.start_bind, Step.start_modify]
  dsimp only
  have hstopped := steady_terminate herased old.client
  cases h.buffers[first.buffer]? with
  | none => exact hstopped
  | some b =>
    exact steady_succeed hstopped ((length_terminate h.fleet old.client).trans hreader) language
      old b

theorem steady_shutdown (h₁ : h.Steady settings answered reader f₀) :
    h.shutdown.Steady settings answered reader f₀ := by
  have hstopped : ∀ stopped : List Session,
      (stopped.foldl stop h).Steady settings answered reader f₀ := by
    intro stopped
    induction stopped generalizing h with
    | nil => exact h₁
    | cons s rest ih => exact ih ((steady_terminate h₁ s.client).release s.documents.values)
  exact (hstopped h.sessions.values).withSessions List.nodup_nil nofun

/-! ## Hearing -/

theorem steady_handleCrash (h₁ : h.Steady settings answered reader f₀) (client reason : String) :
    (h.handleCrash client reason).Steady settings answered reader f₀ := by
  obtain ⟨data, hcrash⟩ := handleCrash_eq h client reason
  have hreleased : (h.letGo client).Steady settings answered reader f₀ := by
    unfold letGo
    split
    · split
      · exact h₁.release _
      · exact h₁
    · exact h₁
  have hreported := hreleased.report .error "lsp.session_lost" data
  rw [hcrash, noteCrash]
  split
  · exact hreported.of_eq rfl rfl rfl rfl
  · exact hreported

/-- The session that is told of its documents is the one whose start was answered. -/
theorem steady_initiate (h₁ : h.Steady settings answered reader f₀)
    (hs : ∃ s', h.sessions.find? s.language = some s' ∧ s'.client = s.client)
    (hanswered : answered s.client) (result : Json) :
    ((initiate s result).start h).2.Steady settings answered reader f₀ := by
  cases hencoding : Message.negotiatedEncoding result with
  | error fault =>
    rw [initiate, Step.start_bind, hencoding]
    exact h₁
  | ok encoding =>
  obtain ⟨s', hs', hclient⟩ := hs
  obtain ⟨data, hstart⟩ := start_initiate hencoding hs'
  have haltered := h₁.alterSession s.language (fun s => { s with encoding }) fun s => ⟨rfl, rfl⟩
  have hready := haltered.fleet (Fleet.minds_markReady hanswered)
  have hfleet : (h.alterSession s.language fun s => { s with encoding }).fleet = h.fleet := by
    unfold Hub.alterSession
    split <;> rfl
  rw [hfleet] at hready
  have hanswered' : answered ({ s' with encoding } : Session).client := hclient ▸ hanswered
  rw [hstart]
  refine Step.Keeps.bind (steady_guarded (fun f => Fleet.minds_sendStarted hanswered') _)
    (fun written => ?_) _ (hready.report .info "lsp.ready" data)
  cases written with
  | false => exact Step.Keeps.pure _
  | true => exact Step.Keeps.forM fun entry => steady_announce hanswered' entry.1

theorem steady_handleStarted (h₁ : h.Steady settings answered reader f₀)
    (hs : h.sessions.find? s.language = some s) (hanswered : answered s.client) (result : Json) :
    ((handleStarted s result).start h).2.Steady settings answered reader f₀ := by
  rw [start_handleStarted]
  cases Message.tokenTypes result with
  | error fault => exact h₁
  | ok legend =>
    dsimp only
    split
    · refine steady_initiate
        (h₁.alterSession s.language (fun s => { s with legend }) fun s => ⟨rfl, rfl⟩)
        ⟨{ s with legend }, ?_, rfl⟩ hanswered result
      rw [find?_alterSession, if_pos rfl, hs, Option.map_some]
    · exact steady_initiate h₁ ⟨s, hs, rfl⟩ hanswered result

/-- An answer to a start makes its server ready. -/
theorem steady_settle {kind : RequestKind} (h₁ : h.Steady settings answered reader f₀)
    (hs : h.sessions.find? s.language = some s)
    (hanswered : ∀ path, kind = .start path → answered s.client) (client : String)
    (message : Json) :
    ((settle s client message kind).start h).2.Steady settings answered reader f₀ := by
  have hreport : ∀ (h : Hub) level name data, h.Steady settings answered reader f₀ →
      (h.report level name data).Steady settings answered reader f₀ :=
    fun h level name data h₁ => h₁.report level name data
  cases herror : message.field? "error" with
  | some error => exact keeps_settle_of_error hreport herror s client kind h h₁
  | none =>
    unfold settle
    rw [herror]
    cases kind with
    | start path => exact steady_handleStarted h₁ hs (hanswered path rfl) _
    | tokens uri version =>
      exact keeps_handleTokens hreport
        (fun h _ _ _ _ h₁ => (h₁.alterDocument _ _ _).alterBuffer _ _) s uri version _ h h₁

/-! ## Deeds -/

theorem steady_modifyProcess (h₁ : h.Steady settings answered reader f₀) (client : Nat)
    {change : Subprocess → Subprocess} (hreceived : ∀ p, (change p).received = p.received) :
    ({ h with fleet := h.fleet.modifyProcess client change } : Hub).Steady settings answered reader
      f₀ :=
  h₁.fleet (Fleet.minds_modifyProcess h.fleet client change hreceived)

/-- Whatever is done, but for the handling of events. -/
theorem steady_act (h₁ : h.Sound settings answered) {deed : Deed} (hdrain : deed ≠ .drain)
    (hreader : deed.reader h = some reader) :
    (h.act deed).Steady settings answered reader h.fleet := by
  have hnow := h₁.steady reader
  cases deed with
  | create | edit | enter => exact hnow.of_eq rfl rfl rfl rfl
  | leave id failure => cases failure <;> exact hnow.of_eq rfl rfl rfl rfl
  | openDocument id => exact steady_openDocument hnow (Option.some.inj hreader) id
  | closeDocument id => exact steady_closeDocument hnow id
  | syncChanges => exact steady_syncChanges h hnow
  | drain => exact absurd rfl hdrain
  | restart language => exact steady_restart hnow (Option.some.inj hreader) language
  | shutdown => exact steady_shutdown hnow
  | emit | finish | breakPipe => exact steady_modifyProcess hnow _ fun _ => rfl
  | read client =>
    obtain rfl := Option.some.inj hreader
    exact hnow.fleet (Fleet.minds_read h.fleet client)
  | post event => cases hreader

end Hub

end TextEditor.Server
