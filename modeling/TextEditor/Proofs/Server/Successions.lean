import TextEditor.Proofs.Server.Passing

/-!
# Sessions that begin and end, in shifts

A start puts a session with the newest connection in the place of one whose server is not alive, or
leaves a connection that no session has.  What goes over to a new session is reset by a restart, but
not when a document is opened.
-/

namespace TextEditor.Server.Hub

variable {h₀ h h' : Hub} {moment : Moment} {s : Session} {language : String}
variable {serving : Session → Prop} {agenda : List String}

/-! ## Starting -/

/-- What becomes of the start of a session. -/
structure Begins (language : String) (h : Hub) (result : Except Fault (Option Session) × Hub) :
    Prop where
  buffers : result.2.buffers = h.buffers
  session : ∀ s, result.1 = .ok (some s) →
    s = { language, client := h.fleet.connections.length } ∧
      result.2.sessions = h.sessions.put language s ∧
        ∃ c : Connection, c.Newborn ∧
          Eased (h.fleet.connections ++ [c]) result.2.fleet.connections
  none : (∀ s, result.1 ≠ .ok (some s)) → result.2.sessions = h.sessions ∧
    (result.2.fleet.connections = h.fleet.connections ∨
      ∃ c : Connection, c.Newborn ∧ result.2.fleet.connections = h.fleet.connections ++ [c] ∧
        (c.client.state.isAlive = false ∨
          ∃ fault : PipeFault, fault.isExpected = false ∧ result.1 = .error (.pipe fault)))

theorem begins_startSession (h : Hub) (language path : String) :
    Begins language h ((startSession language path).start h) := by
  have hquiet : ∀ (outcome : Except Fault (Option Session)) (h' : Hub),
      (∀ s, outcome ≠ .ok (some s)) → h'.buffers = h.buffers → h'.sessions = h.sessions →
        (h'.fleet.connections = h.fleet.connections ∨
          ∃ c : Connection, c.Newborn ∧ h'.fleet.connections = h.fleet.connections ++ [c] ∧
            (c.client.state.isAlive = false ∨
              ∃ fault : PipeFault, fault.isExpected = false ∧ outcome = .error (.pipe fault))) →
          Begins language h (outcome, h') :=
    fun outcome h' hnone hbuffers hsessions hconnections =>
      ⟨hbuffers, fun s hs => absurd hs (hnone s), fun _ => ⟨hsessions, hconnections⟩⟩
  rw [startSession, Step.start_bind, Step.start_get]
  dsimp only
  split
  · exact hquiet _ _ (by simp) rfl rfl (.inl rfl)
  · exact hquiet _ _ (by simp) rfl rfl (.inl rfl)
  next server _ _ =>
  rw [Step.start_bind, Step.start_attempt, onFleet, Step.start_zoom]
  have hlaunching := Fleet.launching_spawn h.fleet server [] h.root path h.settings.maxMessageSize
  generalize (Fleet.spawn server [] h.root path h.settings.maxMessageSize).start h.fleet = result
    at hlaunching ⊢
  cases hlaunching with
  | @started c f' hnewborn hconnections =>
    refine ⟨rfl, fun s hs => ?_, fun hnone => absurd rfl (hnone _)⟩
    obtain rfl := Option.some.inj (Except.ok.inj hs)
    exact ⟨rfl, rfl, c, hnewborn, hconnections⟩
  | stopped fault hnewborn hdead hconnections =>
    exact hquiet _ _ (by simp) rfl rfl (.inr ⟨_, hnewborn, hconnections, .inl hdead⟩)
  | failed fault hconnections =>
    obtain ⟨kind, message⟩ := fault
    cases kind with
    | system name => exact hquiet _ _ (by simp) rfl rfl (.inl hconnections)
    | value => exact hquiet _ _ (by simp) rfl rfl (.inl hconnections)
    | other name => exact hquiet _ _ (by simp) rfl rfl (.inl hconnections)
  | @raised fault c f' hfault hnewborn hconnections =>
    obtain ⟨kind, message⟩ := fault
    cases kind with
    | system name => cases hfault
    | value => cases hfault
    | other name =>
      exact hquiet _ _ (by simp) rfl rfl (.inr ⟨c, hnewborn, hconnections, .inr ⟨_, rfl, rfl⟩⟩)

theorem roster_of_sessions (hsessions : h'.sessions = h.sessions) :
    h'.roster = { h.roster with connections := h'.fleet.connections } := by
  rw [roster, hsessions]
  rfl

namespace Arrived

/-- Time goes by. -/
theorem eased (harrived : Arrived h₀ moment serving agenda h)
    (hconnections : Eased h.fleet.connections h'.fleet.connections)
    (hsessions : h'.sessions = h.sessions) : Arrived h₀ moment nobody [] h' :=
  harrived.go (by rw [roster_of_sessions hsessions]; exact .eased hconnections)

/-- A session that just started takes documents over. -/
theorem join (harrived : Arrived h₀ moment serving agenda h) {c : Connection}
    (hnewborn : c.Newborn)
    (hconnections : Eased (h.fleet.connections ++ [c]) h'.fleet.connections)
    (hclient : s.client = h.fleet.connections.length)
    (hfind : ∀ other, h'.sessions.find? other =
      if other = language then some s else h.sessions.find? other)
    (hdead : ∀ old, h.sessions.find? language = some old → h.roster.Dead old.client)
    (hdocuments : ∀ uri d, s.documents.find? uri = some d → d.uri = uri ∧
      (d.opened = false ∧ d.tokens = [] ∨ Inherits language uri s.client d h₀ moment)) :
    Arrived h₀ moment nobody [] h' := by
  have hjoined : Shift h₀ moment h.roster ⟨h'.sessions, h.roster.connections ++ [c]⟩ :=
    .joined hnewborn hclient hfind hdead hdocuments
  have heased : Shift h₀ moment ⟨h'.sessions, h.roster.connections ++ [c]⟩ h'.roster :=
    .eased hconnections
  exact ⟨(harrived.passage.tail hjoined).tail heased,
    heased.addressed (hjoined.addressed harrived.addressed), nofun, nofun⟩

/-- The session of a language ends. -/
theorem erase (harrived : Arrived h₀ moment serving agenda h) (language : String)
    (hended : ∀ s, h.sessions.find? language = some s →
      h.roster.Dead s.client ∨ Drops s.client h₀ moment) :
    Arrived h₀ moment nobody [] { h with sessions := h.sessions.erase language } := by
  refine harrived.go (.ended fun other => ?_)
  by_cases hother : other = language
  · subst hother
    exact .inr ⟨Table.find?_erase_self _ _, hended⟩
  · exact .inl (Table.find?_erase_of_ne _ hother)

end Arrived

namespace Begins

/-- A start led to no session. -/
theorem unborn {outcome : Except Fault (Option Session)} (hbegins : Begins language h (outcome, h'))
    (harrived : Arrived h₀ moment serving agenda h) (hnone : ∀ s, outcome ≠ .ok (some s))
    (hraises : ∀ fault : PipeFault, fault.isExpected = false → outcome = .error (.pipe fault) →
      Raises h.fleet.connections.length h₀ moment) : Arrived h₀ moment nobody [] h' := by
  obtain ⟨hsessions, hsame | ⟨c, hnewborn, hconnections, hlost⟩⟩ := hbegins.none hnone
  · exact harrived.eased (.of_eq hsame) hsessions
  · refine harrived.go ?_
    rw [roster_of_sessions hsessions, show h'.fleet.connections = _ from hconnections]
    refine .stillborn hnewborn (hlost.imp_right ?_)
    rintro ⟨fault, hfault, hraised⟩
    exact hraises fault hfault hraised

variable (hbegins : Begins language h (.ok (some s), h'))
include hbegins

theorem language_eq : s.language = language := by
  rw [(hbegins.session s rfl).1]

theorem client_eq : s.client = h.fleet.connections.length := by
  rw [(hbegins.session s rfl).1]

theorem find?_altered (change : Session → Session) (other : String) :
    (h'.alterSession language change).sessions.find? other =
      if other = language then some (change s) else h.sessions.find? other := by
  have hsessions : h'.sessions = h.sessions.put language s := (hbegins.session s rfl).2.1
  rw [find?_alterSession, hsessions]
  split
  · rw [Table.find?_put_self, Option.map_some]
  · next hother =>
    rw [Table.find?_put_of_ne _ _ hother]

theorem connections_altered (change : Session → Session) :
    ∃ c : Connection, c.Newborn ∧ Eased (h.fleet.connections ++ [c])
      (h'.alterSession language change).fleet.connections := by
  have hroster := roster_alterSession h' language change
  rw [show (h'.alterSession language change).fleet.connections = h'.fleet.connections from
    congrArg Roster.connections hroster]
  exact (hbegins.session s rfl).2.2

/-- The session that a start led to gets a legend and takes documents over. -/
theorem furnish (harrived : Arrived h₀ moment serving agenda h) (legend : List String)
    {documents : Table TrackedDocument} (hkeys : (documents.map Prod.fst).Nodup)
    (hdead : ∀ old, h.sessions.find? language = some old → h.roster.Dead old.client)
    (hdocuments : ∀ uri d, documents.find? uri = some d → d.uri = uri ∧
      (d.opened = false ∧ d.tokens = [] ∨
        Inherits language uri h.fleet.connections.length d h₀ moment)) :
    Arrived h₀ moment nobody [] (h'.alterSession language fun s =>
      { s with documents := s.documents.putAll documents, legend }) := by
  let change : Session → Session := fun s =>
    { s with documents := s.documents.putAll documents, legend }
  obtain ⟨c, hnewborn, hconnections⟩ := hbegins.connections_altered change
  refine harrived.join (s := change s) hnewborn hconnections hbegins.client_eq
    (hbegins.find?_altered change) hdead fun uri d hd => ?_
  have hnone : s.documents = [] := by
    rw [(hbegins.session s rfl).1]
  have hfound : documents.find? uri = some d := by
    rw [show (change s).documents = s.documents.putAll documents from rfl, hnone,
      Table.find?_putAll hkeys] at hd
    exact Option.or_none.symm.trans hd
  have hsaid := hdocuments uri d hfound
  rwa [← hbegins.client_eq] at hsaid

end Begins

/-! ## Opening -/

/-- A session that a buffer can join at the moment at which it is opened. -/
structure Lodges (h₀ : Hub) (moment : Moment) (b : Buffer)
    (result : Except Fault (Option Session) × Hub) : Prop where
  arrived : Arrived h₀ moment nobody [] result.2
  session : ∀ s, result.1 = .ok (some s) → s.language = b.language ∧
    ∃ s', result.2.sessions.find? b.language = some s' ∧ s'.client = s.client ∧
      result.2.roster.Outdated h₀ moment s.client (uriOf b)

variable {id : Nat} {b : Buffer}

/-- The client of a session that begins is the last one, and waits for no tokens. -/
theorem outdated_of_newborn {R : Roster} {connections : List Connection} {c : Connection}
    (hnewborn : c.Newborn) (heased : Eased (connections ++ [c]) R.connections) (uri : String) :
    R.Outdated h₀ moment connections.length uri := by
  intro c' number version hc' hwaits
  obtain ⟨c₀, hc₀, heases⟩ := heased.some_left hc'
  obtain rfl : c = c₀ := Option.some.inj (List.getElem?_concat_length.symm.trans hc₀)
  cases hnewborn.pending _ (heases.pending _ hwaits)

/-- The documents of a session whose server has stopped go over as they are. -/
theorem lodges_renew (haddressed : h.roster.Addressed) (hdoes : moment.Does (.openDocument id))
    (hb : h.buffers[id]? = some b) {documents : Table TrackedDocument}
    (huris : (documents.map Prod.fst).Nodup)
    (hold : ∀ old, h.sessions.find? b.language = some old →
      (h.stateOf old).isAlive = false ∧ old.documents = documents)
    (hnone : h.sessions.find? b.language = none → documents = [])
    (hraises : ∀ fault, ((renew b documents).start h).1 = .error fault →
      ((openDocument id).start h).1 = .error fault) :
    Lodges h moment b ((renew b documents).start h) := by
  have hstart : Arrived h moment nobody [] h := .start haddressed
  have hbegins := begins_startSession h b.language b.path
  rw [renew, Step.start_bind] at hraises ⊢
  generalize (startSession b.language b.path).start h = result at hbegins hraises ⊢
  obtain ⟨outcome, h'⟩ := result
  have hunborn : (∀ s, outcome ≠ .ok (some s)) → Arrived h moment nobody [] h' := by
    refine fun hnot => hbegins.unborn hstart hnot ?_
    rintro fault hfault rfl
    exact ⟨rfl, fault, hfault, .inl ⟨id, hdoes, hraises (.pipe fault) rfl⟩⟩
  cases outcome with
  | error fault => exact ⟨hunborn (by simp), fun s hs => by cases hs⟩
  | ok started =>
  cases started with
  | none => exact ⟨hunborn (by simp), fun s hs => by cases hs⟩
  | some s =>
    refine ⟨hbegins.furnish hstart _ huris (fun old hold' c hc => ?_) fun uri d hd => ?_,
      fun s' hs' => ?_⟩
    · have hstate := (hold old hold').1
      rw [stateOf, Fleet.stateOf, Fleet.client?, show h.fleet.connections[old.client]? = some c
        from hc] at hstate
      exact hstate
    · cases hs₀ : h.sessions.find? b.language with
      | none =>
        rw [hnone hs₀] at hd
        cases hd
      | some old =>
        obtain ⟨hstate, rfl⟩ := hold old hs₀
        exact ⟨haddressed b.language old uri d ⟨hs₀, hd⟩, .inr ⟨⟨id, b, hdoes, hb, rfl⟩,
          ⟨old, hs₀, hstate, hd⟩, rfl⟩⟩
    · obtain rfl : s = s' := Option.some.inj (Except.ok.inj hs')
      refine ⟨hbegins.language_eq, _, (hbegins.find?_altered _ _).trans (if_pos rfl), rfl, ?_⟩
      obtain ⟨c, hnewborn, hconnections⟩ := hbegins.connections_altered fun s =>
        { s with documents := s.documents.putAll documents, legend := b.profile.tokenTypes }
      rw [hbegins.client_eq]
      exact outdated_of_newborn hnewborn hconnections _

theorem lodges_sessionFor (htidy : h.face.Tidy) (haddressed : h.roster.Addressed)
    (hdoes : moment.Does (.openDocument id)) (hb : h.buffers[id]? = some b)
    (hraises : ∀ fault, ((sessionFor b).start h).1 = .error fault →
      ((openDocument id).start h).1 = .error fault) :
    Lodges h moment b ((sessionFor b).start h) := by
  rw [start_sessionFor] at hraises ⊢
  cases hs : h.sessions.find? b.language with
  | none =>
    rw [hs] at hraises
    refine lodges_renew haddressed hdoes hb List.nodup_nil (fun old hold => ?_) (fun _ => rfl)
      hraises
    rw [hs] at hold
    cases hold
  | some s =>
    rw [hs] at hraises
    dsimp only at hraises ⊢
    split
    · refine ⟨.start haddressed, fun s' hs' => ?_⟩
      obtain rfl : s = s' := Option.some.inj (Except.ok.inj hs')
      refine ⟨htidy.named _ s hs, s, hs, rfl, fun c number version hc hwaits => ?_⟩
      exact ⟨⟨id, b, s, hdoes, hb, rfl, hs, rfl⟩, c, hc, hwaits⟩
    · next hdead =>
      rw [if_neg hdead] at hraises
      refine lodges_renew haddressed hdoes hb (htidy.uris b.language s hs) (fun old hold => ?_)
        (fun hnone => ?_) hraises
      · obtain rfl : s = old := Option.some.inj (hs.symm.trans hold)
        exact ⟨Bool.not_eq_true _ ▸ hdead, rfl⟩
      · rw [hs] at hnone
        cases hnone

/-- Tell the server of a session of a buffer that just joined it, if it is ready. -/
def welcome (session : Session) (b : Buffer) : Step Hub (Option TrackedDocument) := do
  if (← get).isReady session then announce session (uriOf b)
  return (← get).document? b.language (uriOf b)

theorem start_openDocument (hb : h.buffers[id]? = some b)
    (henabled : h.settings.serversEnabled = true)
    (hserver : (h.settings.server? b.language).isNone = false) :
    (openDocument id).start h =
      match (sessionFor b).start h with
      | (.ok (some session), h') => (welcome session b).start (h'.adopt id b)
      | (.ok none, h') => (.ok none, h')
      | (.error fault, h') => (.error fault, h') := by
  rw [openDocument, Step.start_bind, Step.start_get]
  dsimp only
  rw [hb]
  dsimp only
  rw [henabled, hserver]
  simp only [Bool.not_true, Bool.false_eq_true, if_false]
  rw [Step.start_bind]
  generalize (sessionFor b).start h = result
  obtain ⟨outcome, h'⟩ := result
  cases outcome with
  | error fault => rfl
  | ok joined => cases joined <;> rfl

/-- The buffer joined the session and its server is told of it if it is ready. -/
theorem arrived_welcome (harrived : Arrived h₀ moment nobody [] h) {s' : Session}
    (hlanguage : s.language = b.language) (hs' : h.sessions.find? b.language = some s')
    (hclient : s'.client = s.client)
    (houtdated : h.roster.Outdated h₀ moment s.client (uriOf b)) :
    Arrived h₀ moment nobody [] ((welcome s b).start (h.adopt id b)).2 := by
  let change : Session → Session := fun s =>
    { s with documents := s.documents.put (uriOf b) { buffer := id, uri := uriOf b } }
  have hroster : (h.adopt id b).roster = h.roster.alter b.language change :=
    roster_alterSession h b.language change
  have hadopted : Arrived h₀ moment nobody [] (h.adopt id b) := by
    refine harrived.go ?_
    rw [hroster]
    exact .adopted hs' (hclient ▸ houtdated)
  rw [welcome, Step.start_bind, Step.start_get]
  dsimp only
  split
  · next hready =>
    have hserves : (h.adopt id b).roster.Serves s := by
      refine ⟨?_, ?_⟩
      · rw [hroster, hlanguage, Roster.find?_alter, if_pos rfl,
          show h.roster.sessions.find? b.language = some s' from hs']
        exact ⟨change s', rfl, hclient⟩
      · have hstate : (h.adopt id b).fleet.stateOf s.client = .ready := of_decide_eq_true hready
        rw [Fleet.stateOf, Fleet.client?] at hstate
        cases hc : (h.adopt id b).fleet.connections[s.client]? with
        | none =>
          rw [hc] at hstate
          cases hstate
        | some c =>
          rw [hc] at hstate
          exact ⟨c, hc, hstate⟩
    have hserving : Arrived h₀ moment (Eq s) [uriOf b] (h.adopt id b) := by
      refine ⟨hadopted.passage, hadopted.addressed, fun s₀ hs₀ => hs₀ ▸ hserves, ?_⟩
      rintro s₀ rfl uri huri
      rw [List.mem_singleton.1 huri, hroster]
      exact houtdated
    refine Step.Keeps.after (P := Arrived h₀ moment nobody []) ?_ fun _ =>
      Step.Keeps.get_bind fun _ h => h
    exact (arrived_announce rfl hserving List.not_mem_nil).toNobody
  · exact hadopted

theorem arrived_openDocument (htidy : h.face.Tidy) (haddressed : h.roster.Addressed)
    (hdoes : moment.Does (.openDocument id)) :
    Arrived h moment nobody [] ((openDocument id).start h).2 := by
  have hstart : Arrived h moment nobody [] h := .start haddressed
  cases hb : h.buffers[id]? with
  | none =>
    rw [openDocument, Step.start_bind, Step.start_get]
    dsimp only
    rw [hb]
    exact hstart
  | some b =>
  by_cases hserved : h.settings.serversEnabled = true ∧
      (h.settings.server? b.language).isNone = false
  · obtain ⟨henabled, hserver⟩ := hserved
    have hopen := start_openDocument hb henabled hserver
    have hlodges := lodges_sessionFor htidy haddressed hdoes hb fun fault hfault => by
      rw [hopen]
      generalize (sessionFor b).start h = result at hfault ⊢
      obtain ⟨outcome, h'⟩ := result
      obtain rfl : outcome = .error fault := hfault
      rfl
    rw [hopen]
    generalize (sessionFor b).start h = result at hlodges ⊢
    obtain ⟨outcome, h'⟩ := result
    obtain ⟨harrived, hsession⟩ := hlodges
    cases outcome with
    | error fault => exact harrived
    | ok joined =>
    cases joined with
    | none => exact harrived
    | some s =>
      obtain ⟨hlanguage, s', hs', hclient, houtdated⟩ := hsession s rfl
      exact arrived_welcome harrived hlanguage hs' hclient houtdated
  · rw [openDocument, Step.start_bind, Step.start_get]
    dsimp only
    rw [hb]
    dsimp only
    split
    · exact hstart
    · next henabled =>
      split
      · exact hstart
      · next hserver =>
        exact absurd ⟨by simpa using henabled, eq_false_of_ne_true hserver⟩ hserved

/-! ## Closing and ending -/

theorem roster_release (h : Hub) (documents : List TrackedDocument) :
    (h.release documents).roster = h.roster := by
  rw [roster, sessions_release, fleet_release]
  rfl

theorem arrived_closeDocument (haddressed : h.roster.Addressed) (id : Nat) :
    Arrived h moment nobody [] (h.closeDocument id) := by
  have hstart : Arrived h moment nobody [] h := .start haddressed
  unfold closeDocument
  cases h.buffers[id]? with
  | none => exact hstart
  | some b => exact hstart.go (.closed (uriOf b))

/-- The client that was stopped is not alive. -/
theorem dead_terminated (f : Fleet) (client : Nat) (sessions : Table Session) :
    Roster.Dead ⟨sessions, (f.terminate client).connections⟩ client :=
  fun _ hc => Fleet.dead_of_terminate hc

/-- The documents of a session that was stopped go over to its successor, if that starts. -/
theorem arrived_succeed (harrived : Arrived h₀ moment nobody [] h)
    (hlength : h.fleet.connections.length = h₀.fleet.connections.length)
    (hdoes : moment.Does (.restart language)) (hgone : h.sessions.find? language = none)
    {old : Session} (huris : (old.documents.map Prod.fst).Nodup)
    (haddressed : ∀ uri d, old.documents.find? uri = some d → d.uri = uri) (b : Buffer)
    (hraises : ∀ fault, ((succeed language old b).start h).1 = .error fault →
      ((restart language).start h₀).1 = .error fault) :
    Arrived h₀ moment nobody [] ((succeed language old b).start h).2 := by
  have hbegins := begins_startSession h language b.path
  rw [succeed, Step.start_bind] at hraises ⊢
  generalize (startSession language b.path).start h = result at hbegins hraises ⊢
  obtain ⟨outcome, h'⟩ := result
  have hunborn : (∀ s, outcome ≠ .ok (some s)) → Arrived h₀ moment nobody [] h' := by
    refine fun hnot => hbegins.unborn harrived hnot ?_
    rintro fault hfault rfl
    exact ⟨hlength, fault, hfault, .inr ⟨language, hdoes, hraises (.pipe fault) rfl⟩⟩
  cases outcome with
  | error fault => exact hunborn (by simp)
  | ok started =>
  cases started with
  | none => exact (hunborn (by simp)).of_roster (roster_release h' _)
  | some s =>
    let reset : TrackedDocument → TrackedDocument := fun d =>
      { d with opened := false, tokens := [], tokensVersion := -1 }
    let documents : Table TrackedDocument := old.documents.map fun entry => (entry.1, reset entry.2)
    let change : Session → Session := fun s =>
      { s with legend := b.profile.tokenTypes, documents := s.documents.putAll documents }
    have hkeys : (documents.map Prod.fst).Nodup := by
      rw [List.map_map]
      exact huris
    have hjoined : Arrived h₀ moment nobody [] (h'.alterSession language change) := by
      refine hbegins.furnish harrived _ hkeys (fun old hold => ?_) fun uri d hd => ?_
      · rw [hgone] at hold
        cases hold
      · rw [Table.find?_map old.documents reset uri] at hd
        obtain ⟨d₀, hd₀, rfl⟩ := Option.map_eq_some_iff.1 hd
        exact ⟨haddressed uri d₀ hd₀, .inl ⟨rfl, rfl⟩⟩
    rw [← hbegins.language_eq] at hjoined
    exact hjoined.of_roster rfl

theorem arrived_restart (htidy : h.face.Tidy) (haddressed : h.roster.Addressed)
    (hdoes : moment.Does (.restart language)) :
    Arrived h moment nobody [] ((restart language).start h).2 := by
  have hstart : Arrived h moment nobody [] h := .start haddressed
  have hrestart := start_restart h language
  cases hold : h.sessions.find? language with
  | none =>
    rw [hrestart, hold]
    refine hstart.erase language fun s hs => ?_
    rw [hold] at hs
    cases hs
  | some old =>
  rw [hold] at hrestart
  dsimp only at hrestart
  cases hfirst : old.documents.values.head? with
  | none =>
    rw [hrestart, hfirst]
    refine hstart.erase language fun s hs => .inr ?_
    obtain rfl : old = s := Option.some.inj (hold.symm.trans hs)
    exact ⟨language, old, hdoes, hold, rfl, List.map_eq_nil_iff.1 (List.head?_eq_none_iff.1 hfirst)⟩
  | some first =>
  rw [hfirst] at hrestart
  dsimp only at hrestart
  let stopped : Hub := { h with fleet := h.fleet.terminate old.client }
  have hstopped : Arrived h moment nobody [] stopped :=
    hstart.eased (Fleet.eased_terminate h.fleet old.client) rfl
  have hgone : Arrived h moment nobody []
      { stopped with sessions := h.sessions.erase language } := by
    refine hstopped.erase language fun s hs => .inl ?_
    obtain rfl : old = s := Option.some.inj (hold.symm.trans hs)
    exact dead_terminated h.fleet old.client h.sessions
  cases hb : h.buffers[first.buffer]? with
  | none =>
    rw [hrestart, hb]
    exact hgone
  | some b =>
    rw [hb] at hrestart
    dsimp only at hrestart
    rw [hrestart]
    refine arrived_succeed hgone (length_terminate h.fleet old.client) hdoes
      (Table.find?_erase_self _ _) (htidy.uris language old hold)
      (fun uri d hd => haddressed language old uri d ⟨hold, hd⟩) b fun fault hfault => ?_
    rw [hrestart]
    exact hfault

/-- The servers of the sessions that are stopped are not alive any more. -/
theorem stopped_foldl (sessions : List Session) (h : Hub) :
    Eased h.fleet.connections (sessions.foldl stop h).fleet.connections ∧
      ∀ s ∈ sessions, (sessions.foldl stop h).roster.Dead s.client := by
  induction sessions generalizing h with
  | nil => exact ⟨.of_eq rfl, nofun⟩
  | cons s rest ih =>
    have hstop : (h.stop s).fleet = h.fleet.terminate s.client := fleet_release _ _
    obtain ⟨heased, hdead⟩ := ih (h.stop s)
    rw [List.foldl_cons]
    rw [hstop] at heased
    refine ⟨(Fleet.eased_terminate h.fleet s.client).trans heased, fun s' hs' => ?_⟩
    rcases List.mem_cons.1 hs' with rfl | hrest
    · intro c hc
      obtain ⟨c₀, hc₀, heases⟩ := heased.some_left hc
      by_contra halive
      have hbefore := heases.alive (by simpa using halive)
      rw [Fleet.dead_of_terminate hc₀] at hbefore
      cases hbefore
    · exact hdead s' hrest

theorem arrived_shutdown (haddressed : h.roster.Addressed) :
    Arrived h moment nobody [] h.shutdown := by
  have hstart : Arrived h moment nobody [] h := .start haddressed
  obtain ⟨heased, hdead⟩ := stopped_foldl h.sessions.values h
  let stopped : Hub := { h.sessions.values.foldl stop h with sessions := h.sessions }
  have hstopped : Arrived h moment nobody [] stopped := hstart.eased heased rfl
  refine hstopped.go (.ended fun language => .inr ⟨rfl, fun s hs => .inl ?_⟩)
  exact hdead s (List.mem_map.2 ⟨_, Table.mem_of_find? hs, rfl⟩)

end TextEditor.Server.Hub
