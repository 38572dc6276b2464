import TextEditor.Proofs.Server.Roster

/-!
# Telling the servers, in shifts

Each message that the hub writes to a server is a shift of its roster, or leaves it as it is when it
cannot be written.  A document is only announced while no tokens of it are awaited: when a server
greets its documents, each of them still has its turn on an agenda.
-/

namespace TextEditor.Server

/-- The session is the one of its language, and its server is ready. -/
structure Roster.Serves (R : Roster) (s : Session) : Prop where
  current : ∃ s', R.sessions.find? s.language = some s' ∧ s'.client = s.client
  ready : ∃ c, R.connections[s.client]? = some c ∧ c.client.state = .ready

namespace Roster

variable {R : Roster} {s : Session} {h₀ : Hub} {moment : Moment} {client : Nat} {uri : String}

theorem Serves.modify (h : R.Serves s) (client : Nat) {change : Connection → Connection}
    (hchange : ∀ c, (change c).client.state = c.client.state) :
    (R.modify client change).Serves s where
  current := h.current
  ready := by
    obtain ⟨c, hc, hready⟩ := h.ready
    refine ⟨_, connection_modify change hc, ?_⟩
    split
    · exact (hchange c).trans hready
    · exact hready

theorem Serves.alter (h : R.Serves s) (language : String) {change : Session → Session}
    (hchange : ∀ s, (change s).client = s.client) : (R.alter language change).Serves s where
  current := by
    obtain ⟨s', hs', hclient⟩ := h.current
    rw [find?_alter]
    split
    · next hlanguage =>
      rw [← hlanguage, hs']
      exact ⟨change s', rfl, (hchange s').trans hclient⟩
    · exact ⟨s', hs', hclient⟩
  ready := h.ready

theorem Serves.alterDocument (h : R.Serves s) (language uri : String)
    (change : TrackedDocument → TrackedDocument) : (R.alterDocument language uri change).Serves s :=
  h.alter language fun _ => rfl

/-- No request comes to those that wait, or one for another document. -/
theorem Outdated.modify (h : R.Outdated h₀ moment client uri) (id : Nat)
    {change : Connection → Connection}
    (hchange : ∀ c, R.connections[id]? = some c → ∀ number version,
      (number, RequestKind.tokens uri version) ∈ (change c).client.pending →
        (number, RequestKind.tokens uri version) ∈ c.client.pending) :
    (R.modify id change).Outdated h₀ moment client uri := by
  intro c' number version hc' hwaits
  obtain ⟨c, hc, rfl⟩ := connection_of_modify hc'
  split at hwaits
  · next hid =>
    subst hid
    exact h c number version hc (hchange c hc number version hwaits)
  · exact h c number version hc hwaits

end Roster

namespace Hub

variable {h₀ h h' : Hub} {moment : Moment} {s : Session} {language uri : String}
variable {serving : Session → Prop} {agenda agenda' : List String} {d : TrackedDocument}

theorem roster_alterSession (h : Hub) (language : String) (change : Session → Session) :
    (h.alterSession language change).roster = h.roster.alter language change := by
  unfold alterSession
  cases hs : h.sessions.find? language <;>
    simp [Roster.alter, Table.alter, roster, hs]

theorem roster_alterDocument (h : Hub) (language uri : String)
    (change : TrackedDocument → TrackedDocument) :
    (h.alterDocument language uri change).roster = h.roster.alterDocument language uri change := by
  rw [alterDocument_eq, roster_alterSession]
  rfl

theorem document?_alterDocument (hd : h.document? language uri = some d)
    (change : TrackedDocument → TrackedDocument) :
    (h.alterDocument language uri change).document? language uri = some (change d) := by
  obtain ⟨s, hs, hfound⟩ := document?_eq_some hd
  rw [alterDocument_eq, document?, find?_alterSession, if_pos rfl, hs, Option.map_some,
    Option.bind_some, Table.find?_alter, if_pos rfl, hfound, Option.map_some]

/-- A moment has led to a hub, where some sessions serve and some documents are yet to be told
of. -/
structure Arrived (h₀ : Hub) (moment : Moment) (serving : Session → Prop) (agenda : List String)
    (h : Hub) : Prop where
  passage : Passage h₀ moment h.roster
  addressed : h.roster.Addressed
  serves : ∀ s, serving s → h.roster.Serves s
  due : ∀ s, serving s → ∀ uri ∈ agenda, h.roster.Outdated h₀ moment s.client uri

namespace Arrived

theorem start (haddressed : h.roster.Addressed) : Arrived h moment nobody [] h :=
  ⟨.refl, haddressed, nofun, nofun⟩

theorem of_roster (harrived : Arrived h₀ moment serving agenda h) (hroster : h'.roster = h.roster) :
    Arrived h₀ moment serving agenda h' := by
  obtain ⟨hpassage, haddressed, hserves, hdue⟩ := harrived
  exact ⟨hroster ▸ hpassage, hroster ▸ haddressed, hroster ▸ hserves, hroster ▸ hdue⟩

theorem shift (harrived : Arrived h₀ moment serving agenda h)
    (hshift : Shift h₀ moment h.roster h'.roster)
    (hserves : ∀ s, h.roster.Serves s → h'.roster.Serves s)
    (hdue : ∀ s, serving s → ∀ uri ∈ agenda', h'.roster.Outdated h₀ moment s.client uri) :
    Arrived h₀ moment serving agenda' h' where
  passage := harrived.passage.tail hshift
  addressed := hshift.addressed harrived.addressed
  serves s hs := hserves s (harrived.serves s hs)
  due := hdue

/-- A shift after which no session needs to serve. -/
theorem go (harrived : Arrived h₀ moment serving agenda h)
    (hshift : Shift h₀ moment h.roster h'.roster) : Arrived h₀ moment nobody [] h' :=
  ⟨harrived.passage.tail hshift, hshift.addressed harrived.addressed, nofun, nofun⟩

theorem toNobody (harrived : Arrived h₀ moment serving agenda h) : Arrived h₀ moment nobody [] h :=
  ⟨harrived.passage, harrived.addressed, nofun, nofun⟩

/-- Some documents are left for later. -/
theorem skip (harrived : Arrived h₀ moment serving agenda h)
    (hsub : ∀ uri ∈ agenda', uri ∈ agenda) : Arrived h₀ moment serving agenda' h :=
  ⟨harrived.passage, harrived.addressed, harrived.serves,
    fun s hs uri huri => harrived.due s hs uri (hsub uri huri)⟩

/-- The session and the connection of a document that a session serves with. -/
theorem document (harrived : Arrived h₀ moment serving agenda h) (hs : serving s)
    (hd : h.document? s.language uri = some d) :
    ∃ s' c, h.roster.Has s.language s' uri d ∧ s'.client = s.client ∧
      h.roster.connections[s'.client]? = some c ∧ c.client.state = .ready := by
  obtain ⟨⟨s', hs', hclient⟩, c, hc, hready⟩ := harrived.serves s hs
  obtain ⟨s₁, hs₁, hfound⟩ := document?_eq_some hd
  obtain rfl : s' = s₁ := Option.some.inj (hs'.symm.trans hs₁)
  exact ⟨s', c, ⟨hs', hfound⟩, hclient, hclient ▸ hc, hready⟩

end Arrived

/-! ## Writing -/

/-- A message to the server of a session is written, or the roster stays as it is. -/
theorem guarded_sent {step : Step Fleet Unit} {change : Connection → Connection}
    (hsent : Fleet.Sent h.fleet s.client change (step.start h.fleet)) :
    (∃ h', (guarded s step).start h = (.ok true, h') ∧ h'.buffers = h.buffers ∧
      h'.roster = h.roster.modify s.client change) ∨
    ∃ outcome h', (guarded s step).start h = (outcome, h') ∧ outcome ≠ .ok true ∧
      h'.roster = h.roster := by
  rw [guarded, Step.start_bind, Step.start_attempt, onFleet, Step.start_zoom]
  generalize step.start h.fleet = result at hsent ⊢
  cases hsent with
  | failed fault =>
    refine .inr ?_
    cases fault with
    | write fault => exact ⟨.ok false, _, rfl, by simp, rfl⟩
    | _ => exact ⟨.error _, _, rfl, by simp, rfl⟩
  | @done c f' a hc halive hconnections =>
    refine .inl ⟨{ h with fleet := f' }, rfl, rfl, ?_⟩
    rw [roster, hconnections]
    rfl

/-- A message that concerns no document is written, or not. -/
theorem arrived_guarded {step : Step Fleet Unit}
    (hsent : ∀ f, ∃ m : Outgoing, Fleet.Neutral m ∧
      Fleet.Sent f s.client (·.receive m.frame) (step.start f)) :
    Step.Keeps (Arrived h₀ moment serving agenda) (guarded s step) := by
  intro h harrived
  obtain ⟨m, hm, hsent⟩ := hsent h.fleet
  rcases guarded_sent hsent with ⟨h', hstart, -, hroster⟩ | ⟨outcome, h', hstart, -, hroster⟩
  · rw [hstart]
    refine harrived.shift (hroster ▸ .noted s.client hm) (fun s' hserves => ?_)
      fun s' hs' uri huri => ?_
    · rw [hroster]
      exact hserves.modify s.client fun _ => rfl
    · rw [hroster]
      exact (harrived.due s' hs' uri huri).modify s.client fun _ _ _ _ h => h
  · rw [hstart]
    exact harrived.of_roster hroster

theorem sent_tokensRequest {f : Fleet} {client : Nat} {c : Connection}
    (hc : f.connections[client]? = some c) (uri : String) (version : Int) :
    Fleet.Sent f client
      (·.ask (Outgoing.tokens c.client.nextId uri).frame (.tokens uri version))
      ((do let _ ← Fleet.sendTokensRequest client uri version : Step Fleet Unit).start f) := by
  have hsent := Fleet.sent_sendRequest f client Method.semanticTokens
    (some (Message.semanticTokensParams uri)) (.tokens uri version)
  have hframe : f.requestFrame client Method.semanticTokens
      (some (Message.semanticTokensParams uri)) = (Outgoing.tokens c.client.nextId uri).frame := by
    rw [Fleet.requestFrame, Fleet.nextId_of_connection hc]
    rfl
  rw [hframe] at hsent
  rw [Step.start_bind]
  change Fleet.Sent f client _ ((Fleet.sendTokensRequest client uri version).start f) at hsent
  generalize (Fleet.sendTokensRequest client uri version).start f = result at hsent ⊢
  cases hsent with
  | failed fault => exact .failed fault
  | done a hc' halive hconnections hqueue hcapacity =>
    exact .done () hc' halive hconnections hqueue hcapacity

/-- A server that serves is asked for the tokens of a document that is off the agenda. -/
theorem arrived_requestTokens (hs : serving s) (harrived : Arrived h₀ moment serving agenda h)
    (hd : h.document? s.language uri = some d) {document : TrackedDocument}
    (huri : document.uri = d.uri) (hversion : document.version = d.version)
    (hoff : uri ∉ agenda) :
    Arrived h₀ moment serving agenda ((requestTokens s document).start h).2 := by
  obtain ⟨s', c, hhas, hclient, hc, hready⟩ := harrived.document hs hd
  have haddressed : document.uri = uri := huri.trans (harrived.addressed _ _ _ _ hhas)
  rw [hclient] at hc
  have hsent := sent_tokensRequest (f := h.fleet) hc document.uri document.version
  refine Step.Keeps.after ?_ fun _ => Step.Keeps.pure _
  rcases guarded_sent hsent with ⟨h', hstart, -, hroster⟩ | ⟨outcome, h', hstart, -, hroster⟩
  · rw [hstart]
    rw [haddressed, hversion, ← hclient] at hroster
    refine harrived.shift (hroster ▸ .asked hhas (hclient ▸ hc) hready) (fun s' hserves => ?_)
      fun s₁ hs₁ uri' huri' => ?_
    · rw [hroster]
      exact hserves.modify _ fun _ => rfl
    · rw [hroster]
      refine (harrived.due s₁ hs₁ uri' huri').modify _ fun c' hc' number version hwaits => ?_
      rcases List.mem_append.1 hwaits with hold | hnew
      · exact hold
      · have hkind := (Prod.mk.inj (List.mem_singleton.1 hnew)).2
        obtain ⟨rfl, -⟩ := RequestKind.tokens.inj hkind
        exact absurd huri' hoff
  · rw [hstart]
    exact harrived.of_roster hroster

/-! ## Opening -/

theorem start_announce_of_no_buffer (hd : h.document? s.language uri = some d)
    (hb : h.buffers[d.buffer]? = none) :
    (announce s uri).start h = (.ok (), h.alterBuffer d.buffer Buffer.track) := by
  have hb' : (h.alterBuffer d.buffer Buffer.track).buffers[d.buffer]? = none := by
    simp [alterBuffer, hb]
  rw [announce, Step.start_bind, Step.start_get]
  dsimp only
  rw [hd]
  dsimp only
  rw [Step.start_bind, Step.start_modify]
  dsimp only
  rw [Step.start_bind, Step.start_get]
  dsimp only
  rw [hb']
  rfl

/-- A server that serves is told of a document that was due, or it cannot be told of it now. -/
theorem arrived_tellOpening (hs : serving s)
    (harrived : Arrived h₀ moment serving (uri :: agenda) h)
    (hoff : uri ∉ agenda) (hd : h.document? s.language uri = some d) (b : Buffer) :
    Arrived h₀ moment serving agenda ((tellOpening s uri d b).start h).2 := by
  obtain ⟨s', c, hhas, hclient, hc, hready⟩ := harrived.document hs hd
  have hrest : Arrived h₀ moment serving agenda h :=
    harrived.skip fun _ h => List.mem_cons_of_mem _ h
  rw [tellOpening, Step.start_bind]
  rcases guarded_sent (s := s) (Fleet.sent_sendNotification h.fleet s.client Method.didOpen
      (some (Message.didOpenParams uri b.language b.text d.version))) with
    ⟨h₁, hstart, -, hroster⟩ | ⟨outcome, h₁, hstart, hfailed, hroster⟩
  · change (guarded s (Fleet.sendDidOpen s.client uri b.language b.text d.version)).start _ = _
      at hstart
    rw [hstart]
    simp only [if_true]
    rw [Step.start_bind, Step.start_modify]
    dsimp only
    let change : TrackedDocument → TrackedDocument := fun d => { d with opened := true }
    let m : Outgoing := .didOpen uri b.language b.text d.version
    have hroster₁ : h₁.roster = h.roster.modify s'.client (·.receive m.frame) := by
      rw [hroster, hclient]
      rfl
    have hroster₂ : (h₁.alterDocument s.language uri change).roster =
        (h.roster.modify s'.client (·.receive m.frame)).alterDocument s.language uri change := by
      rw [roster_alterDocument, hroster₁]
    have hopened : Arrived h₀ moment serving agenda (h₁.alterDocument s.language uri change) := by
      have hdue := harrived.due s hs uri List.mem_cons_self
      rw [← hclient] at hdue
      refine harrived.shift (hroster₂ ▸ .announced b.language b.text hhas hdue)
        (fun s₀ hserves => ?_) fun s₀ hs₀ uri' huri' => ?_
      · rw [hroster₂]
        have htold : (h.roster.modify s'.client (·.receive m.frame)).Serves s₀ :=
          hserves.modify _ fun _ => rfl
        exact htold.alterDocument _ _ _
      · rw [hroster₂]
        exact (hrest.due s₀ hs₀ uri' huri').modify _ fun _ _ _ _ h => h
    have hd₁ : h₁.document? s.language uri = some d :=
      (congrArg (fun R : Roster => (R.sessions.find? s.language).bind (·.documents.find? uri))
        hroster₁).trans hd
    exact arrived_requestTokens hs hopened (document?_alterDocument hd₁ change) rfl rfl hoff
  · change (guarded s (Fleet.sendDidOpen s.client uri b.language b.text d.version)).start _ = _
      at hstart
    rw [hstart]
    cases outcome with
    | error fault => exact hrest.of_roster hroster
    | ok sent =>
      cases sent with
      | false => exact hrest.of_roster hroster
      | true => exact absurd rfl hfailed

theorem arrived_announce (hs : serving s) (harrived : Arrived h₀ moment serving (uri :: agenda) h)
    (hoff : uri ∉ agenda) : Arrived h₀ moment serving agenda ((announce s uri).start h).2 := by
  have hrest : Arrived h₀ moment serving agenda h :=
    harrived.skip fun _ h => List.mem_cons_of_mem _ h
  cases hd : h.document? s.language uri with
  | none =>
    rw [start_announce_of_none hd]
    exact hrest
  | some d =>
    cases hb : h.buffers[d.buffer]? with
    | none =>
      rw [start_announce_of_no_buffer hd hb]
      exact hrest.of_roster rfl
    | some b =>
      have htracked : Arrived h₀ moment serving (uri :: agenda)
          (h.alterBuffer d.buffer Buffer.track) := harrived.of_roster rfl
      rw [start_announce_of_some hd hb]
      exact arrived_tellOpening hs htracked hoff hd b

/-- A server that serves is told of all documents on the agenda, of each once. -/
theorem arrived_announceAll (hs : serving s) {entries : List (String × TrackedDocument)}
    (huris : (entries.map Prod.fst).Nodup)
    (harrived : Arrived h₀ moment serving (entries.map Prod.fst) h) :
    Arrived h₀ moment nobody [] ((entries.forM fun entry => announce s entry.1).start h).2 := by
  induction entries generalizing h with
  | nil => exact harrived.toNobody
  | cons entry rest ih =>
    obtain ⟨hoff, hrest⟩ := List.nodup_cons.1 huris
    have hfirst := arrived_announce hs harrived hoff
    rw [List.forM, Step.start_bind]
    generalize (announce s entry.1).start h = result at hfirst ⊢
    obtain ⟨outcome, h'⟩ := result
    cases outcome with
    | error fault => exact Arrived.toNobody hfirst
    | ok _ => exact ih hrest hfirst

/-! ## Changes -/

/-- The server of a session is told of the changes of a document, or they are lost. -/
theorem arrived_tellChanges (hs : serving s) (harrived : Arrived h₀ moment serving [] h)
    (hd : h.document? s.language uri = some d) (changes : List Delta) :
    Arrived h₀ moment serving [] ((tellChanges s uri d changes).start h).2 := by
  obtain ⟨s', c, hhas, hclient, hc, hready⟩ := harrived.document hs hd
  let change : TrackedDocument → TrackedDocument := fun d' => { d' with version := d.version + 1 }
  let payload : List Json := changes.map fun delta => Message.rangeChange delta s.encoding
  rw [tellChanges, Step.start_bind, Step.start_modify]
  dsimp only
  rw [Step.start_bind]
  generalize hbump : Hub.alterDocument _ s.language uri _ = bumped
  have hroster : bumped.roster = h.roster.alterDocument s.language uri change := by
    rw [← hbump]
    exact roster_alterDocument h s.language uri change
  have hd₁ : bumped.document? s.language uri = some (change d) := by
    rw [← hbump]
    exact document?_alterDocument hd change
  have hserves : ∀ s₀, h.roster.Serves s₀ → bumped.roster.Serves s₀ := fun s₀ hserves => by
    rw [hroster]
    exact hserves.alterDocument _ _ _
  rcases guarded_sent (s := s) (Fleet.sent_sendNotification bumped.fleet s.client Method.didChange
      (some (Message.didChangeParams uri (d.version + 1) payload))) with
    ⟨h₂, hstart, -, htold⟩ | ⟨outcome, h₂, hstart, hfailed, hsame⟩
  · change (guarded s (Fleet.sendDidChange s.client uri (d.version + 1) payload)).start _ = _
      at hstart
    rw [hstart]
    simp only [if_true]
    have hroster₂ : h₂.roster = (h.roster.alterDocument s.language uri change).modify s'.client
        (·.receive (Outgoing.didChange uri (d.version + 1) payload).frame) := by
      rw [htold, hroster, hclient]
      rfl
    have hchanged : Arrived h₀ moment serving [] h₂ := by
      refine harrived.shift (hroster₂ ▸ .changed payload hhas) (fun s₀ hserves₀ => ?_)
        fun _ _ _ huri => absurd huri List.not_mem_nil
      rw [htold]
      exact (hserves s₀ hserves₀).modify _ fun _ => rfl
    have hd₂ : h₂.document? s.language uri = some (change d) :=
      (congrArg (fun R : Roster => (R.sessions.find? s.language).bind (·.documents.find? uri))
        htold).trans hd₁
    exact Step.Keeps.after (arrived_requestTokens hs hchanged hd₂ rfl rfl List.not_mem_nil)
      fun _ => Step.Keeps.pure _
  · change (guarded s (Fleet.sendDidChange s.client uri (d.version + 1) payload)).start _ = _
      at hstart
    rw [hstart]
    have hlost : Arrived h₀ moment serving [] h₂ := by
      refine harrived.shift ?_ (fun s₀ hserves₀ => hsame ▸ hserves s₀ hserves₀)
        fun _ _ _ huri => absurd huri List.not_mem_nil
      rw [hsame, hroster]
      exact .lost hhas
    cases outcome with
    | error fault => exact hlost
    | ok sent =>
      cases sent with
      | false => exact hlost
      | true => exact absurd rfl hfailed

theorem arrived_syncDocument (hs : serving s) :
    Step.Keeps (Arrived h₀ moment serving []) (syncDocument s uri) := by
  intro h harrived
  cases hd : h.document? s.language uri with
  | none =>
    rw [start_syncDocument_of_none hd]
    exact harrived
  | some d =>
  cases hb : h.buffers[d.buffer]? with
  | none =>
    rw [start_syncDocument_of_no_buffer hd hb]
    exact harrived
  | some b =>
    have hdrained : Arrived h₀ moment serving []
        (h.alterBuffer d.buffer fun b => b.drainChanges.2) := harrived.of_roster rfl
    rw [start_syncDocument_of_some hd hb]
    split
    · exact hdrained
    · exact arrived_tellChanges hs hdrained hd b.changes

/-- A session that is found ready serves. -/
theorem serves_of_isReady_of_tidy (htidy : h.face.Tidy) (hs : s ∈ h.sessions.values)
    (hready : h.isReady s = true) : h.roster.Serves s := by
  refine ⟨⟨s, htidy.regular.find?_of_mem_values hs, rfl⟩, ?_⟩
  have hstate : h.fleet.stateOf s.client = .ready := of_decide_eq_true hready
  rw [Fleet.stateOf, Fleet.client?] at hstate
  cases hc : h.fleet.connections[s.client]? with
  | none =>
    rw [hc] at hstate
    cases hstate
  | some c =>
    rw [hc] at hstate
    exact ⟨c, hc, hstate⟩

theorem arrived_syncChanges (htidy : h.face.Tidy) (haddressed : h.roster.Addressed) :
    Arrived h moment nobody [] (syncChanges.start h).2 := by
  let serving : Session → Prop := fun s => s ∈ h.sessions.values ∧ h.isReady s = true
  have hstart : Arrived h moment serving [] h :=
    ⟨.refl, haddressed, fun s hs => serves_of_isReady_of_tidy htidy hs.1 hs.2, nofun⟩
  suffices hall : Arrived h moment serving [] (syncChanges.start h).2 from hall.toNobody
  rw [syncChanges, Step.start_bind, Step.start_get]
  refine Step.Keeps.foldlM (fun total s hmem => ?_) 0 h hstart
  by_cases hready : h.isReady s = true
  · rw [if_pos hready]
    refine Step.Keeps.foldlM (fun total entry _ => ?_) total
    exact Step.Keeps.bind (arrived_syncDocument ⟨hmem, hready⟩) fun _ => Step.Keeps.pure _
  · rw [if_neg hready]
    exact Step.Keeps.pure total

end Hub

end TextEditor.Server
