import TextEditor.Proofs.Server.Walking

/-!
# Sessions that begin and end, in strides

The other deeds of the hub start sessions and stop them, take documents in and release them, and
hear what the servers say.  Each of them is a walk, too.
-/

namespace TextEditor.Server.Hub

variable {h₀ h h' : Hub} {deed : Deed} {agenda : List (String × String)}
variable {s : Session} {language : String} {serving : Session → Prop}

/-! ## Starting -/

/-- A session that just started takes over the documents of its language. -/
theorem Reached.join (hreached : Reached h₀ deed nobody [] h) {sessions : Table Session}
    (hkeys : (sessions.map Prod.fst).Nodup)
    (hothers : ∀ other, other ≠ language → sessions.find? other = h.sessions.find? other)
    (hsessions : h'.sessions = sessions.put language s) (hbuffers : h'.buffers = h.buffers)
    (hlines : Follows h.fleet.lines h'.fleet.lines) (hlanguage : s.language = language)
    (hempty : s.documents = []) (hclient : s.client = h.fleet.lines.length)
    (hline : ∃ l, h'.fleet.lines[s.client]? = some l ∧ l.hasInput = true ∧ l.state ≠ .ready)
    {documents : Table TrackedDocument} (huris : (documents.map Prod.fst).Nodup)
    (reset : TrackedDocument → TrackedDocument)
    (hreset : ∀ d, (reset d).buffer = d.buffer ∧ (reset d).uri = d.uri)
    (hdocuments : ∀ uri,
      documents.find? uri = ((h.face.documents language).find? uri).map reset)
    (legend : List String) :
    Reached h₀ deed nobody [] (h'.alterSession language fun s =>
      { s with documents := s.documents.putAll documents, legend }) := by
  let change : Session → Session := fun s =>
    { s with documents := s.documents.putAll documents, legend }
  let aged : Hub := { h' with sessions := h.sessions }
  have haged : Reached h₀ deed nobody [] aged := hreached.follows hlines rfl hbuffers
  refine haged.go ?_
  have hface : (h'.alterSession language change).face =
      { aged.face with sessions := (sessions.put language s).alter language change } := by
    rw [face_alterSession]
    simp only [face, aged, hsessions]
  rw [hface]
  refine @Stride.joined _ _ _ language _ (change s) reset hreset
    (Table.keys_alter (Table.keys_put hkeys _ _) _ _) (fun other => ?_) hlanguage ?_ (fun uri => ?_)
    hline fun other s' hs' => ?_
  · rw [Table.find?_alter]
    split
    · rw [Table.find?_put_self, Option.map_some]
    · next hother =>
      rw [Table.find?_put_of_ne _ _ hother]
      exact hothers other hother
  · exact Table.keys_putAll (by rw [hempty]; exact List.nodup_nil) documents
  · refine (Table.find?_putAll huris uri).trans ?_
    rw [hempty, hdocuments]
    exact Option.or_none
  · obtain ⟨l, hl, -⟩ := hreached.tidy.served other s' hs'
    have hlt := (List.getElem?_eq_some_iff.1 hl).1
    exact Nat.ne_of_lt (hclient ▸ hlt)

/-- A session that a buffer can join, once a walk led there. -/
structure Admits (h₀ : Hub) (deed : Deed) (language : String) (h : Hub)
    (result : Except Fault (Option Session) × Hub) : Prop where
  reached : Reached h₀ deed nobody [] result.2
  buffers : result.2.buffers = h.buffers
  session : ∀ s, result.1 = .ok (some s) → s.language = language ∧
    ∃ s', result.2.sessions.find? language = some s' ∧ s'.client = s.client ∧
      s'.encoding = s.encoding

theorem admits_renew (hreached : Reached h₀ deed nobody [] h) {b : Buffer}
    {documents : Table TrackedDocument} (huris : (documents.map Prod.fst).Nodup)
    (hdocuments : h.face.documents b.language = documents) :
    Admits h₀ deed b.language h ((renew b documents).start h) := by
  have hlaunches := launches_startSession h b.language b.path
  rw [renew, Step.start_bind]
  generalize (startSession b.language b.path).start h = result at hlaunches ⊢
  obtain ⟨outcome, h'⟩ := result
  obtain ⟨(hbuffers : h'.buffers = h.buffers), hlines, hsession, hnone⟩ := hlaunches
  have hquiet : (∀ s, outcome ≠ .ok (some s)) → Reached h₀ deed nobody [] h' :=
    fun hnot => hreached.follows hlines (hnone hnot) hbuffers
  cases outcome with
  | error fault => exact ⟨hquiet (by simp), hbuffers, fun s hs => by cases hs⟩
  | ok started =>
    cases started with
    | none => exact ⟨hquiet (by simp), hbuffers, fun s hs => by cases hs⟩
    | some s =>
      obtain ⟨hsessions, hlanguage, hempty, hclient, hline⟩ := hsession s rfl
      have hjoined := hreached.join hreached.tidy.keys (fun _ _ => rfl) hsessions hbuffers hlines
        hlanguage hempty hclient hline huris id (fun _ => ⟨rfl, rfl⟩)
        (fun uri => by rw [hdocuments, Option.map_id_fun, id]) b.profile.tokenTypes
      refine ⟨hjoined, ?_, fun s' hs' => ?_⟩
      · exact (congrArg Face.buffers (face_alterSession h' b.language _)).trans hbuffers
      · obtain rfl : s = s' := Option.some.inj (Except.ok.inj hs')
        have hs : h'.sessions.find? b.language = some s := by
          rw [show h'.sessions = _ from hsessions, Table.find?_put_self]
        refine ⟨hlanguage, { s with
          documents := s.documents.putAll documents, legend := b.profile.tokenTypes }, ?_, rfl, rfl⟩
        refine (find?_alterSession h' b.language _ b.language).trans ?_
        rw [if_pos rfl, hs, Option.map_some]

theorem admits_sessionFor (hreached : Reached h₀ deed nobody [] h) (b : Buffer) :
    Admits h₀ deed b.language h ((sessionFor b).start h) := by
  rw [start_sessionFor]
  cases hs : h.sessions.find? b.language with
  | none =>
    refine admits_renew hreached List.nodup_nil ?_
    rw [Face.documents, show h.face.sessions.find? b.language = none from hs]
    rfl
  | some s =>
    dsimp only
    split
    · refine ⟨hreached, rfl, fun s' hs' => ?_⟩
      obtain rfl : s = s' := Option.some.inj (Except.ok.inj hs')
      exact ⟨hreached.tidy.named _ s hs, s, hs, rfl, rfl⟩
    · exact admits_renew hreached (hreached.tidy.uris b.language s hs)
        (Face.documents_of_find? (F := h.face) hs)

/-! ## Opening and closing -/

/-- Opening a document is a walk. -/
theorem walk_openDocument (htidy : h.face.Tidy) (id : Nat) :
    Reached h (.openDocument id) nobody [] ((openDocument id).start h).2 := by
  have hstart : Reached h (.openDocument id) nobody [] h := .start htidy
  rw [openDocument, Step.start_bind, Step.start_get]
  dsimp only
  cases hb : h.buffers[id]? with
  | none => exact hstart
  | some b =>
  dsimp only
  split
  · exact hstart
  split
  · exact hstart
  have hadmits := admits_sessionFor hstart b
  rw [Step.start_bind]
  generalize (sessionFor b).start h = result at hadmits ⊢
  obtain ⟨outcome, h₁⟩ := result
  obtain ⟨hreached, (hbuffers : h₁.buffers = h.buffers), hsession⟩ := hadmits
  cases outcome with
  | error fault => exact hreached
  | ok joined =>
  cases joined with
  | none => exact hreached
  | some session =>
  obtain ⟨hlanguage, s', (hs' : h₁.sessions.find? b.language = some s'), hclient, hencoding⟩ :=
    hsession session rfl
  dsimp only
  rw [Step.start_bind, Step.start_modify]
  dsimp only
  have hadopted : Reached h (.openDocument id) nobody [(b.language, uriOf b)] (h₁.adopt id b) := by
    have hface : (h₁.adopt id b).face = (h₁.face.alter b.language fun s =>
        { s with documents := s.documents.put (uriOf b) { buffer := id, uri := uriOf b } }).touch id
          Buffer.track :=
      congrArg (Face.touch · id Buffer.track) (face_alterSession h₁ b.language _)
    refine Reached.go hreached ?_
    rw [hface]
    exact .adopted rfl hs' ((congrArg (·[id]?) hbuffers).trans hb)
  obtain ⟨s₂, hs₂, hclient₂, hencoding₂⟩ := find?_adopt id hs'
  change Reached h (.openDocument id) nobody [] ((_ : Step Hub _).start (h₁.adopt id b)).2
  rw [Step.start_bind, Step.start_get]
  dsimp only
  split
  · next hready =>
    have hserves : (h₁.adopt id b).face.Serves session := by
      refine ⟨⟨s₂, hlanguage ▸ hs₂, hclient₂.trans hclient, hencoding₂.trans hencoding⟩, ?_⟩
      have hstate := stateOf_of_tidy hadopted.tidy hs₂
      rw [hclient₂.trans hclient] at hstate
      refine hstate.trans (congrArg some ?_)
      rw [stateOf, hclient₂.trans hclient]
      exact of_decide_eq_true hready
    have hready : Reached h (.openDocument id) (Eq session) [(session.language, uriOf b)]
        (h₁.adopt id b) :=
      ⟨hlanguage ▸ hadopted.walk, hadopted.tidy, fun s hs => hs ▸ hserves⟩
    refine Step.Keeps.after (P := Reached h (.openDocument id) nobody []) ?_ fun _ =>
      Step.Keeps.get_bind fun _ h => h
    exact (reached_announce rfl hready).toNobody
  · exact hadopted.toNobody

/-- Closing a document is a walk. -/
theorem walk_closeDocument (htidy : h.face.Tidy) (id : Nat) :
    Reached h (.closeDocument id) nobody [] (h.closeDocument id) := by
  have hstart : Reached h (.closeDocument id) nobody [] h := .start htidy
  cases hb : h.buffers[id]? with
  | none =>
    rw [closeDocument, hb]
    exact hstart
  | some b =>
    rw [closeDocument, hb]
    exact hstart.go (.closed rfl hb)

/-! ## Ending -/

theorem Reached.terminate (hreached : Reached h₀ deed nobody agenda h) (client : Nat) :
    Reached h₀ deed nobody agenda { h with fleet := h.fleet.terminate client } :=
  hreached.wane (Fleet.wane_terminate h.fleet client) rfl rfl

/-- A session is gone, and its documents are released. -/
theorem Reached.retire (hreached : Reached h₀ deed nobody [] h) (language : String) :
    Reached h₀ deed nobody [] (({ h with sessions := h.sessions.erase language } : Hub).release
      (h.face.documents language).values) :=
  hreached.go (by rw [face_release]; exact .retired language)

/-- A session without documents is gone, if there was one. -/
theorem Reached.erase (hreached : Reached h₀ deed nobody [] h)
    (hnone : (h.face.documents language).values = []) :
    Reached h₀ deed nobody [] { h with sessions := h.sessions.erase language } := by
  have hretired := hreached.retire language
  rw [hnone] at hretired
  exact hretired

theorem start_restart (h : Hub) (language : String) :
    (restart language).start h =
      match h.sessions.find? language with
      | none => (.ok false, { h with sessions := h.sessions.erase language })
      | some old =>
        match old.documents.values.head? with
        | none => (.ok false, { h with sessions := h.sessions.erase language })
        | some first =>
          let stopped : Hub :=
            { h with
              sessions := h.sessions.erase language
              fleet := h.fleet.terminate old.client }
          match h.buffers[first.buffer]? with
          | none => (.ok false, stopped)
          | some b => (succeed language old b).start stopped := by
  rw [restart, Step.start_bind, Step.start_get]
  dsimp only
  rw [Step.start_bind, Step.start_modify]
  dsimp only
  cases h.sessions.find? language with
  | none => rfl
  | some old =>
  dsimp only
  cases old.documents.values.head? with
  | none => rfl
  | some first =>
  dsimp only
  rw [Step.start_bind, Step.start_modify]
  dsimp only
  cases h.buffers[first.buffer]? <;> rfl

/-- The documents of a session go over to its successor, are released if there is none, or are lost
sight of if its start raises. -/
theorem reached_succeed {old : Session} (htidy : h.face.Tidy)
    (hold : h.sessions.find? language = some old) (b : Buffer)
    (hstart : (restart language).start h = (succeed language old b).start
      { h with
        sessions := h.sessions.erase language
        fleet := h.fleet.terminate old.client }) :
    Reached h (.restart language) nobody [] ((restart language).start h).2 := by
  let stopped : Hub := { h with fleet := h.fleet.terminate old.client }
  have hstopped : Reached h (.restart language) nobody [] stopped :=
    (Reached.start htidy).terminate old.client
  have hdocuments : stopped.face.documents language = old.documents :=
    Face.documents_of_find? (F := stopped.face) hold
  let erased : Hub := { stopped with sessions := h.sessions.erase language }
  have hlaunches := launches_startSession erased language b.path
  have hresult : (restart language).start h = _ := hstart
  rw [succeed, Step.start_bind] at hresult
  generalize (startSession language b.path).start _ = result at hlaunches hresult
  obtain ⟨outcome, h'⟩ := result
  obtain ⟨(hbuffers : h'.buffers = stopped.buffers), hlines, hsession, hnone⟩ := hlaunches
  let aged : Hub := { h' with sessions := stopped.sessions }
  have haged : Reached h (.restart language) nobody [] aged :=
    hstopped.follows hlines rfl hbuffers
  have hgone : (∀ s, outcome ≠ .ok (some s)) →
      ({ aged with sessions := aged.sessions.erase language } : Hub) = h' := fun hnot => by
    have hsessions : h'.sessions = h.sessions.erase language := hnone hnot
    exact congrArg (fun sessions => ({ h' with sessions } : Hub)) hsessions.symm
  cases outcome with
  | error fault =>
    rw [hresult]
    have hdropped : Reached h (.restart language) nobody []
        { aged with sessions := aged.sessions.erase language } :=
      haged.go (.dropped rfl ⟨fault, by rw [hresult]⟩)
    rw [hgone (by simp)] at hdropped
    exact hdropped
  | ok started =>
  cases started with
  | none =>
    rw [hresult]
    have hretired := haged.retire language
    rw [hgone (by simp), show aged.face.documents language = old.documents from hdocuments]
      at hretired
    exact hretired
  | some session =>
    obtain ⟨hsessions, hlanguage, hempty, hclient, hline⟩ := hsession session rfl
    let reset : TrackedDocument → TrackedDocument := fun d =>
      { d with opened := false, tokens := [], tokensVersion := -1 }
    have huris : ((old.documents.map fun entry => (entry.1, reset entry.2)).map
        Prod.fst).Nodup := by
      rw [List.map_map]
      exact htidy.uris language old hold
    have hjoined := hstopped.join (Table.keys_erase htidy.keys language)
      (fun other hother => Table.find?_erase_of_ne _ hother) hsessions hbuffers hlines hlanguage
      hempty hclient hline huris reset (fun _ => ⟨rfl, rfl⟩)
      (fun uri => by rw [hdocuments]; exact Table.find?_map old.documents reset uri)
      b.profile.tokenTypes
    rw [hresult, ← hlanguage]
    exact (hlanguage ▸ hjoined).of_face rfl

/-- Restarting a server is a walk. -/
theorem walk_restart (htidy : h.face.Tidy) (language : String) :
    Reached h (.restart language) nobody [] ((restart language).start h).2 := by
  have hreached : Reached h (.restart language) nobody [] h := .start htidy
  have hstart := start_restart h language
  cases hold : h.sessions.find? language with
  | none =>
    rw [hstart, hold]
    refine hreached.erase ?_
    rw [Face.documents, show h.face.sessions.find? language = none from hold]
    rfl
  | some old =>
  have hdocuments : h.face.documents language = old.documents :=
    Face.documents_of_find? (F := h.face) hold
  rw [hold] at hstart
  dsimp only at hstart
  cases hfirst : old.documents.values.head? with
  | none =>
    rw [hstart, hfirst]
    exact hreached.erase (by rw [hdocuments]; exact List.head?_eq_none_iff.1 hfirst)
  | some first =>
  rw [hfirst] at hstart
  dsimp only at hstart
  -- The first document is kept for a buffer.
  obtain ⟨⟨uri, d⟩, hmem, rfl⟩ := List.mem_map.1 (List.mem_of_head? hfirst)
  have hfound := Table.find?_of_mem (htidy.uris language old hold) hmem
  obtain ⟨-, b, hb, -⟩ := htidy.placed language old uri d hold hfound
  rw [show h.buffers[d.buffer]? = some b from hb] at hstart
  exact reached_succeed htidy hold b hstart

/-- Stopping all servers is a walk. -/
theorem walk_shutdown (htidy : h.face.Tidy) :
    Reached h .shutdown nobody [] h.shutdown := by
  suffices hall : ∀ (sessions : Table Session) (x : Hub), x.sessions = sessions →
      Reached h .shutdown nobody [] x →
        Reached h .shutdown nobody [] { sessions.values.foldl stop x with sessions := [] } from
    hall h.sessions h rfl (.start htidy)
  intro sessions
  induction sessions with
  | nil =>
    intro x hsessions hreached
    exact hreached.of_face (congrArg (fun sessions => Face.mk sessions x.buffers x.fleet.lines)
      hsessions.symm)
  | cons entry rest ih =>
    intro x hsessions hreached
    obtain ⟨language, s⟩ := entry
    obtain ⟨hnew, hrest⟩ := List.nodup_cons.1 (hsessions ▸ hreached.tidy.keys :
      (((language, s) :: rest).map Prod.fst).Nodup)
    have herased : x.sessions.erase language = rest := by
      rw [hsessions, Table.erase, List.filter_cons_of_neg (by simp), List.filter_eq_self]
      intro other hmem
      exact decide_eq_true fun heq => hnew (List.mem_map.2 ⟨other, hmem, heq⟩)
    have hdocuments : x.face.documents language = s.documents := by
      apply Face.documents_of_find?
      rw [show x.face.sessions = x.sessions from rfl, hsessions]
      simp [Table.find?]
    have hretired := (hreached.terminate s.client).retire language
    change Reached h .shutdown nobody [] ((Hub.mk _ _ _ (x.sessions.erase language) _ _ _).release
      (x.face.documents language).values) at hretired
    rw [herased, hdocuments] at hretired
    have hrest := ih _ (sessions_release _ _) hretired
    rw [foldl_stop_sessions, release_sessions] at hrest
    rw [foldl_stop_sessions]
    exact hrest

/-! ## Hearing -/

theorem Reached.legend (hreached : Reached h₀ deed nobody [] h) (language : String)
    (legend : List String) :
    Reached h₀ deed nobody [] (h.alterSession language fun s => { s with legend }) :=
  hreached.go (by rw [face_alterSession]; exact .labelled language legend)

/-- The server is ready, and its documents are on the agenda. -/
theorem Reached.readied (hreached : Reached h₀ deed nobody [] h) (hanswers : h.Answers s)
    {s' : Session} (hs' : h.sessions.find? s.language = some s') (encoding : Encoding) :
    Reached h₀ deed nobody (s'.documents.map fun entry => (s'.language, entry.1))
      (h.readied s encoding) := by
  obtain ⟨⟨s₁, hs₁, hclient⟩, l, hl, hstate, hstarts⟩ := hanswers
  obtain rfl : s' = s₁ := Option.some.inj (hs'.symm.trans hs₁)
  refine hreached.go ?_
  rw [face_readied hl hstate, ← hclient, hreached.tidy.named _ _ hs']
  exact .initiated hs' (hclient ▸ hl) hstate hstarts encoding

/-- A server that serves is told that it is started, and of the documents on the agenda. -/
theorem reached_greet (hs : serving s)
    (hreached : Reached h₀ deed serving (s.documents.map fun entry => (s.language, entry.1)) h) :
    Reached h₀ deed nobody [] ((greet s).start h).2 := by
  have htries : Fleet.Tries (Fleet.sendStarted s.client) s.client Fleet.Neutral := fun f =>
    (Fleet.tries_notification .started rfl s.client f).imp_left
      fun ⟨m, a, f', hm, hstart⟩ => ⟨m, a, f', fun _ => hm ▸ rfl, hstart⟩
  have hwritten := reached_guarded htries h hreached
  rw [greet, Step.start_bind]
  generalize (guarded _ _).start h = written at hwritten ⊢
  obtain ⟨outcome, h'⟩ := written
  cases outcome with
  | error fault => exact Reached.toNobody hwritten
  | ok told =>
    cases told with
    | false => exact Reached.toNobody hwritten
    | true => exact reached_announceAll hs hwritten

/-- The server is ready, and is told of its documents. -/
theorem reached_initiate (hreached : Reached h₀ deed nobody [] h) (hanswers : h.Answers s)
    (result : Json) : Reached h₀ deed nobody [] ((initiate s result).start h).2 := by
  cases hencoding : Message.negotiatedEncoding result with
  | error fault =>
    rw [initiate, Step.start_bind, hencoding]
    exact hreached
  | ok encoding =>
  obtain ⟨s', hs', -⟩ := hanswers.current
  have hlanguage : s'.language = s.language := hreached.tidy.named _ _ hs'
  have hserves : (h.readied s encoding).face.Serves { s' with encoding } :=
    serves_readied hanswers hs' hlanguage
  have hreadied := hreached.readied hanswers hs' encoding
  obtain ⟨data, hstart⟩ := start_initiate hencoding hs'
  have hserving : Reached h₀ deed (Eq { s' with encoding })
      (s'.documents.map fun entry => (s'.language, entry.1)) (h.readied s encoding) :=
    ⟨hreadied.walk, hreadied.tidy, fun s hs => hs ▸ hserves⟩
  rw [hstart]
  exact reached_greet (s := { s' with encoding }) rfl (hserving.of_face rfl)

/-- The documents of a server that crashed are released. -/
theorem Reached.letGo (hreached : Reached h₀ deed nobody [] h) (client : String) :
    Reached h₀ deed nobody [] (h.letGo client) := by
  unfold Hub.letGo
  cases hs : h.sessionOfClient? client with
  | none => exact hreached
  | some s =>
    dsimp only
    split
    · next hcrashed =>
      have hfind := hreached.tidy.regular.find?_of_mem_values (mem_of_sessionOfClient? hs)
      refine hreached.go ?_
      rw [face_release]
      refine .released hfind fun hready => ?_
      have hstate := (stateOf_of_tidy hreached.tidy hfind).symm.trans hready
      rw [hcrashed] at hstate
      cases hstate
    · exact hreached

/-- Handling an event is a walk. -/
theorem lasts_reached : Lasts (Reached h₀ deed nobody []) where
  regular hreached := hreached.tidy.regular
  of_face hreached hface := hreached.of_face hface
  letGo client hreached := hreached.letGo client
  reply {h s} message hreached _ :=
    reached_guarded (Fleet.tries_response s.client message) h hreached
  pop {h} client number hreached :=
    hreached.wane (Fleet.wane_popRequest h.fleet client number) rfl rfl
  legend language legend hreached := hreached.legend language legend
  initiate result hreached hanswers := reached_initiate hreached hanswers result
  color h language uri tokens id hreached := by
    let change : TrackedDocument → TrackedDocument := fun d =>
      { d with tokens, tokensVersion := d.version }
    have hface : ((h.alterDocument language uri change).alterBuffer id fun b =>
        { b with dirty := true }).face = (h.face.alterDocument language uri change).touch
          id fun b => { b with dirty := true } :=
      congrArg (Face.touch · id fun b => { b with dirty := true })
        (face_alterDocument h language uri change)
    exact hreached.go (by rw [hface]; exact .colored language uri tokens id)

/-- Handling the events is a walk. -/
theorem walk_drain (htidy : h.face.Tidy) : Reached h .drain nobody [] (drain.start h).2 :=
  lasts_reached.drain h (.start htidy)

end TextEditor.Server.Hub
