import TextEditor.Proofs.Server.Telling

/-!
# Sessions and the account

A session that begins has a client of its own, which is not ready, so nothing has to be told yet of
the documents that go over to it.  A document that is closed, or whose session ends, is not in the
account any more, and no server follows its buffer from there on.
-/

namespace TextEditor.Server.Hub

variable {since : Past} {out : String → String → Prop}
variable {h : Hub} {s : Session} {language uri : String}

/-! ## Buffers that are released -/

/-- No server is ready that was told to open the document of the buffer. -/
def Idle (h : Hub) (id : Nat) : Prop :=
  ∀ b, h.face.buffers[id]? = some b →
    ∀ s document, ¬h.face.Live b.language (uriOf b) s document

theorem accounts_untrack {id : Nat} (haccounts : h.Accounts since nothing) (hidle : h.Idle id) :
    (h.alterBuffer id Buffer.untrack).Accounts since nothing := by
  obtain ⟨streams, haccount⟩ := haccounts
  -- The documents of the buffer, of which none is live, are out of account for a moment.
  let out : String → String → Prop :=
    fun language uri => ∃ b, h.face.buffers[id]? = some b ∧ b.language = language ∧ uriOf b = uri
  have htouched := (haccount.suspend out fun _ _ h => h.elim).touch id Buffer.untrack
    (fun b => ⟨rfl, rfl, rfl⟩) fun b hb => ⟨b, hb, rfl, rfl⟩
  refine ⟨streams, htouched.resume fun language uri s document hlive hin _ => ?_⟩
  obtain ⟨b, hb, rfl, rfl⟩ := hin
  exact absurd ⟨hlive.session, hlive.ready, hlive.found, hlive.opened⟩ (hidle b hb s document)

theorem release_cons (h : Hub) (document : TrackedDocument) (documents : List TrackedDocument) :
    h.release (document :: documents) =
      (h.alterBuffer document.buffer Buffer.untrack).release documents := rfl

theorem accounts_release {documents : List TrackedDocument} (haccounts : h.Accounts since nothing)
    (hidle : ∀ document ∈ documents, h.Idle document.buffer) :
    (h.release documents).Accounts since nothing := by
  induction documents generalizing h with
  | nil => exact haccounts
  | cons document rest ih =>
    rw [release_cons]
    apply ih (accounts_untrack haccounts (hidle document List.mem_cons_self))
    intro other hother b hb s d hlive
    have hother := hidle other (List.mem_cons_of_mem _ hother)
    change (h.face.buffers.modify document.buffer Buffer.untrack)[other.buffer]? = some b at hb
    rw [List.getElem?_modify] at hb
    obtain ⟨b', hb', rfl⟩ := Option.map_eq_some_iff.1 hb
    apply hother b' hb' s d
    split at hlive <;> exact ⟨hlive.session, hlive.ready, hlive.found, hlive.opened⟩

/-- The documents of a session whose server is not ready. -/
theorem idle_of_placed {streams : List (List Outgoing)}
    (haccount : Account since out streams h.face)
    (hs : ∀ s', h.sessions.find? language = some s' → h.stateOf s' ≠ .ready)
    {document : TrackedDocument} (hplaced : Placed h.face.buffers language uri document) :
    h.Idle document.buffer := by
  obtain ⟨-, b, hb, rfl, rfl⟩ := hplaced
  intro b' hb' s' d hlive
  obtain rfl : b = b' := Option.some.inj (hb.symm.trans hb')
  have hready := hlive.ready
  have hstate := stateOf_eq haccount hlive.session
  exact hs s' hlive.session (Option.some.inj (hstate.symm.trans hready))

/-! ## Starting -/

/-- What becomes of the start of a session. -/
structure Starts (since : Past) (language : String) (h : Hub)
    (result : Except Fault (Option Session) × Hub) : Prop where
  accounts : result.2.Accounts since nothing
  buffers : result.2.buffers = h.buffers
  session : ∀ s, result.1 = .ok (some s) → result.2.sessions = h.sessions.put language s ∧
    s.language = language ∧ s.documents = [] ∧ result.2.stateOf s ≠ .ready
  none : result.1 = .ok none → result.2.sessions = h.sessions

/-- No session began. -/
theorem starts_of_face {h' : Hub} {outcome : Except Fault (Option Session)}
    (haccounts : h'.Accounts since nothing) (hbuffers : h'.buffers = h.buffers)
    (hsessions : h'.sessions = h.sessions) (hnone : ∀ s, outcome ≠ .ok (some s)) :
    Starts since language h (outcome, h') where
  accounts := haccounts
  buffers := hbuffers
  session s hs := absurd hs (hnone s)
  none _ := hsessions

/-- The session that began has the newest line. -/
theorem starts_of_begun {streams more : List (List Outgoing)} {f' : Fleet} {l : Line}
    (haccount : Account since nothing streams h.face)
    (haccount' : Account since nothing (streams ++ more) ({ h with fleet := f' } : Hub).face)
    (hbegun : l.Begun) (htakes : l.Takes) (hwane : Wane (h.fleet.lines ++ [l]) f'.lines)
    (language : String) :
    let s : Session := { language, client := h.fleet.lines.length }
    Starts since language h
      (.ok (some s), { h with fleet := f', sessions := h.sessions.put language s }) := by
  intro s
  obtain ⟨-, hinput, hfault⟩ := htakes
  have hlast : (h.fleet.lines ++ [l])[h.fleet.lines.length]? = some l :=
    List.getElem?_concat_length
  obtain ⟨l', hl', hwanes⟩ := hwane.some_right hlast
  have hstate : l'.state ≠ .ready := fun hready => by
    have hstarting := hbegun.state
    rw [hwanes.ready hready] at hstarting
    cases hstarting
  have hnew : ∀ language' s', h.sessions.find? language' = some s' → s'.client ≠ s.client := by
    intro language' s' hs'
    obtain ⟨l₀, hl₀, -⟩ := haccount.served language' s' hs'
    exact Nat.ne_of_lt (List.getElem?_eq_some_iff.1 hl₀).1
  have hjoined := haccount'.join (s := s) rfl hl' (hwanes.hasInput.trans hinput)
    (hwanes.fault.trans hfault) hstate hnew fun uri document hmem => by cases hmem
  refine ⟨⟨_, hjoined⟩, rfl, fun s' hs' => ?_, fun hnone => by cases hnone⟩
  obtain rfl : s = s' := Option.some.inj (Except.ok.inj hs')
  have hsame : f'.stateOf s.client = l'.state := Fleet.stateOf_of_line hl'
  exact ⟨rfl, rfl, rfl, fun hready => hstate (hsame.symm.trans hready)⟩

theorem starts_startSession (haccounts : h.Accounts since nothing) (language path : String) :
    Starts since language h ((startSession language path).start h) := by
  rw [startSession, Step.start_bind, Step.start_get]
  dsimp only
  split
  · exact starts_of_face haccounts rfl rfl (by simp)
  · exact starts_of_face haccounts rfl rfl (by simp)
  next server _ _ =>
  rw [Step.start_bind, Step.start_attempt, onFleet, Step.start_zoom]
  obtain ⟨begun, hbegun, hwane, hok⟩ := Fleet.spawn_spec h.fleet server [] h.root path
    h.settings.maxMessageSize
  generalize (Fleet.spawn server [] h.root path h.settings.maxMessageSize).start h.fleet = result
    at hwane hok ⊢
  obtain ⟨outcome, f'⟩ := result
  obtain ⟨streams, haccount⟩ := haccounts
  obtain ⟨more, hbegan⟩ := haccount.begunAll fun l hl => (hbegun l hl).1
  have haccount' : Account since nothing (streams ++ more) ({ h with fleet := f' } : Hub).face :=
    hbegan.wane hwane
  cases outcome with
  | ok client =>
    obtain ⟨rfl, l, rfl, htakes⟩ := hok client rfl
    exact starts_of_begun haccount haccount' (hbegun l List.mem_cons_self).1 htakes hwane language
  | error fault =>
    have hfailed : ∀ (level : Level) (name : String) (data : Pairs),
        Starts since language h (.ok none, ({ h with fleet := f' } : Hub).report level name data) :=
      fun level name data => starts_of_face ⟨_, haccount'⟩ rfl rfl (by simp)
    have hraised : ∀ fault, Starts since language h (.error fault, { h with fleet := f' }) :=
      fun fault => starts_of_face ⟨_, haccount'⟩ rfl rfl (by simp)
    cases fault with
    | write fault => exact hfailed _ _ _
    | pipe fault =>
      obtain ⟨kind, message⟩ := fault
      cases kind with
      | system name => exact hfailed _ _ _
      | value => exact hraised _
      | other name => exact hraised _
    | _ => exact hraised _

/-- While its server is not ready a session that began may take any documents over that are kept
where they belong. -/
theorem accounts_takeOver {documents : Table TrackedDocument} (haccounts : h.Accounts since out)
    (hs : h.sessions.find? language = some s) (hempty : s.documents = [])
    (hstate : h.stateOf s ≠ .ready)
    (hplaced : ∀ uri document, (uri, document) ∈ documents →
      Placed h.buffers language uri document) (legend : List String) :
    (h.alterSession language fun s =>
      { s with documents := s.documents.putAll documents, legend }).Accounts since out := by
  obtain ⟨streams, haccount⟩ := haccounts
  refine ⟨streams, ?_⟩
  rw [face_alterSession]
  refine haccount.alterSession language _ (fun s => ⟨rfl, rfl⟩) (fun s' hs' uri document hmem => ?_)
    fun s' hs' hready => ?_
  · obtain rfl : s = s' := Option.some.inj (hs.symm.trans hs')
    rcases Table.mem_putAll hmem with hold | hnew
    · rw [hempty] at hold
      cases hold
    · exact hplaced uri document hnew
  · obtain rfl : s = s' := Option.some.inj (hs.symm.trans hs')
    have hsame := (stateOf_eq haccount hs).symm.trans hready
    exact absurd (Option.some.inj hsame) hstate

/-- Start a session for a buffer that takes over documents. -/
def renew (b : Buffer) (documents : Table TrackedDocument) : Step Hub (Option Session) := do
  let some session ← startSession b.language b.path | return none
  modify fun h =>
    h.alterSession b.language fun s =>
      { s with documents := s.documents.putAll documents, legend := b.profile.tokenTypes }
  return some session

theorem start_sessionFor (b : Buffer) :
    (sessionFor b).start h =
      match h.sessions.find? b.language with
      | some s =>
        if (h.stateOf s).isAlive then (.ok (some s), h) else (renew b s.documents).start h
      | none => (renew b []).start h := by
  rw [sessionFor, Step.start_bind, Step.start_get]
  dsimp only
  cases h.sessions.find? b.language with
  | none => rfl
  | some s =>
    dsimp only
    cases (h.stateOf s).isAlive <;> rfl

/-- A session that a buffer can join. -/
structure Joins (since : Past) (language : String) (h : Hub)
    (result : Except Fault (Option Session) × Hub) : Prop where
  accounts : result.2.Accounts since nothing
  buffers : result.2.buffers = h.buffers
  session : ∀ s, result.1 = .ok (some s) → s.language = language ∧
    ∃ s', result.2.sessions.find? language = some s' ∧ s'.client = s.client ∧
      s'.encoding = s.encoding

theorem joins_renew (haccounts : h.Accounts since nothing) {b : Buffer}
    {documents : Table TrackedDocument}
    (hplaced : ∀ uri document, (uri, document) ∈ documents →
      Placed h.buffers b.language uri document) :
    Joins since b.language h ((renew b documents).start h) := by
  have hstarts := starts_startSession haccounts b.language b.path
  rw [renew, Step.start_bind]
  generalize (startSession b.language b.path).start h = result at hstarts ⊢
  obtain ⟨outcome, h'⟩ := result
  obtain ⟨(haccounts' : h'.Accounts since nothing), (hbuffers : h'.buffers = h.buffers), hsession,
    -⟩ := hstarts
  rw [← hbuffers] at hplaced
  cases outcome with
  | error fault => exact ⟨haccounts', hbuffers, fun s hs => by cases hs⟩
  | ok started =>
    cases started with
    | none => exact ⟨haccounts', hbuffers, fun s hs => by cases hs⟩
    | some s =>
      obtain ⟨(hsessions : h'.sessions = _), hlanguage, hdocuments, hstate⟩ := hsession s rfl
      have hs : h'.sessions.find? b.language = some s := by
        rw [hsessions, Table.find?_put_self]
      let change : Session → Session := fun s =>
        { s with documents := s.documents.putAll documents, legend := b.profile.tokenTypes }
      refine ⟨accounts_takeOver haccounts' hs hdocuments hstate hplaced _, ?_, fun s' hs' => ?_⟩
      · exact (congrArg Face.buffers (face_alterSession h' b.language change)).trans hbuffers
      · obtain rfl : s = s' := Option.some.inj (Except.ok.inj hs')
        refine ⟨hlanguage, change s, ?_, rfl, rfl⟩
        refine (find?_alterSession h' b.language change b.language).trans ?_
        rw [if_pos rfl, hs, Option.map_some]

theorem joins_sessionFor (haccounts : h.Accounts since nothing) (b : Buffer) :
    Joins since b.language h ((sessionFor b).start h) := by
  rw [start_sessionFor]
  cases hs : h.sessions.find? b.language with
  | none => exact joins_renew haccounts fun uri document hmem => by cases hmem
  | some s =>
    dsimp only
    obtain ⟨streams, haccount⟩ := haccounts
    split
    · refine ⟨⟨streams, haccount⟩, rfl, fun s' hs' => ?_⟩
      obtain rfl : s = s' := Option.some.inj (Except.ok.inj hs')
      exact ⟨haccount.named _ s hs, s, hs, rfl, rfl⟩
    · exact joins_renew ⟨streams, haccount⟩ fun uri document hmem =>
        haccount.placed b.language s uri document hs hmem

/-! ## Opening and closing -/

/-- The hub with a new document for a buffer, which a server follows from there on. -/
def adopt (h : Hub) (id : Nat) (b : Buffer) : Hub :=
  (h.alterSession b.language fun s =>
    { s with
      documents := s.documents.put (uriOf b) { buffer := id, uri := uriOf b } }).alterBuffer id
    Buffer.track

/-- The new document is out of account. -/
theorem accounts_adopt {id : Nat} {b : Buffer} (haccounts : h.Accounts since nothing)
    (hb : h.buffers[id]? = some b) :
    (h.adopt id b).Accounts since (only b.language (uriOf b)) := by
  obtain ⟨streams, haccount⟩ := haccounts
  have hsuspended := haccount.suspend (only b.language (uriOf b)) fun _ _ h => h.elim
  let document : TrackedDocument := { buffer := id, uri := uriOf b }
  have haltered := hsuspended.alterSession b.language
    (fun s => { s with documents := s.documents.put (uriOf b) document })
    (fun s => ⟨rfl, rfl⟩)
    (fun s hs uri d hmem => by
      rcases Table.mem_put hmem with heq | hold
      · obtain ⟨rfl, rfl⟩ := Prod.mk.inj heq
        exact ⟨rfl, b, hb, rfl, rfl⟩
      · exact haccount.placed b.language s uri d hs hold)
    (fun s hs hready => ⟨rfl, fun uri d hfound hopened hnot => by
      have hne : uri ≠ uriOf b := fun heq => hnot ⟨rfl, heq⟩
      rw [Table.find?_put_of_ne _ _ hne] at hfound
      exact ⟨d, hfound, hopened, rfl, rfl⟩⟩)
  rw [← face_alterSession] at haltered
  refine ⟨streams, haltered.touch _ _ (fun b => ⟨rfl, rfl, rfl⟩) fun b' hb' => ?_⟩
  rw [face_alterSession] at hb'
  obtain rfl : b = b' := Option.some.inj (hb.symm.trans hb')
  exact ⟨rfl, rfl⟩

theorem find?_adopt (id : Nat) {b : Buffer}
    (hs : h.sessions.find? b.language = some s) :
    ∃ s', (h.adopt id b).sessions.find? b.language = some s' ∧ s'.client = s.client ∧
      s'.encoding = s.encoding := by
  refine ⟨{ s with documents := s.documents.put (uriOf b) { buffer := id, uri := uriOf b } },
    (find?_alterSession h b.language _ b.language).trans ?_, rfl, rfl⟩
  rw [if_pos rfl, hs, Option.map_some]

theorem keeps_openDocument (id : Nat) :
    Step.Keeps (Accounts since nothing) (openDocument id) := by
  apply Step.Keeps.get_bind
  intro h haccounts
  cases hb : h.buffers[id]? with
  | none => exact haccounts
  | some b =>
  dsimp only
  split
  · exact haccounts
  split
  · exact haccounts
  have hjoins := joins_sessionFor haccounts b
  rw [Step.start_bind]
  generalize (sessionFor b).start h = result at hjoins ⊢
  obtain ⟨outcome, h₁⟩ := result
  obtain ⟨(haccounts₁ : h₁.Accounts since nothing), (hbuffers : h₁.buffers = h.buffers),
    hsession⟩ := hjoins
  cases outcome with
  | error fault => exact haccounts₁
  | ok joined =>
  cases joined with
  | none => exact haccounts₁
  | some session =>
  obtain ⟨hlanguage, s', (hs' : h₁.sessions.find? b.language = some s'), hclient, hencoding⟩ :=
    hsession session rfl
  have hb₁ : h₁.buffers[id]? = some b := hbuffers ▸ hb
  obtain ⟨streams, haccount₂⟩ := accounts_adopt haccounts₁ hb₁
  obtain ⟨s₂, hs₂, hclient₂, hencoding₂⟩ := find?_adopt id hs'
  rw [hclient] at hclient₂
  rw [hencoding] at hencoding₂
  have hstate : (h₁.adopt id b).face.lines[session.client]?.map Line.state =
      some ((h₁.adopt id b).stateOf session) := by
    rw [stateOf, ← hclient₂]
    exact stateOf_eq haccount₂ hs₂
  dsimp only
  rw [Step.start_bind, Step.start_modify]
  dsimp only
  change Accounts since nothing ((_ : Step Hub _).start (h₁.adopt id b)).2
  rw [Step.start_bind, Step.start_get]
  dsimp only
  split
  · next hready =>
    have hserves : (h₁.adopt id b).face.Serves session := by
      refine ⟨⟨s₂, hlanguage ▸ hs₂, hclient₂, hencoding₂⟩, hstate.trans ?_⟩
      exact congrArg some (of_decide_eq_true hready)
    obtain ⟨h₃, hstart, haccounts₃, -⟩ := start_announce ⟨streams, haccount₂⟩ nothing
      (uriOf b) hserves ⟨hlanguage, rfl⟩
      (fun language' uri' hin _ => ⟨hin.1.trans hlanguage.symm, hin.2⟩)
    rw [Step.start_bind, hstart]
    exact haccounts₃
  · next hready =>
    refine ⟨streams, haccount₂.resume fun language uri s d hlive hin _ => ?_⟩
    obtain ⟨rfl, rfl⟩ := hin
    obtain rfl : s₂ = s := Option.some.inj (hs₂.symm.trans hlive.session)
    have hlive' := hlive.ready
    rw [hclient₂, hstate] at hlive'
    exact absurd (decide_eq_true (Option.some.inj hlive')) hready

theorem accounts_closeDocument (haccounts : h.Accounts since nothing) (id : Nat) :
    (h.closeDocument id).Accounts since nothing := by
  unfold closeDocument
  cases hb : h.buffers[id]? with
  | none => exact haccounts
  | some b =>
  obtain ⟨streams, haccount⟩ := haccounts
  let change : Session → Session :=
    fun s => { s with documents := s.documents.erase (uriOf b) }
  let sessions : Table Session := h.sessions.map fun entry => (entry.1, change entry.2)
  have hfind : ∀ language s', sessions.find? language = some s' →
      ∃ s, h.sessions.find? language = some s ∧ change s = s' := by
    intro language s' hs'
    have hmap := Table.find?_map h.sessions change language
    exact Option.map_eq_some_iff.1 (hmap.symm.trans hs')
  have hclosed : Account since nothing streams ({ h with sessions } : Hub).face := by
    refine haccount.resession ?_ (fun language s' hs' => ?_) fun language uri s' d hlive _ => ?_
    · rw [List.map_map]
      exact haccount.keys
    · obtain ⟨s, hs, rfl⟩ := hfind language s' hs'
      refine ⟨haccount.named language s hs, ⟨s, hs, rfl⟩, fun uri d hmem => ?_⟩
      exact haccount.placed language s uri d hs (List.mem_filter.1 hmem).1
    · obtain ⟨s, hs, rfl⟩ := hfind language s' hlive.session
      have hfound := hlive.found
      by_cases huri : uri = uriOf b
      · subst huri
        rw [Table.find?_erase_self] at hfound
        cases hfound
      · rw [Table.find?_erase_of_ne _ huri] at hfound
        exact ⟨s, d, ⟨hs, hlive.ready, hfound, hlive.opened⟩, rfl, rfl, rfl⟩
  apply accounts_untrack ⟨streams, hclosed⟩
  intro b' hb' s' d hlive
  obtain rfl : b = b' := Option.some.inj (hb.symm.trans hb')
  obtain ⟨s, hs, rfl⟩ := hfind b.language s' hlive.session
  have hfound := hlive.found
  rw [Table.find?_erase_self] at hfound
  cases hfound

/-! ## Ending -/

theorem accounts_terminate (haccounts : h.Accounts since out) (client : Nat) :
    ({ h with fleet := h.fleet.terminate client } : Hub).Accounts since out := by
  obtain ⟨streams, haccount⟩ := haccounts
  exact ⟨streams, haccount.wane (Fleet.wane_terminate h.fleet client)⟩

theorem accounts_erase (haccounts : h.Accounts since nothing) (language : String) :
    ({ h with sessions := h.sessions.erase language } : Hub).Accounts since nothing := by
  obtain ⟨streams, haccount⟩ := haccounts
  have hfind : ∀ language' s, (h.sessions.erase language).find? language' = some s →
      h.sessions.find? language' = some s := by
    intro language' s hs
    by_cases hsame : language' = language
    · subst hsame
      rw [Table.find?_erase_self] at hs
      cases hs
    · rwa [Table.find?_erase_of_ne _ hsame] at hs
  refine ⟨streams, haccount.resession (Table.keys_erase haccount.keys language)
    (fun language' s hs => ?_) fun language' uri s d hlive _ => ?_⟩
  · have hs := hfind language' s hs
    exact ⟨haccount.named language' s hs, ⟨s, hs, rfl⟩, fun uri d =>
      haccount.placed language' s uri d hs⟩
  · exact ⟨s, d, ⟨hfind language' s hlive.session, hlive.ready, hlive.found, hlive.opened⟩,
      rfl, rfl, rfl⟩

/-- Start the session that takes the place of one that is gone. -/
def succeed (language : String) (old : Session) (b : Buffer) : Step Hub Bool := do
  let some session ← startSession language b.path
    | do
      modify fun h => h.release old.documents.values
      return false
  let documents := old.documents.map fun entry =>
    (entry.1, { entry.2 with opened := false, tokens := [], tokensVersion := -1 })
  modify fun h =>
    h.alterSession session.language fun s =>
      { s with legend := b.profile.tokenTypes, documents := s.documents.putAll documents }
  modify fun h => h.report .info "lsp.restart" [("language", language)]
  return true

theorem accounts_succeed (haccounts : h.Accounts since nothing)
    (hgone : h.sessions.find? language = none) {old : Session}
    (hplaced : ∀ uri d, (uri, d) ∈ old.documents → Placed h.buffers language uri d) (b : Buffer) :
    ((succeed language old b).start h).2.Accounts since nothing := by
  have hstarts := starts_startSession haccounts language b.path
  rw [succeed, Step.start_bind]
  generalize (startSession language b.path).start h = result at hstarts ⊢
  obtain ⟨outcome, h'⟩ := result
  obtain ⟨(haccounts' : h'.Accounts since nothing), (hbuffers : h'.buffers = h.buffers), hsession,
    hnone⟩ := hstarts
  rw [← hbuffers] at hplaced
  cases outcome with
  | error fault => exact haccounts'
  | ok started =>
  cases started with
  | none =>
    have hsessions : h'.sessions = h.sessions := hnone rfl
    apply accounts_release haccounts'
    intro d hd
    obtain ⟨⟨uri, d'⟩, hmem, rfl⟩ := List.mem_map.1 hd
    obtain ⟨streams, haccount⟩ := haccounts'
    refine idle_of_placed haccount (fun s' hs' => ?_) (hplaced uri d' hmem)
    rw [hsessions, hgone] at hs'
    cases hs'
  | some session =>
    obtain ⟨(hsessions : h'.sessions = _), rfl, hdocuments, hstate⟩ := hsession session rfl
    have hs : h'.sessions.find? session.language = some session := by
      rw [hsessions, Table.find?_put_self]
    dsimp only
    rw [Step.start_bind, Step.start_modify]
    refine accounts_takeOver haccounts' hs hdocuments hstate (fun uri d hmem => ?_) _
    obtain ⟨⟨uri', d'⟩, hmem', heq⟩ := List.mem_map.1 hmem
    obtain ⟨rfl, rfl⟩ := Prod.mk.inj heq
    exact hplaced uri' d' hmem'

theorem keeps_restart (language : String) :
    Step.Keeps (Accounts since nothing) (restart language) := by
  apply Step.Keeps.get_bind
  intro h haccounts
  dsimp only
  rw [Step.start_bind, Step.start_modify]
  dsimp only
  have herased := accounts_erase haccounts language
  cases hold : h.sessions.find? language with
  | none => exact herased
  | some old =>
  dsimp only
  cases old.documents.values.head? with
  | none => exact herased
  | some first =>
  dsimp only
  rw [Step.start_bind, Step.start_modify]
  dsimp only
  have hstopped := accounts_terminate herased old.client
  cases h.buffers[first.buffer]? with
  | none => exact hstopped
  | some b =>
    obtain ⟨streams, haccount⟩ := haccounts
    exact accounts_succeed hstopped (Table.find?_erase_self _ _)
      (fun uri d => haccount.placed language old uri d hold) b

/-! ## Shutdown -/

/-- The hub after one session was stopped. -/
def stop (h : Hub) (s : Session) : Hub :=
  { h with fleet := h.fleet.terminate s.client }.release s.documents.values

theorem release_sessions (h : Hub) (documents : List TrackedDocument) (sessions : Table Session) :
    { h.release documents with sessions } = { h with sessions }.release documents := by
  induction documents generalizing h with
  | nil => rfl
  | cons document rest ih => exact ih (h.alterBuffer document.buffer Buffer.untrack)

theorem sessions_release (h : Hub) (documents : List TrackedDocument) :
    (h.release documents).sessions = h.sessions := by
  induction documents generalizing h with
  | nil => rfl
  | cons document rest ih => exact ih (h.alterBuffer document.buffer Buffer.untrack)

theorem fleet_release (h : Hub) (documents : List TrackedDocument) :
    (h.release documents).fleet = h.fleet := by
  induction documents generalizing h with
  | nil => rfl
  | cons document rest ih => exact ih (h.alterBuffer document.buffer Buffer.untrack)

theorem foldl_stop_sessions (h : Hub) (stopped : List Session) (sessions : Table Session) :
    { stopped.foldl stop h with sessions } = stopped.foldl stop { h with sessions } := by
  induction stopped generalizing h with
  | nil => rfl
  | cons s rest ih =>
    rw [List.foldl_cons, ih, List.foldl_cons, stop, release_sessions]
    rfl

/-- It makes no difference whether the sessions end first. -/
theorem accounts_shutdown (haccounts : h.Accounts since nothing) :
    h.shutdown.Accounts since nothing := by
  have hended : ({ h with sessions := [] } : Hub).Accounts since nothing := by
    obtain ⟨streams, haccount⟩ := haccounts
    exact ⟨streams, haccount.resession List.nodup_nil (fun _ _ hs => by cases hs)
      fun _ _ _ _ hlive _ => by cases hlive.session⟩
  have hshutdown : h.shutdown = h.sessions.values.foldl stop { h with sessions := [] } :=
    foldl_stop_sessions h h.sessions.values []
  rw [hshutdown]
  have hnone : ({ h with sessions := [] } : Hub).sessions = [] := rfl
  generalize ({ h with sessions := [] } : Hub) = h₁ at hended hnone ⊢
  induction h.sessions.values generalizing h₁ with
  | nil => exact hended
  | cons s rest ih =>
    rw [List.foldl_cons]
    refine ih _ ?_ ?_
    · apply accounts_release (accounts_terminate hended s.client)
      intro d _ b _ s' d' hlive
      have hsession : h₁.sessions.find? b.language = some s' := hlive.session
      rw [hnone] at hsession
      cases hsession
    · rw [stop, sessions_release]
      exact hnone

end TextEditor.Server.Hub
