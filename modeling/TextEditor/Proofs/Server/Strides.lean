import TextEditor.Proofs.Server.Run

/-!
# Strides

What a deed does to sessions, buffers and lines it does in strides, and what writes fail only
decides which of them it takes: a message arrives or does not, a buffer is drained, a session passes
to another server.  A document that a server is to be told of waits on an agenda until it is
announced.  A property of hubs needs to be looked at one stride at a time, whatever the deeds are
made of.
-/

namespace TextEditor.Server

namespace Face

variable {F : Face}

/-- The face with one session changed. -/
def alter (F : Face) (language : String) (change : Session → Session) : Face :=
  { F with sessions := F.sessions.alter language change }

/-- The face with one document changed. -/
def alterDocument (F : Face) (language uri : String)
    (change : TrackedDocument → TrackedDocument) : Face :=
  F.alter language fun s => { s with documents := s.documents.alter uri change }

/-- The face with one buffer changed. -/
def touch (F : Face) (id : Nat) (change : Buffer → Buffer) : Face :=
  { F with buffers := F.buffers.modify id change }

/-- The face in which no server follows the buffers of documents. -/
def release (F : Face) (documents : List TrackedDocument) : Face :=
  documents.foldl (fun F document => F.touch document.buffer Buffer.untrack) F

/-- The documents of a language. -/
def documents (F : Face) (language : String) : Table TrackedDocument :=
  ((F.sessions.find? language).map Session.documents).getD []

/-- Each language has one session, with a client of its own, and each session one document for a
uri, which is that of its buffer. -/
structure Tidy (F : Face) : Prop where
  keys : (F.sessions.map Prod.fst).Nodup
  named : ∀ language s, F.sessions.find? language = some s → s.language = language
  apart : ∀ language language' s s', F.sessions.find? language = some s →
    F.sessions.find? language' = some s' → s.client = s'.client → language = language'
  served : ∀ language s, F.sessions.find? language = some s →
    ∃ l, F.lines[s.client]? = some l ∧ l.hasInput = true
  uris : ∀ language s, F.sessions.find? language = some s → (s.documents.map Prod.fst).Nodup
  placed : ∀ language s uri d, F.sessions.find? language = some s →
    s.documents.find? uri = some d → Placed F.buffers language uri d
  settled : ∀ l ∈ F.lines, l.Settled

end Face

/-- What one stride of a deed does, from one agenda and face to the next. -/
inductive Stride (h₀ : Hub) (deed : Deed) :
    List (String × String) → Face → List (String × String) → Face → Prop
  /-- The processes go on. -/
  | wane {agenda : List (String × String)} {F : Face} {lines : List Line}
    (hwane : Wane F.lines lines) : Stride h₀ deed agenda F agenda { F with lines }
  /-- A message that concerns no document arrives. -/
  | neutral {agenda : List (String × String)} {F : Face} (client : Nat) {m : Outgoing}
    (hm : Fleet.Neutral m) : Stride h₀ deed agenda F agenda (F.sent client m)
  /-- A process starts, which is told of no document yet. -/
  | begun {agenda : List (String × String)} {F : Face} {l : Line} (hbegun : l.Begun)
    (huntold : Fleet.Untold l) : Stride h₀ deed agenda F agenda { F with lines := F.lines ++ [l] }
  /-- A server is told of a document, whose buffer is followed from there on. -/
  | announced {agenda : List (String × String)} {F : Face} {language uri : String} {s : Session}
    {d : TrackedDocument} {b : Buffer} (hs : F.sessions.find? language = some s)
    (hd : s.documents.find? uri = some d) (hb : F.buffers[d.buffer]? = some b)
    (hready : F.lines[s.client]?.map Line.state = some .ready) :
    Stride h₀ deed ((language, uri) :: agenda) F agenda
      (((F.touch d.buffer Buffer.track).sent s.client
        (.didOpen uri b.language b.text d.version)).alterDocument language uri fun d =>
          { d with opened := true })
  /-- A buffer is followed, but its server cannot be told. -/
  | muted {agenda : List (String × String)} {F : Face} {language uri : String} {s : Session}
    {d : TrackedDocument} (hs : F.sessions.find? language = some s)
    (hd : s.documents.find? uri = some d) :
    Stride h₀ deed ((language, uri) :: agenda) F agenda (F.touch d.buffer Buffer.track)
  /-- A document is left for later. -/
  | skipped {entry : String × String} {agenda : List (String × String)} {F : Face} :
    Stride h₀ deed (entry :: agenda) F agenda F
  /-- A buffer is drained that has nothing to tell, or no one to be told. -/
  | drained {F : Face} {language uri : String} {s : Session} {d : TrackedDocument} {b : Buffer}
    (hs : F.sessions.find? language = some s) (hd : s.documents.find? uri = some d)
    (hb : F.buffers[d.buffer]? = some b) (hidle : b.changes = [] ∨ d.opened = false) :
    Stride h₀ deed [] F [] (F.touch d.buffer fun b => b.drainChanges.2)
  /-- A server is told of the changes of a document. -/
  | changed {F : Face} {language uri : String} {s : Session} {d : TrackedDocument} {b : Buffer}
    (hs : F.sessions.find? language = some s) (hd : s.documents.find? uri = some d)
    (hb : F.buffers[d.buffer]? = some b) (hopened : d.opened = true)
    (hready : F.lines[s.client]?.map Line.state = some .ready) :
    Stride h₀ deed [] F []
      (((F.touch d.buffer fun b => b.drainChanges.2).alterDocument language uri fun d' =>
        { d' with version := d.version + 1 }).sent s.client
          (.didChange uri (d.version + 1) (b.changes.map (Message.rangeChange · s.encoding))))
  /-- The changes of a document are sent through a broken pipe. -/
  | lost {F : Face} {language uri : String} {s : Session} {d : TrackedDocument} {b : Buffer}
    (hs : F.sessions.find? language = some s) (hd : s.documents.find? uri = some d)
    (hb : F.buffers[d.buffer]? = some b) (hopened : d.opened = true) (hdeed : deed = .syncChanges)
    (hbroken : ∃ l, h₀.face.lines[s.client]? = some l ∧ l.fault ≠ none) :
    Stride h₀ deed [] F []
      ((F.touch d.buffer fun b => b.drainChanges.2).alterDocument language uri fun d' =>
        { d' with version := d.version + 1 })
  /-- The documents of a language, if it has any, go over to a server that just started. -/
  | joined {F : Face} {language : String} {sessions : Table Session} {s : Session}
    (reset : TrackedDocument → TrackedDocument)
    (hreset : ∀ d, (reset d).buffer = d.buffer ∧ (reset d).uri = d.uri)
    (hkeys : (sessions.map Prod.fst).Nodup)
    (hfind : ∀ other, sessions.find? other =
      if other = language then some s else F.sessions.find? other)
    (hlanguage : s.language = language) (huris : (s.documents.map Prod.fst).Nodup)
    (hdocuments : ∀ uri, s.documents.find? uri = ((F.documents language).find? uri).map reset)
    (hline : ∃ l, F.lines[s.client]? = some l ∧ l.hasInput = true ∧ l.state ≠ .ready)
    (hnew : ∀ other s', F.sessions.find? other = some s' → s'.client ≠ s.client) :
    Stride h₀ deed [] F [] { F with sessions }
  /-- A buffer gets a document, in place of the one for the same uri. -/
  | adopted {F : Face} {id : Nat} {s : Session} {b : Buffer} (hdeed : deed = .openDocument id)
    (hs : F.sessions.find? b.language = some s) (hb : F.buffers[id]? = some b) :
    Stride h₀ deed [] F [(b.language, Hub.uriOf b)]
      ((F.alter b.language fun s =>
        { s with
          documents := s.documents.put (Hub.uriOf b) { buffer := id, uri := Hub.uriOf b } }).touch
        id Buffer.track)
  /-- The documents for the uri of a buffer are closed. -/
  | closed {F : Face} {id : Nat} {b : Buffer} (hdeed : deed = .closeDocument id)
    (hb : F.buffers[id]? = some b) :
    Stride h₀ deed [] F []
      (({ F with
        sessions := F.sessions.map fun entry =>
          (entry.1, { entry.2 with documents := entry.2.documents.erase (Hub.uriOf b) }) } :
        Face).touch id Buffer.untrack)
  /-- A session ends, and its documents are released. -/
  | retired {F : Face} (language : String) :
    Stride h₀ deed [] F []
      (({ F with sessions := F.sessions.erase language } : Face).release
        (F.documents language).values)
  /-- A session ends, and the failure of its successor keeps its documents from being released. -/
  | dropped {F : Face} {language : String} (hdeed : deed = .restart language)
    (hraised : ∃ fault, ((Hub.restart language).start h₀).1 = .error fault) :
    Stride h₀ deed [] F [] { F with sessions := F.sessions.erase language }
  /-- The documents of a server that is not ready are released. -/
  | released {F : Face} {language : String} {s : Session}
    (hs : F.sessions.find? language = some s)
    (hdead : F.lines[s.client]?.map Line.state ≠ some .ready) :
    Stride h₀ deed [] F [] (F.release s.documents.values)
  /-- A server names its kinds of tokens. -/
  | labelled {F : Face} (language : String) (legend : List String) :
    Stride h₀ deed [] F [] (F.alter language fun s => { s with legend })
  /-- A server is ready, and its documents are to be announced. -/
  | initiated {F : Face} {language : String} {s : Session} {l : Line}
    (hs : F.sessions.find? language = some s) (hl : F.lines[s.client]? = some l)
    (hstate : l.state = .starting) (hstarts : l.starts = 0) (encoding : Encoding) :
    Stride h₀ deed [] F (s.documents.map fun entry => (language, entry.1))
      { F.alter language fun s => { s with encoding } with
        lines := F.lines.modify s.client fun l => { l with state := .ready } }
  /-- The tokens of a document come. -/
  | colored {F : Face} (language uri : String) (tokens : List SemanticToken) (id : Nat) :
    Stride h₀ deed [] F []
      ((F.alterDocument language uri fun d => { d with tokens, tokensVersion := d.version }).touch
        id fun b => { b with dirty := true })

/-- The strides of a deed so far, from the face at its beginning. -/
inductive Walk (h₀ : Hub) (deed : Deed) : List (String × String) → Face → Prop
  | start : Walk h₀ deed [] h₀.face
  | step {agenda agenda' : List (String × String)} {F F' : Face} (hwalk : Walk h₀ deed agenda F)
    (hstride : Stride h₀ deed agenda F agenda' F') : Walk h₀ deed agenda' F'

namespace Face

variable {F : Face} {language : String} {s : Session}

/-! ## What a change of the face does -/

@[simp]
theorem sessions_touch (F : Face) (id : Nat) (change : Buffer → Buffer) :
    (F.touch id change).sessions = F.sessions := rfl

@[simp]
theorem lines_touch (F : Face) (id : Nat) (change : Buffer → Buffer) :
    (F.touch id change).lines = F.lines := rfl

@[simp]
theorem sessions_release (F : Face) (documents : List TrackedDocument) :
    (F.release documents).sessions = F.sessions := by
  induction documents generalizing F with
  | nil => rfl
  | cons document rest ih => exact ih (F.touch document.buffer Buffer.untrack)

@[simp]
theorem lines_release (F : Face) (documents : List TrackedDocument) :
    (F.release documents).lines = F.lines := by
  induction documents generalizing F with
  | nil => rfl
  | cons document rest ih => exact ih (F.touch document.buffer Buffer.untrack)

theorem find?_alter (F : Face) (language : String) (change : Session → Session)
    (other : String) :
    (F.alter language change).sessions.find? other =
      if other = language then (F.sessions.find? language).map change
      else F.sessions.find? other :=
  Table.find?_alter _ _ _ _

theorem buffer_touch (F : Face) (id : Nat) (change : Buffer → Buffer) (i : Nat) :
    (F.touch id change).buffers[i]? =
      F.buffers[i]?.map fun b => if i = id then change b else b := by
  rw [touch, List.getElem?_modify]
  by_cases hi : id = i
  · subst hi
    simp
  · simp [hi, Ne.symm hi]

theorem buffer_of_touch {F : Face} {id i : Nat} {change : Buffer → Buffer} {b' : Buffer}
    (h : (F.touch id change).buffers[i]? = some b') :
    ∃ b, F.buffers[i]? = some b ∧ b' = if i = id then change b else b := by
  rw [buffer_touch] at h
  obtain ⟨b, hb, rfl⟩ := Option.map_eq_some_iff.1 h
  exact ⟨b, hb, rfl⟩

/-- A buffer that was added is the last one. -/
theorem buffer_of_concat {buffers : List Buffer} {new b : Buffer} {i : Nat}
    (h : (buffers ++ [new])[i]? = some b) : buffers[i]? = some b ∨ b = new := by
  by_cases hi : i < buffers.length
  · exact .inl ((List.getElem?_append_left hi).symm.trans h)
  · rw [List.getElem?_append_right (Nat.le_of_not_lt hi)] at h
    exact .inr (List.mem_singleton.1 (List.mem_of_getElem? h))

/-- A buffer is released with the documents that it has among them. -/
theorem buffer_release (F : Face) (documents : List TrackedDocument) (i : Nat) :
    (F.release documents).buffers[i]? =
      F.buffers[i]?.map fun b =>
        if i ∈ documents.map TrackedDocument.buffer then b.untrack else b := by
  induction documents generalizing F with
  | nil => simp [release]
  | cons document rest ih =>
    have hrest := ih (F.touch document.buffer Buffer.untrack)
    rw [buffer_touch, Option.map_map] at hrest
    rw [release, List.foldl_cons]
    refine hrest.trans (congrArg (fun f => F.buffers[i]?.map f) (funext fun b => ?_))
    simp only [Function.comp_apply, List.map_cons, List.mem_cons]
    by_cases hi : i = document.buffer
    · by_cases hmem : i ∈ rest.map TrackedDocument.buffer
      · simp [hi, Buffer.untrack]
      · simp [hi, Buffer.untrack]
    · simp [hi]

theorem documents_of_find? (hs : F.sessions.find? language = some s) :
    F.documents language = s.documents := by
  rw [documents, hs]
  rfl

/-! ## Tidiness -/

namespace Tidy

theorem regular (h : F.Tidy) : F.Regular :=
  ⟨h.keys, h.named, h.settled⟩

/-- The document that is kept for a buffer is found under its language and uri. -/
theorem place_unique (h : F.Tidy) {uri uri' language' : String} {s' : Session}
    {d d' : TrackedDocument} (hs : F.sessions.find? language = some s)
    (hd : s.documents.find? uri = some d) (hs' : F.sessions.find? language' = some s')
    (hd' : s'.documents.find? uri' = some d') (hbuffer : d.buffer = d'.buffer) :
    language = language' ∧ uri = uri' := by
  obtain ⟨-, b, hb, huri, hlanguage⟩ := h.placed language s uri d hs hd
  obtain ⟨-, b', hb', huri', hlanguage'⟩ := h.placed language' s' uri' d' hs' hd'
  rw [hbuffer, hb'] at hb
  obtain rfl := Option.some.inj hb
  exact ⟨hlanguage.symm.trans hlanguage', huri.symm.trans huri'⟩

/-- Documents at different places are kept for different buffers. -/
theorem buffer_ne (h : F.Tidy) {uri uri' language' : String} {s' : Session}
    {d d' : TrackedDocument} (hs : F.sessions.find? language = some s)
    (hd : s.documents.find? uri = some d) (hs' : F.sessions.find? language' = some s')
    (hd' : s'.documents.find? uri' = some d') (hplace : ¬(language = language' ∧ uri = uri')) :
    d.buffer ≠ d'.buffer :=
  fun hbuffer => hplace (h.place_unique hs hd hs' hd' hbuffer)

theorem withLines (h : F.Tidy) {lines : List Line}
    (hlines : ∀ (i : Nat) (l : Line), F.lines[i]? = some l →
      ∃ l' : Line, lines[i]? = some l' ∧ l'.hasInput = l.hasInput)
    (hsettled : ∀ l ∈ lines, l.Settled) : Tidy { F with lines } :=
  { h with
    served := fun language s hs => by
      obtain ⟨l, hl, hinput⟩ := h.served language s hs
      obtain ⟨l', hl', hsame⟩ := hlines _ l hl
      exact ⟨l', hl', hsame.trans hinput⟩
    settled := hsettled }

theorem modifyLine (h : F.Tidy) (client : Nat) (change : Line → Line)
    (hchange : ∀ l, F.lines[client]? = some l → (change l).hasInput = l.hasInput ∧
      (change l).Settled) : Tidy { F with lines := F.lines.modify client change } := by
  refine h.withLines (fun i l hl => ?_) fun l hl => ?_
  · rw [List.getElem?_modify, hl]
    refine ⟨_, rfl, ?_⟩
    split
    · next hclient => exact (hchange l (hclient ▸ hl)).1
    · rfl
  · obtain ⟨i, hi⟩ := List.getElem?_of_mem hl
    rw [List.getElem?_modify] at hi
    obtain ⟨l', hl', rfl⟩ := Option.map_eq_some_iff.1 hi
    split
    · next hclient => exact (hchange l' (hclient ▸ hl')).2
    · exact h.settled l' (List.mem_of_getElem? hl')

theorem sent (h : F.Tidy) (client : Nat) (m : Outgoing) : (F.sent client m).Tidy :=
  h.modifyLine client (·.receive m.frame) fun l hl =>
    ⟨rfl, h.settled l (List.mem_of_getElem? hl)⟩

theorem touch (h : F.Tidy) (id : Nat) {change : Buffer → Buffer}
    (hchange : ∀ b, (change b).path = b.path ∧ (change b).profile = b.profile) :
    (F.touch id change).Tidy :=
  { h with
    placed := fun language s uri d hs hd => by
      obtain ⟨huri, b, hb, hplace, hlanguage⟩ := h.placed language s uri d hs hd
      refine ⟨huri, _, (F.buffer_touch id change d.buffer).trans (congrArg _ hb), ?_⟩
      dsimp only
      split
      · exact ⟨(congrArg Uri.ofPath (hchange b).1).trans hplace,
          (congrArg Profile.identifier (hchange b).2).trans hlanguage⟩
      · exact ⟨hplace, hlanguage⟩ }

theorem concat (h : F.Tidy) (b : Buffer) : Tidy { F with buffers := F.buffers ++ [b] } :=
  { h with
    placed := fun language s uri d hs hd => by
      obtain ⟨huri, b, hb, hplace⟩ := h.placed language s uri d hs hd
      refine ⟨huri, b, ?_, hplace⟩
      exact (List.getElem?_append_left (List.getElem?_eq_some_iff.1 hb).1).trans hb }

theorem release (h : F.Tidy) (documents : List TrackedDocument) : (F.release documents).Tidy := by
  induction documents generalizing F with
  | nil => exact h
  | cons document rest ih => exact ih (h.touch document.buffer fun _ => ⟨rfl, rfl⟩)

/-- The sessions change, but none gets a client that it did not have. -/
theorem withSessions (h : F.Tidy) {sessions : Table Session}
    (hkeys : (sessions.map Prod.fst).Nodup)
    (hsessions : ∀ language s', sessions.find? language = some s' →
      s'.language = language ∧ (s'.documents.map Prod.fst).Nodup ∧
        (∃ s, F.sessions.find? language = some s ∧ s.client = s'.client) ∧
          ∀ uri d, s'.documents.find? uri = some d → Placed F.buffers language uri d) :
    Tidy { F with sessions } where
  keys := hkeys
  named := fun language s hs => (hsessions language s hs).1
  apart := by
    intro language language' s₁ s₂ hs₁ hs₂ hclient
    obtain ⟨-, -, ⟨s, hs, hsame⟩, -⟩ := hsessions language s₁ hs₁
    obtain ⟨-, -, ⟨s', hs', hsame'⟩, -⟩ := hsessions language' s₂ hs₂
    exact h.apart language language' s s' hs hs' (by rw [hsame, hsame', hclient])
  served := by
    intro language s₁ hs₁
    obtain ⟨-, -, ⟨s, hs, hsame⟩, -⟩ := hsessions language s₁ hs₁
    rw [← hsame]
    exact h.served language s hs
  uris := fun language s hs => (hsessions language s hs).2.1
  placed := fun language s uri d hs => (hsessions language s hs).2.2.2 uri d
  settled := h.settled

theorem alter (h : F.Tidy) (language : String) {change : Session → Session}
    (hchange : ∀ s, (change s).language = s.language ∧ (change s).client = s.client)
    (hdocuments : ∀ s, F.sessions.find? language = some s →
      ((change s).documents.map Prod.fst).Nodup ∧ ∀ uri d,
        (change s).documents.find? uri = some d → Placed F.buffers language uri d) :
    (F.alter language change).Tidy := by
  refine h.withSessions (Table.keys_alter h.keys language change) fun language' s' hs' => ?_
  rw [Table.find?_alter] at hs'
  split at hs'
  · next hlanguage =>
    subst hlanguage
    obtain ⟨s, hs, rfl⟩ := Option.map_eq_some_iff.1 hs'
    obtain ⟨huris, hplaced⟩ := hdocuments s hs
    exact ⟨(hchange s).1.trans (h.named _ s hs), huris, ⟨s, hs, (hchange s).2.symm⟩, hplaced⟩
  · exact ⟨h.named _ _ hs', h.uris _ _ hs', ⟨s', hs', rfl⟩, fun uri d => h.placed _ _ uri d hs'⟩

/-- A change of a session that leaves its documents alone. -/
theorem alter_of_documents (h : F.Tidy) (language : String) {change : Session → Session}
    (hchange : ∀ s, (change s).language = s.language ∧ (change s).client = s.client ∧
      (change s).documents = s.documents) : (F.alter language change).Tidy :=
  h.alter language (fun s => ⟨(hchange s).1, (hchange s).2.1⟩) fun s hs => by
    rw [(hchange s).2.2]
    exact ⟨h.uris language s hs, fun uri d => h.placed language s uri d hs⟩

theorem alterDocument (h : F.Tidy) (language uri : String)
    {change : TrackedDocument → TrackedDocument}
    (hchange : ∀ d, (change d).buffer = d.buffer ∧ (change d).uri = d.uri) :
    (F.alterDocument language uri change).Tidy := by
  refine h.alter language (fun s => ⟨rfl, rfl⟩) fun s hs =>
    ⟨Table.keys_alter (h.uris language s hs) uri change, fun uri' d hd => ?_⟩
  dsimp only at hd
  rw [Table.find?_alter] at hd
  split at hd
  · next huri =>
    subst huri
    obtain ⟨d', hd', rfl⟩ := Option.map_eq_some_iff.1 hd
    obtain ⟨hsame, hplaced⟩ := h.placed language s uri' d' hs hd'
    exact ⟨(hchange d').2.trans hsame, (hchange d').1 ▸ hplaced⟩
  · exact h.placed language s uri' d hs hd

theorem erase (h : F.Tidy) (language : String) :
    Tidy { F with sessions := F.sessions.erase language } := by
  refine h.withSessions (Table.keys_erase h.keys language) fun language' s hs => ?_
  by_cases hsame : language' = language
  · subst hsame
    rw [Table.find?_erase_self] at hs
    cases hs
  · rw [Table.find?_erase_of_ne _ hsame] at hs
    exact ⟨h.named _ s hs, h.uris _ s hs, ⟨s, hs, rfl⟩, fun uri d => h.placed _ s uri d hs⟩

theorem map (h : F.Tidy) (uri : String) :
    Tidy { F with
      sessions := F.sessions.map fun entry =>
        (entry.1, { entry.2 with documents := entry.2.documents.erase uri }) } := by
  let change : Session → Session := fun s => { s with documents := s.documents.erase uri }
  refine h.withSessions ?_ fun language s' hs' => ?_
  · rw [List.map_map]
    exact h.keys
  · have hmap := Table.find?_map F.sessions change language
    obtain ⟨s, hs, rfl⟩ := Option.map_eq_some_iff.1 (hmap.symm.trans hs')
    refine ⟨h.named _ s hs, Table.keys_erase (h.uris _ s hs) uri, ⟨s, hs, rfl⟩, fun uri' d hd => ?_⟩
    by_cases hsame : uri' = uri
    · subst hsame
      rw [Table.find?_erase_self] at hd
      cases hd
    · rw [Table.find?_erase_of_ne _ hsame] at hd
      exact h.placed _ s uri' d hs hd

/-- A session with a client that no session has, and with the documents of its language. -/
theorem join (h : F.Tidy) {sessions : Table Session} (hkeys : (sessions.map Prod.fst).Nodup)
    (hfind : ∀ other, sessions.find? other =
      if other = language then some s else F.sessions.find? other)
    (hlanguage : s.language = language) (huris : (s.documents.map Prod.fst).Nodup)
    (hplaced : ∀ uri d, s.documents.find? uri = some d → Placed F.buffers language uri d)
    (hline : ∃ l, F.lines[s.client]? = some l ∧ l.hasInput = true)
    (hnew : ∀ other s', F.sessions.find? other = some s' → s'.client ≠ s.client) :
    Tidy { F with sessions } := by
  have hcases : ∀ other s', sessions.find? other = some s' →
      other = language ∧ s' = s ∨ F.sessions.find? other = some s' := by
    intro other s' hs'
    rw [hfind] at hs'
    split at hs'
    · next hother => exact .inl ⟨hother, (Option.some.inj hs').symm⟩
    · exact .inr hs'
  refine ⟨hkeys, ?_, ?_, ?_, ?_, ?_, h.settled⟩
  · intro other s' hs'
    rcases hcases other s' hs' with ⟨rfl, rfl⟩ | hold
    · exact hlanguage
    · exact h.named other s' hold
  · intro other other' s₁ s₂ hs₁ hs₂ hclient
    rcases hcases other s₁ hs₁ with ⟨rfl, rfl⟩ | hold₁ <;>
      rcases hcases other' s₂ hs₂ with ⟨rfl, rfl⟩ | hold₂
    · rfl
    · exact absurd hclient.symm (hnew other' s₂ hold₂)
    · exact absurd hclient (hnew other s₁ hold₁)
    · exact h.apart other other' s₁ s₂ hold₁ hold₂ hclient
  · intro other s' hs'
    rcases hcases other s' hs' with ⟨rfl, rfl⟩ | hold
    · exact hline
    · exact h.served other s' hold
  · intro other s' hs'
    rcases hcases other s' hs' with ⟨rfl, rfl⟩ | hold
    · exact huris
    · exact h.uris other s' hold
  · intro other s' uri d hs' hd
    rcases hcases other s' hs' with ⟨rfl, rfl⟩ | hold
    · exact hplaced uri d hd
    · exact h.placed other s' uri d hold hd

/-- A document of a language is kept where it belongs. -/
theorem placed_documents (h : F.Tidy) {uri : String} {d : TrackedDocument}
    (hd : (F.documents language).find? uri = some d) : Placed F.buffers language uri d := by
  cases hs : F.sessions.find? language with
  | none =>
    rw [documents, hs] at hd
    cases hd
  | some s =>
    rw [documents_of_find? hs] at hd
    exact h.placed language s uri d hs hd

/-- Every stride leaves the face tidy. -/
theorem stride {h₀ : Hub} {deed : Deed} {agenda agenda' : List (String × String)} {F' : Face}
    (h : F.Tidy) (hstride : Stride h₀ deed agenda F agenda' F') : F'.Tidy := by
  cases hstride with
  | wane hwane =>
    refine h.withLines (fun i l hl => ?_) fun l' hl' => ?_
    · obtain ⟨l', hl', hwanes⟩ := hwane.some_right hl
      exact ⟨l', hl', hwanes.hasInput⟩
    · obtain ⟨i, hi⟩ := List.getElem?_of_mem hl'
      obtain ⟨l, hl, hwanes⟩ := hwane.some_left hi
      exact hwanes.settled (h.settled l (List.mem_of_getElem? hl))
  | neutral client hm => exact h.sent client _
  | begun hbegun huntold =>
    refine h.withLines (fun i l hl => ?_) fun l hl => ?_
    · exact ⟨l, by rw [List.getElem?_append_left (List.getElem?_eq_some_iff.1 hl).1, hl], rfl⟩
    · rcases List.mem_append.1 hl with hold | hnew
      · exact h.settled l hold
      · obtain rfl := List.mem_singleton.1 hnew
        exact ⟨hbegun.starts, fun hstate => absurd hbegun.state hstate⟩
  | announced hs hd hb hready =>
    refine alterDocument ?_ _ _ fun _ => ⟨rfl, rfl⟩
    refine sent ?_ _ _
    exact h.touch _ fun _ => ⟨rfl, rfl⟩
  | muted hs hd => exact h.touch _ fun _ => ⟨rfl, rfl⟩
  | skipped => exact h
  | drained hs hd hb hidle => exact h.touch _ fun _ => ⟨rfl, rfl⟩
  | changed hs hd hb hopened hready =>
    refine sent ?_ _ _
    refine alterDocument ?_ _ _ fun _ => ⟨rfl, rfl⟩
    exact h.touch _ fun _ => ⟨rfl, rfl⟩
  | lost hs hd hb hopened hdeed hbroken =>
    refine alterDocument ?_ _ _ fun _ => ⟨rfl, rfl⟩
    exact h.touch _ fun _ => ⟨rfl, rfl⟩
  | joined reset hreset hkeys hfind hlanguage huris hdocuments hline hnew =>
    obtain ⟨l, hl, hinput, -⟩ := hline
    refine h.join hkeys hfind hlanguage huris (fun uri d hd => ?_) ⟨l, hl, hinput⟩ hnew
    rw [hdocuments] at hd
    obtain ⟨d', hd', rfl⟩ := Option.map_eq_some_iff.1 hd
    obtain ⟨huri, hplaced⟩ := h.placed_documents hd'
    exact ⟨(hreset d').2.trans huri, (hreset d').1 ▸ hplaced⟩
  | @adopted _ id s b hdeed hs hb =>
    refine touch ?_ _ fun _ => ⟨rfl, rfl⟩
    refine h.alter _ (fun s => ⟨rfl, rfl⟩) fun s' hs' => ⟨?_, fun uri d hd => ?_⟩
    · exact Table.keys_put (h.uris _ s' hs') _ _
    · by_cases huri : uri = Hub.uriOf b
      · subst huri
        rw [Table.find?_put_self] at hd
        obtain rfl := Option.some.inj hd
        exact ⟨rfl, b, hb, rfl, rfl⟩
      · rw [Table.find?_put_of_ne _ _ huri] at hd
        exact h.placed _ s' uri d hs' hd
  | closed hdeed hb => exact (h.map _).touch _ fun _ => ⟨rfl, rfl⟩
  | retired language => exact (h.erase language).release _
  | dropped hdeed hraised => exact h.erase _
  | released hs hdead => exact h.release _
  | labelled language legend => exact h.alter_of_documents _ fun _ => ⟨rfl, rfl, rfl⟩
  | @initiated _ language _ _ hs hl hstate hstarts encoding =>
    have haltered : (F.alter language fun s => { s with encoding }).Tidy :=
      h.alter_of_documents language fun _ => ⟨rfl, rfl, rfl⟩
    refine haltered.modifyLine _ (fun l => { l with state := .ready }) fun l' hl' => ?_
    obtain rfl := Option.some.inj (hl.symm.trans hl')
    exact ⟨rfl, Nat.le_trans (Nat.le_of_eq hstarts) (Nat.zero_le 1), fun _ => hstarts⟩
  | colored language uri tokens id =>
    refine touch ?_ _ fun _ => ⟨rfl, rfl⟩
    exact h.alterDocument _ _ fun _ => ⟨rfl, rfl⟩

end Tidy

end Face

end TextEditor.Server
