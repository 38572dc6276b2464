import TextEditor.Proofs.Server.Batches
import TextEditor.Proofs.Server.Walking

/-!
# What a server heard of its documents

A ledger has the streams of messages that were written to the servers.  For every document that a
server was told of, the text of its last opening, the batches of changes that arrived and those that
were lost, and what the buffer still holds make up the text of the buffer.  Every stride leaves the
ledger right: only a sync while the pipe is broken adds a batch that is lost.
-/

namespace TextEditor.Server

/-! ## Streams and lines -/

/-- The streams are what the lines carried, and a server that is starting was told of no
document. -/
structure Carries (lines : List Line) (streams : List (List Outgoing)) : Prop where
  received : lines.map Line.received = streams.map (List.map Outgoing.frame)
  quiet : ∀ (i : Nat) (l : Line) (messages : List Outgoing), lines[i]? = some l →
    streams[i]? = some messages → l.state = .starting → ∀ m ∈ messages, Fleet.Neutral m

namespace Carries

variable {lines : List Line} {streams : List (List Outgoing)}

theorem length (h : Carries lines streams) : streams.length = lines.length := by
  have hlength := congrArg List.length h.received
  rw [List.length_map, List.length_map] at hlength
  exact hlength.symm

theorem messages_of_line (h : Carries lines streams) {i : Nat} {l : Line}
    (hl : lines[i]? = some l) :
    ∃ messages, streams[i]? = some messages ∧ l.received = messages.map Outgoing.frame := by
  have hlt : i < streams.length := h.length ▸ (List.getElem?_eq_some_iff.1 hl).1
  refine ⟨streams[i], List.getElem?_eq_getElem hlt, ?_⟩
  have hreceived := congrArg (·[i]?) h.received
  simpa [hl, List.getElem?_eq_getElem hlt] using hreceived

theorem wane (h : Carries lines streams) {lines' : List Line} (hwane : Wane lines lines') :
    Carries lines' streams where
  received := hwane.received.trans h.received
  quiet := fun i l' messages hl' hmessages hstate => by
    obtain ⟨l, hl, hwanes⟩ := hwane.some_left hl'
    refine h.quiet i l messages hl hmessages ?_
    rcases hwanes.state with hsame | ⟨hdead, -⟩
    · exact hsame.symm.trans hstate
    · rw [hstate] at hdead
      cases hdead

/-- A line changes, but for what was written to it; it does not begin to start. -/
theorem change (h : Carries lines streams) (client : Nat) {change : Line → Line}
    (hchange : ∀ l, (change l).received = l.received ∧
      ((change l).state = .starting → l.state = .starting)) :
    Carries (lines.modify client change) streams where
  received := by
    rw [← h.received]
    apply List.ext_getElem?
    intro i
    rw [List.getElem?_map, List.getElem?_map, List.getElem?_modify]
    cases lines[i]? with
    | none => rfl
    | some l => by_cases hi : client = i <;> simp [hi, hchange l]
  quiet := fun i l' messages hl' hmessages hstate => by
    rw [List.getElem?_modify] at hl'
    obtain ⟨l, hl, rfl⟩ := Option.map_eq_some_iff.1 hl'
    refine h.quiet i l messages hl hmessages ?_
    split at hstate
    · exact (hchange l).2 hstate
    · exact hstate

theorem begun (h : Carries lines streams) {l : Line} {messages : List Outgoing}
    (hneutral : ∀ m ∈ messages, Fleet.Neutral m)
    (hreceived : l.received = messages.map Outgoing.frame) :
    Carries (lines ++ [l]) (streams ++ [messages]) where
  received := by simp [h.received, hreceived]
  quiet := fun i l' messages' hl' hmessages' hstate => by
    by_cases hi : i < lines.length
    · rw [List.getElem?_append_left hi] at hl'
      rw [List.getElem?_append_left (h.length ▸ hi)] at hmessages'
      exact h.quiet i l' messages' hl' hmessages' hstate
    · have hge := Nat.le_of_not_lt hi
      rw [List.getElem?_append_right (h.length ▸ hge)] at hmessages'
      rw [List.mem_singleton.1 (List.mem_of_getElem? hmessages')]
      exact hneutral

/-- The messages of a stream to which one more was written, or to another. -/
theorem messages_concat {client i : Nat} {m : Outgoing} {messages' : List Outgoing}
    (h : (streams.modify client (· ++ [m]))[i]? = some messages') :
    ∃ messages, streams[i]? = some messages ∧
      messages' = messages ++ if client = i then [m] else [] := by
  rw [List.getElem?_modify] at h
  obtain ⟨messages, hmessages, rfl⟩ := Option.map_eq_some_iff.1 h
  refine ⟨messages, hmessages, ?_⟩
  split
  · rfl
  · exact (List.append_nil _).symm

/-- One message more, about a document only if the server is not starting. -/
theorem send (h : Carries lines streams) (client : Nat) {m : Outgoing}
    (hm : Fleet.Neutral m ∨ lines[client]?.map Line.state = some .ready) :
    Carries (lines.modify client (·.receive m.frame)) (streams.modify client (· ++ [m])) where
  received := by
    apply List.ext_getElem?
    intro i
    rw [List.getElem?_map, List.getElem?_map, List.getElem?_modify, List.getElem?_modify]
    cases hl : lines[i]? with
    | none =>
      have hle := List.getElem?_eq_none_iff.1 hl
      rw [List.getElem?_eq_none_iff.2 (h.length ▸ hle)]
      rfl
    | some l =>
      obtain ⟨messages, hmessages, hreceived⟩ := h.messages_of_line hl
      rw [hmessages]
      by_cases hi : client = i
      · simp [hi, Line.receive, hreceived]
      · simp [hi, hreceived]
  quiet := fun i l' messages' hl' hmessages' hstate m' hm' => by
    rw [List.getElem?_modify] at hl'
    obtain ⟨l, hl, rfl⟩ := Option.map_eq_some_iff.1 hl'
    obtain ⟨messages, hmessages, rfl⟩ := messages_concat hmessages'
    have hstarting : l.state = .starting := by
      split at hstate <;> exact hstate
    rcases List.mem_append.1 hm' with hold | hnew
    · exact h.quiet i l messages hl hmessages hstarting m' hold
    · split at hnew
      · next hi =>
        rw [List.mem_singleton.1 hnew]
        refine hm.resolve_right fun hready => ?_
        rw [hi, hl, Option.map_some, hstarting] at hready
        cases hready
      · cases hnew

end Carries

/-! ## What a server heard of a document -/

/-- No message opens the document. -/
def Unopened (messages : List Outgoing) (uri : String) : Prop :=
  ∀ m ∈ messages, m.opens uri = false

theorem Unopened.append {messages more : List Outgoing} {uri : String} (h : Unopened messages uri)
    (hmore : ∀ m ∈ more, m.opens uri = false) : Unopened (messages ++ more) uri :=
  fun m hm => (List.mem_append.1 hm).elim (h m) (hmore m)

/-- The document was not opened, or it was opened with a text that the batches of changes since,
lost ones included, and the changes that the buffer still holds make its present text.  Batches are
lost only if the pipe to the server was broken. -/
def Heard (broken : Nat → Prop) (buffer? : Option Buffer) (messages : List Outgoing)
    (language uri : String) (s : Session) (d : TrackedDocument) : Prop :=
  Unopened messages uri ∨ ∃ b text batches, buffer? = some b ∧ b.tracking = true ∧
    Partly messages uri language s.encoding text batches d.version ∧
      (∀ e, Delta.replay e text (Batch.deltasOf batches ++ b.changes) = b.text) ∧
        ∀ batch ∈ batches, batch.arrived = false → broken s.client

/-- The buffers hold the same text and the same changes, for a server or for none. -/
def Alike (b b' : Buffer) : Prop :=
  b'.tracking = b.tracking ∧ b'.changes = b.changes ∧ b'.document = b.document

theorem Alike.refl (b : Buffer) : Alike b b :=
  ⟨rfl, rfl, rfl⟩

variable {broken : Nat → Prop} {messages more : List Outgoing} {language uri : String}
variable {s s' : Session} {d d' : TrackedDocument} {buffer? buffer?' : Option Buffer}

/-- Messages about other documents change nothing, nor does anything that is done to other
buffers. -/
theorem Heard.keep (h : Heard broken buffer? messages language uri s d)
    (hbuffer : ∀ b, buffer? = some b → ∃ b', buffer?' = some b' ∧ Alike b b')
    (hmore : ∀ m ∈ more, m.version? uri = none)
    (hsession : s'.client = s.client ∧ s'.encoding = s.encoding)
    (hversion : d'.version = d.version) :
    Heard broken buffer?' (messages ++ more) language uri s' d' := by
  rcases h with hunopened | ⟨b, text, batches, hb, htracking, hpartly, hreplay, hlost⟩
  · exact .inl (hunopened.append fun m hm => Outgoing.opens_of_version?_eq_none (hmore m hm))
  · obtain ⟨b', hb', htracking', hchanges, hdocument⟩ := hbuffer b hb
    refine .inr ⟨b', text, batches, hb', htracking'.trans htracking, ?_, fun e => ?_, ?_⟩
    · rw [hsession.2, hversion]
      exact hpartly.append hmore
    · rw [hchanges, Buffer.text, hdocument]
      exact hreplay e
    · rw [hsession.1]
      exact hlost

/-- Nothing more is said. -/
theorem Heard.silent (h : Heard broken buffer? messages language uri s d)
    (hbuffer : ∀ b, buffer? = some b → ∃ b', buffer?' = some b' ∧ Alike b b')
    (hsession : s'.client = s.client ∧ s'.encoding = s.encoding)
    (hversion : d'.version = d.version) : Heard broken buffer?' messages language uri s' d' := by
  rw [← List.append_nil messages]
  exact h.keep hbuffer (by simp) hsession hversion

theorem Heard.mono {broken' : Nat → Prop} (h : Heard broken buffer? messages language uri s d)
    (hbroken : ∀ client, broken client → broken' client) :
    Heard broken' buffer? messages language uri s d := by
  rcases h with hunopened | ⟨b, text, batches, hb, htracking, hpartly, hreplay, hlost⟩
  · exact .inl hunopened
  · exact .inr ⟨b, text, batches, hb, htracking, hpartly, hreplay,
      fun batch hbatch harrived => hbroken _ (hlost batch hbatch harrived)⟩

/-- The streams of the lines, with what each server that is ready heard of its open documents.
Those on the agenda it did not hear of. -/
structure Ledger (broken : Nat → Prop) (agenda : List (String × String))
    (streams : List (List Outgoing)) (F : Face) : Prop where
  carries : Carries F.lines streams
  nodup : agenda.Nodup
  waiting : ∀ language uri s d messages, (language, uri) ∈ agenda →
    F.sessions.find? language = some s → s.documents.find? uri = some d → d.opened = true →
      streams[s.client]? = some messages → Unopened messages uri
  heard : ∀ language uri s d messages, F.Live language uri s d →
    streams[s.client]? = some messages →
      Heard broken F.buffers[d.buffer]? messages language uri s d

namespace Face

variable {F : Face}

/-- Whether a document is live is not seen in the buffers. -/
theorem Live.of_eq (h : F.Live language uri s d) {F' : Face} (hsessions : F'.sessions = F.sessions)
    (hlines : F'.lines = F.lines) : F'.Live language uri s d where
  session := hsessions ▸ h.session
  ready := hlines ▸ h.ready
  found := h.found
  opened := h.opened

/-- What happens to one buffer is not noticed at another. -/
theorem alike_of_ne {id i : Nat} (hi : i ≠ id) (change : Buffer → Buffer) (b : Buffer)
    (hb : F.buffers[i]? = some b) :
    ∃ b', (F.touch id change).buffers[i]? = some b' ∧ Alike b b' :=
  ⟨b, (F.buffer_touch id change i).trans (by simp [hi, hb]), .refl b⟩

/-- A change that keeps the text and the changes of a buffer is not noticed anywhere. -/
theorem alike_touch (id : Nat) {change : Buffer → Buffer} (hchange : ∀ b, Alike b (change b))
    (i : Nat) (b : Buffer) (hb : F.buffers[i]? = some b) :
    ∃ b', (F.touch id change).buffers[i]? = some b' ∧ Alike b b' := by
  refine ⟨_, (F.buffer_touch id change i).trans (congrArg _ hb), ?_⟩
  dsimp only
  split
  · exact hchange b
  · exact .refl b

theorem ready_of_sent {client i : Nat} {m : Outgoing}
    (h : (F.sent client m).lines[i]?.map Line.state = some .ready) :
    F.lines[i]?.map Line.state = some .ready := by
  obtain ⟨l', hl', hstate⟩ := Option.map_eq_some_iff.1 h
  rw [sent, List.getElem?_modify] at hl'
  obtain ⟨l, hl, rfl⟩ := Option.map_eq_some_iff.1 hl'
  rw [hl, Option.map_some, ← hstate]
  split <;> rfl

/-- Where a document comes from that is found after one was changed. -/
theorem find?_of_alterDocument {language₀ uri₀ : String}
    {change : TrackedDocument → TrackedDocument}
    (hs' : (F.alterDocument language₀ uri₀ change).sessions.find? language = some s')
    (hd' : s'.documents.find? uri = some d') :
    ∃ s d, F.sessions.find? language = some s ∧ s.documents.find? uri = some d ∧
      (s'.client = s.client ∧ s'.encoding = s.encoding) ∧
        d' = if language = language₀ ∧ uri = uri₀ then change d else d := by
  rw [alterDocument, find?_alter] at hs'
  split at hs'
  · next hlanguage =>
    subst hlanguage
    obtain ⟨s, hs, rfl⟩ := Option.map_eq_some_iff.1 hs'
    dsimp only at hd'
    rw [Table.find?_alter] at hd'
    split at hd'
    · next huri =>
      subst huri
      obtain ⟨d, hd, rfl⟩ := Option.map_eq_some_iff.1 hd'
      exact ⟨s, d, hs, hd, ⟨rfl, rfl⟩, (if_pos ⟨rfl, rfl⟩).symm⟩
    · next huri => exact ⟨s, d', hs, hd', ⟨rfl, rfl⟩, (if_neg fun hsame => huri hsame.2).symm⟩
  · next hlanguage =>
    exact ⟨s', d', hs', hd', ⟨rfl, rfl⟩, (if_neg fun hsame => hlanguage hsame.1).symm⟩

/-- What is open beside a new document is at another place, and was there before. -/
theorem opened_before_adopted {b : Buffer} {id : Nat} (hs : F.sessions.find? b.language = some s)
    (hs' : (F.alter b.language fun s =>
      { s with
        documents := s.documents.put (Hub.uriOf b)
          { buffer := id, uri := Hub.uriOf b } }).sessions.find? language = some s')
    (hd : s'.documents.find? uri = some d) (hopened : d.opened = true) :
    ¬(language = b.language ∧ uri = Hub.uriOf b) ∧
      ∃ s, F.sessions.find? language = some s ∧ s.documents.find? uri = some d ∧
        s'.client = s.client ∧ s'.encoding = s.encoding := by
  rw [find?_alter] at hs'
  by_cases hlanguage : language = b.language
  · subst hlanguage
    rw [if_pos rfl, hs, Option.map_some] at hs'
    obtain rfl := Option.some.inj hs'
    by_cases huri : uri = Hub.uriOf b
    · subst huri
      rw [Table.find?_put_self] at hd
      obtain rfl := Option.some.inj hd
      cases hopened
    · rw [Table.find?_put_of_ne _ _ huri] at hd
      exact ⟨fun hplace => huri hplace.2, s, hs, hd, rfl, rfl⟩
  · rw [if_neg hlanguage] at hs'
    exact ⟨fun hplace => hlanguage hplace.1, s', hs', hd, rfl, rfl⟩

end Face

namespace Ledger

variable {agenda agenda' : List (String × String)} {streams streams' : List (List Outgoing)}
variable {F F' : Face}

theorem mono {broken' : Nat → Prop} (h : Ledger broken agenda streams F)
    (hbroken : ∀ client, broken client → broken' client) : Ledger broken' agenda streams F :=
  { h with
    heard := fun language uri s d messages hlive hmessages =>
      (h.heard language uri s d messages hlive hmessages).mono hbroken }

/-- Lines change, but no server becomes ready and nothing is written that concerns a document. -/
theorem withLines (h : Ledger broken agenda streams F) {lines : List Line}
    (hcarries : Carries lines streams')
    (hready : ∀ language s, F.sessions.find? language = some s →
      lines[s.client]?.map Line.state = some .ready →
        F.lines[s.client]?.map Line.state = some .ready)
    (hstreams : ∀ language s messages', F.sessions.find? language = some s →
      streams'[s.client]? = some messages' → ∃ messages more, streams[s.client]? = some messages ∧
        messages' = messages ++ more ∧ ∀ m ∈ more, Fleet.Neutral m) :
    Ledger broken agenda streams' { F with lines } where
  carries := hcarries
  nodup := h.nodup
  waiting := fun language uri s d messages' hmem hs hd hopened hmessages' => by
    obtain ⟨messages, more, hmessages, rfl, hmore⟩ := hstreams language s messages' hs hmessages'
    have hunopened := h.waiting language uri s d messages hmem hs hd hopened hmessages
    exact hunopened.append fun m hm => Outgoing.opens_of_version?_eq_none (hmore m hm uri)
  heard := fun language uri s d messages' hlive hmessages' => by
    obtain ⟨messages, more, hmessages, rfl, hmore⟩ :=
      hstreams language s messages' hlive.session hmessages'
    have hready' := hready language s hlive.session hlive.ready
    have hheard := h.heard language uri s d messages
      ⟨hlive.session, hready', hlive.found, hlive.opened⟩ hmessages
    exact hheard.keep (fun b hb => ⟨b, hb, .refl b⟩) (fun m hm => hmore m hm uri) ⟨rfl, rfl⟩ rfl

theorem wane (h : Ledger broken agenda streams F) {lines : List Line}
    (hwane : Wane F.lines lines) : Ledger broken agenda streams { F with lines } := by
  refine h.withLines (h.carries.wane hwane) (fun language s hs hready => ?_)
    fun language s messages' _ hmessages' => ⟨messages', [], hmessages', by simp, by simp⟩
  obtain ⟨l', hl', hstate⟩ := Option.map_eq_some_iff.1 hready
  obtain ⟨l, hl, hwanes⟩ := hwane.some_left hl'
  rw [hl, Option.map_some, hwanes.ready hstate]

theorem neutral (h : Ledger broken agenda streams F) (client : Nat) {m : Outgoing}
    (hm : Fleet.Neutral m) :
    Ledger broken agenda (streams.modify client (· ++ [m])) (F.sent client m) := by
  refine h.withLines (h.carries.send client (.inl hm))
    (fun language s _ hready => Face.ready_of_sent hready)
    fun language s messages' _ hmessages' => ?_
  obtain ⟨messages, hmessages, rfl⟩ := Carries.messages_concat hmessages'
  refine ⟨messages, _, hmessages, rfl, fun m' hm' => ?_⟩
  split at hm'
  · exact List.mem_singleton.1 hm' ▸ hm
  · cases hm'

theorem begun (h : Ledger broken agenda streams F) (htidy : F.Tidy) {l : Line}
    {messages : List Outgoing} (hneutral : ∀ m ∈ messages, Fleet.Neutral m)
    (hreceived : l.received = messages.map Outgoing.frame) :
    Ledger broken agenda (streams ++ [messages]) { F with lines := F.lines ++ [l] } := by
  have hold : ∀ language s, F.sessions.find? language = some s → s.client < F.lines.length := by
    intro language s hs
    obtain ⟨l, hl, -⟩ := htidy.served language s hs
    exact (List.getElem?_eq_some_iff.1 hl).1
  refine h.withLines (h.carries.begun hneutral hreceived) (fun language s hs hready => ?_)
    fun language s messages' hs hmessages' => ?_
  · rwa [List.getElem?_append_left (hold language s hs)] at hready
  · rw [List.getElem?_append_left (h.carries.length ▸ hold language s hs)] at hmessages'
    exact ⟨messages', [], hmessages', by simp, by simp⟩

/-- Sessions and buffers change, and each document that is open was there before, with the same text
and changes, or is not opened in the stream. -/
theorem resettle (h : Ledger broken agenda streams F) (hlines : F'.lines = F.lines)
    (hnodup : agenda'.Nodup)
    (hwaiting : ∀ language uri s d messages, (language, uri) ∈ agenda' →
      F'.sessions.find? language = some s → s.documents.find? uri = some d → d.opened = true →
        streams[s.client]? = some messages → Unopened messages uri)
    (hlive : ∀ language uri s' d' messages, F'.Live language uri s' d' →
      streams[s'.client]? = some messages → Unopened messages uri ∨
        ∃ s d, F.Live language uri s d ∧ (s'.client = s.client ∧ s'.encoding = s.encoding) ∧
          d'.version = d.version ∧ ∀ b, F.buffers[d.buffer]? = some b →
            ∃ b', F'.buffers[d'.buffer]? = some b' ∧ Alike b b') :
    Ledger broken agenda' streams F' where
  carries := hlines ▸ h.carries
  nodup := hnodup
  waiting := hwaiting
  heard := fun language uri s' d' messages hlive' hmessages => by
    rcases hlive language uri s' d' messages hlive' hmessages with
      hunopened | ⟨s, d, hbefore, hsession, hversion, hbuffer⟩
    · exact .inl hunopened
    · have hheard := h.heard language uri s d messages hbefore (hsession.1 ▸ hmessages)
      exact hheard.silent hbuffer hsession hversion

/-- Nothing waits, and every document that is open was there before. -/
theorem stay (h : Ledger broken [] streams F) (hlines : F'.lines = F.lines)
    (hlive : ∀ language uri s' d', F'.Live language uri s' d' →
      ∃ s d, F.Live language uri s d ∧ (s'.client = s.client ∧ s'.encoding = s.encoding) ∧
        d'.version = d.version ∧ ∀ b, F.buffers[d.buffer]? = some b →
          ∃ b', F'.buffers[d'.buffer]? = some b' ∧ Alike b b') :
    Ledger broken [] streams F' :=
  h.resettle hlines List.nodup_nil (by simp) fun language uri s' d' _ hlive' _ =>
    .inr (hlive language uri s' d' hlive')

/-- Nothing waits, and sessions change under their documents. -/
theorem withSessions (h : Ledger broken [] streams F) {sessions : Table Session}
    (hlive : ∀ language uri s' d, ({ F with sessions } : Face).Live language uri s' d →
      ∃ s, F.Live language uri s d ∧ s'.client = s.client ∧ s'.encoding = s.encoding) :
    Ledger broken [] streams { F with sessions } :=
  h.stay rfl fun language uri s' d hlive' => by
    obtain ⟨s, hbefore, hsession⟩ := hlive language uri s' d hlive'
    exact ⟨s, d, hbefore, hsession, rfl, fun b hb => ⟨b, hb, .refl b⟩⟩

/-- Nothing waits, and the buffers change, but not their texts and what they hold. -/
theorem withBuffers (h : Ledger broken [] streams F) {buffers : List Buffer}
    (halike : ∀ (i : Nat) (b : Buffer), F.buffers[i]? = some b →
      ∃ b', buffers[i]? = some b' ∧ Alike b b') :
    Ledger broken [] streams { F with buffers } :=
  h.stay rfl fun _ _ s d hlive =>
    ⟨s, d, hlive.of_eq rfl rfl, ⟨rfl, rfl⟩, rfl, halike d.buffer⟩

/-! ## Announcing -/

/-- A server that is ready gets a message about one document, of which it heard what there is to
hear then. -/
theorem tell {agenda₀ : List (String × String)} (h : Ledger broken agenda₀ streams F)
    (htidy : F.Tidy) (hs : F.sessions.find? language = some s)
    (hd : s.documents.find? uri = some d)
    (hready : F.lines[s.client]?.map Line.state = some .ready) {m : Outgoing}
    (hm : ∀ uri', uri' ≠ uri → m.version? uri' = none) (hnodup : agenda.Nodup)
    (hagenda : ∀ place ∈ agenda, place ∈ agenda₀ ∧ place ≠ (language, uri))
    (change : Buffer → Buffer) (note : TrackedDocument → TrackedDocument)
    (hhere : ∀ messages, streams[s.client]? = some messages → (note d).opened = true →
      Heard broken (F.touch d.buffer change).buffers[(note d).buffer]? (messages ++ [m]) language
        uri s (note d)) :
    Ledger broken agenda (streams.modify s.client (· ++ [m]))
      (((F.touch d.buffer change).sent s.client m).alterDocument language uri note) := by
  -- A document at another place does not hear of this one.
  have hother : ∀ {language' uri' : String} {s' : Session},
      F.sessions.find? language' = some s' → ¬(language' = language ∧ uri' = uri) →
        ∀ m' ∈ (if s.client = s'.client then [m] else []), m'.version? uri' = none := by
    intro language' uri' s' hs' hplace m' hm'
    split at hm'
    · next hclient =>
      rw [List.mem_singleton.1 hm']
      have hlanguage := htidy.apart language language' s s' hs hs' hclient
      exact hm uri' fun huri => hplace ⟨hlanguage.symm, huri⟩
    · cases hm'
  refine ⟨h.carries.send s.client (.inr hready), hnodup, ?_, ?_⟩
  · intro language' uri' s' d' messages' hmem hs' hd' hopened hmessages'
    obtain ⟨hwaits, hne⟩ := hagenda _ hmem
    have hplace : ¬(language' = language ∧ uri' = uri) := fun ⟨hlanguage, huri⟩ =>
      hne (by rw [hlanguage, huri])
    obtain ⟨s₁, d₁, hs₁, hd₁, ⟨hclient, -⟩, hsame⟩ :=
      Face.find?_of_alterDocument (F := (F.touch d.buffer change).sent s.client m) hs' hd'
    rw [if_neg hplace] at hsame
    subst hsame
    obtain ⟨messages, hmessages, rfl⟩ := Carries.messages_concat hmessages'
    rw [hclient] at hmessages ⊢
    have hunopened := h.waiting language' uri' s₁ d' messages hwaits hs₁ hd₁ hopened hmessages
    exact hunopened.append fun m' hm' =>
      Outgoing.opens_of_version?_eq_none (hother hs₁ hplace m' hm')
  · intro language' uri' s' d' messages' hlive hmessages'
    obtain ⟨s₁, d₁, hs₁, hd₁, hsession, hsame⟩ := Face.find?_of_alterDocument
      (F := (F.touch d.buffer change).sent s.client m) hlive.session hlive.found
    obtain ⟨messages, hmessages, rfl⟩ := Carries.messages_concat hmessages'
    rw [hsession.1] at hmessages ⊢
    by_cases hplace : language' = language ∧ uri' = uri
    · obtain ⟨rfl, rfl⟩ := hplace
      rw [if_pos ⟨rfl, rfl⟩] at hsame
      subst hsame
      obtain rfl : s = s₁ := Option.some.inj (hs.symm.trans hs₁)
      obtain rfl : d = d₁ := Option.some.inj (hd.symm.trans hd₁)
      have hheard := hhere messages hmessages hlive.opened
      rw [if_pos rfl]
      exact hheard.silent (fun b hb => ⟨b, hb, .refl b⟩) hsession rfl
    · rw [if_neg hplace] at hsame
      subst hsame
      have hready' := hlive.ready
      rw [hsession.1] at hready'
      have hheard := h.heard language' uri' s₁ d' messages
        ⟨hs₁, Face.ready_of_sent (F := F) hready', hd₁, hlive.opened⟩ hmessages
      have hne := htidy.buffer_ne hs₁ hd₁ hs hd hplace
      exact hheard.keep (Face.alike_of_ne hne change) (hother hs₁ hplace) hsession rfl

/-- The server is told of a document with its present text. -/
theorem announced (h : Ledger broken ((language, uri) :: agenda) streams F) (htidy : F.Tidy)
    {b : Buffer} (hs : F.sessions.find? language = some s) (hd : s.documents.find? uri = some d)
    (hb : F.buffers[d.buffer]? = some b)
    (hready : F.lines[s.client]?.map Line.state = some .ready) :
    Ledger broken agenda
      (streams.modify s.client (· ++ [.didOpen uri b.language b.text d.version]))
      (((F.touch d.buffer Buffer.track).sent s.client
        (.didOpen uri b.language b.text d.version)).alterDocument language uri fun d =>
          { d with opened := true }) := by
  obtain ⟨hnew, hnodup⟩ := List.nodup_cons.1 h.nodup
  refine h.tell htidy hs hd hready
    (fun uri' huri => by rw [Outgoing.version?, if_neg (Ne.symm huri)]) hnodup
    (fun place hplace => ⟨List.mem_cons_of_mem _ hplace, fun heq => hnew (heq ▸ hplace)⟩) _ _
    fun messages _ _ => ?_
  obtain ⟨-, b', hb', -, hlanguage⟩ := htidy.placed language s uri d hs hd
  obtain rfl : b = b' := Option.some.inj (hb.symm.trans hb')
  refine .inr ⟨b.track, b.text, [], ?_, rfl, ?_, fun e => rfl, by simp⟩
  · exact (F.buffer_touch d.buffer Buffer.track d.buffer).trans (by simp [hb])
  · rw [hlanguage]
    exact Partly.didOpen ..

/-- The server cannot be told of the document, and never was. -/
theorem muted (h : Ledger broken ((language, uri) :: agenda) streams F) (htidy : F.Tidy)
    (hs : F.sessions.find? language = some s) (hd : s.documents.find? uri = some d) :
    Ledger broken agenda streams (F.touch d.buffer Buffer.track) := by
  refine h.resettle rfl (List.nodup_cons.1 h.nodup).2 (fun language' uri' s' d' messages hmem =>
    h.waiting language' uri' s' d' messages (List.mem_cons_of_mem _ hmem)) ?_
  intro language' uri' s' d' messages hlive hmessages
  by_cases hplace : language' = language ∧ uri' = uri
  · obtain ⟨rfl, rfl⟩ := hplace
    exact .inl (h.waiting language' uri' s' d' messages List.mem_cons_self hlive.session hlive.found
      hlive.opened hmessages)
  · have hne := htidy.buffer_ne hlive.session hlive.found hs hd hplace
    exact .inr ⟨s', d', hlive.of_eq rfl rfl, ⟨rfl, rfl⟩, rfl, Face.alike_of_ne hne _⟩

/-! ## Changes -/

/-- The changes that the buffer of a document holds become a batch, which arrives or is lost. -/
theorem heard_batch (h : Ledger broken [] streams F) (hlive : F.Live language uri s d)
    {b : Buffer} (hb : F.buffers[d.buffer]? = some b)
    (hmessages : streams[s.client]? = some messages) (arrived : Bool)
    (hlost : arrived = false → broken s.client) :
    Heard broken (F.touch d.buffer fun b => b.drainChanges.2).buffers[d.buffer]?
      (messages ++ if arrived then
        [.didChange uri (d.version + 1) (b.changes.map (Message.rangeChange · s.encoding))] else [])
      language uri s { d with version := d.version + 1 } := by
  have hdrained : (F.touch d.buffer fun b => b.drainChanges.2).buffers[d.buffer]? =
      some b.drainChanges.2 := (F.buffer_touch _ _ _).trans (by simp [hb])
  rcases h.heard language uri s d messages hlive hmessages with
    hunopened | ⟨b', text, batches, hb', htracking, hpartly, hreplay, hbefore⟩
  · refine .inl (hunopened.append fun m hm => ?_)
    cases arrived with
    | false => cases hm
    | true =>
      rw [List.mem_singleton.1 hm]
      rfl
  · obtain rfl : b = b' := Option.some.inj (hb.symm.trans hb')
    refine .inr ⟨b.drainChanges.2, text, batches ++ [⟨b.changes, arrived⟩], hdrained, htracking, ?_,
      fun e => ?_, fun batch hbatch harrived => ?_⟩
    · cases arrived with
      | false => exact (List.append_nil messages).symm ▸ hpartly.lose b.changes
      | true => exact hpartly.arrive b.changes
    · have hdeltas : Batch.deltasOf (batches ++ [⟨b.changes, arrived⟩]) =
          Batch.deltasOf batches ++ b.changes := by
        simp [Batch.deltasOf]
      rw [hdeltas]
      exact (congrArg _ (List.append_nil _)).trans (hreplay e)
    · rcases List.mem_append.1 hbatch with hold | hnew
      · exact hbefore batch hold harrived
      · obtain rfl := List.mem_singleton.1 hnew
        exact hlost harrived

/-- The server is told of the changes of a document. -/
theorem changed (h : Ledger broken [] streams F) (htidy : F.Tidy) {b : Buffer}
    (hs : F.sessions.find? language = some s) (hd : s.documents.find? uri = some d)
    (hb : F.buffers[d.buffer]? = some b) (hopened : d.opened = true)
    (hready : F.lines[s.client]?.map Line.state = some .ready) :
    Ledger broken []
      (streams.modify s.client (· ++ [.didChange uri (d.version + 1)
        (b.changes.map (Message.rangeChange · s.encoding))]))
      (((F.touch d.buffer fun b => b.drainChanges.2).alterDocument language uri fun d' =>
        { d' with version := d.version + 1 }).sent s.client
          (.didChange uri (d.version + 1) (b.changes.map (Message.rangeChange · s.encoding)))) :=
  h.tell htidy hs hd hready (fun uri' huri => by rw [Outgoing.version?, if_neg (Ne.symm huri)])
    List.nodup_nil (by simp) (fun b => b.drainChanges.2)
    (fun d' => { d' with version := d.version + 1 })
    fun messages hmessages _ =>
      h.heard_batch ⟨hs, hready, hd, hopened⟩ hb hmessages true (by simp)

/-- The changes of a document are lost. -/
theorem lost (h : Ledger broken [] streams F) (htidy : F.Tidy) {b : Buffer}
    (hs : F.sessions.find? language = some s) (hd : s.documents.find? uri = some d)
    (hb : F.buffers[d.buffer]? = some b) (hopened : d.opened = true) (hbroken : broken s.client) :
    Ledger broken [] streams
      ((F.touch d.buffer fun b => b.drainChanges.2).alterDocument language uri fun d' =>
        { d' with version := d.version + 1 }) := by
  refine ⟨h.carries, List.nodup_nil, by simp, ?_⟩
  intro language' uri' s' d' messages hlive hmessages
  obtain ⟨s₁, d₁, hs₁, hd₁, hsession, hsame⟩ := Face.find?_of_alterDocument
    (F := F.touch d.buffer fun b => b.drainChanges.2) hlive.session hlive.found
  have hready := hlive.ready
  rw [hsession.1] at hmessages hready
  by_cases hplace : language' = language ∧ uri' = uri
  · obtain ⟨rfl, rfl⟩ := hplace
    rw [if_pos ⟨rfl, rfl⟩] at hsame
    subst hsame
    obtain rfl : s = s₁ := Option.some.inj (hs.symm.trans hs₁)
    obtain rfl : d = d₁ := Option.some.inj (hd.symm.trans hd₁)
    have hheard := h.heard_batch ⟨hs, hready, hd, hopened⟩ hb hmessages false fun _ => hbroken
    rw [if_neg Bool.false_ne_true, List.append_nil] at hheard
    exact hheard.silent (fun b hb => ⟨b, hb, .refl b⟩) hsession rfl
  · rw [if_neg hplace] at hsame
    subst hsame
    have hheard := h.heard language' uri' s₁ d' messages ⟨hs₁, hready, hd₁, hlive.opened⟩ hmessages
    have hne := htidy.buffer_ne hs₁ hd₁ hs hd hplace
    exact hheard.silent (Face.alike_of_ne hne _) hsession rfl

/-! ## Strides -/

/-- A buffer that has nothing to tell, or no one to be told, is drained. -/
theorem drained (h : Ledger broken [] streams F) (htidy : F.Tidy) {b : Buffer}
    (hs : F.sessions.find? language = some s) (hd : s.documents.find? uri = some d)
    (hb : F.buffers[d.buffer]? = some b) (hidle : b.changes = [] ∨ d.opened = false) :
    Ledger broken [] streams (F.touch d.buffer fun b => b.drainChanges.2) := by
  refine h.stay rfl fun language' uri' s' d' hlive =>
    ⟨s', d', hlive.of_eq rfl rfl, ⟨rfl, rfl⟩, rfl, ?_⟩
  intro b' hb'
  by_cases hbuffer : d'.buffer = d.buffer
  · obtain ⟨rfl, rfl⟩ := htidy.place_unique hlive.session hlive.found hs hd hbuffer
    obtain rfl : s' = s := Option.some.inj (hlive.session.symm.trans hs)
    obtain rfl : d' = d := Option.some.inj (hlive.found.symm.trans hd)
    obtain rfl : b = b' := Option.some.inj (hb.symm.trans hb')
    have hempty := hidle.resolve_right (by rw [hlive.opened]; simp)
    exact ⟨b.drainChanges.2, (F.buffer_touch _ _ _).trans (by simp [hb]), rfl, hempty.symm, rfl⟩
  · exact Face.alike_of_ne hbuffer _ b' hb'

/-- No document of a server that just started is live. -/
theorem joined (h : Ledger broken [] streams F) {sessions : Table Session}
    (hfind : ∀ other, sessions.find? other =
      if other = language then some s else F.sessions.find? other)
    (hline : ∃ l, F.lines[s.client]? = some l ∧ l.hasInput = true ∧ l.state ≠ .ready) :
    Ledger broken [] streams { F with sessions } := by
  refine h.withSessions fun language' uri s' d hlive => ?_
  have hsession := (hfind language').symm.trans hlive.session
  split at hsession
  · obtain rfl := Option.some.inj hsession
    obtain ⟨l, hl, -, hstate⟩ := hline
    have hready := hlive.ready
    rw [hl, Option.map_some] at hready
    exact absurd (Option.some.inj hready) hstate
  · exact ⟨s', ⟨hsession, hlive.ready, hlive.found, hlive.opened⟩, rfl, rfl⟩

theorem labelled (h : Ledger broken [] streams F) (language : String) (legend : List String) :
    Ledger broken [] streams (F.alter language fun s => { s with legend }) := by
  refine h.withSessions fun language' uri s' d hlive => ?_
  have hsession := (F.find?_alter language _ language').symm.trans hlive.session
  split at hsession
  · next hlanguage =>
    subst hlanguage
    obtain ⟨s, hs, rfl⟩ := Option.map_eq_some_iff.1 hsession
    exact ⟨s, ⟨hs, hlive.ready, hlive.found, hlive.opened⟩, rfl, rfl⟩
  · exact ⟨s', ⟨hsession, hlive.ready, hlive.found, hlive.opened⟩, rfl, rfl⟩

/-- The documents of a language are released, and none of them is live. -/
theorem released (h : Ledger broken [] streams F) (htidy : F.Tidy) {sessions : Table Session}
    (hsessions : ∀ language' uri s d,
      ({ F with sessions } : Face).Live language' uri s d → F.Live language' uri s d ∧
        language' ≠ language) :
    Ledger broken [] streams
      (({ F with sessions } : Face).release (F.documents language).values) := by
  refine h.stay (Face.lines_release _ _) fun language' uri s d hlive => ?_
  have hlive' : ({ F with sessions } : Face).Live language' uri s d :=
    ⟨by rw [← hlive.session, Face.sessions_release], by
      rw [← hlive.ready, Face.lines_release], hlive.found, hlive.opened⟩
  obtain ⟨hbefore, hne⟩ := hsessions language' uri s d hlive'
  refine ⟨s, d, hbefore, ⟨rfl, rfl⟩, rfl, fun b hb => ⟨b, ?_, .refl b⟩⟩
  -- The buffer of the document belongs to its own language.
  have hnot : d.buffer ∉ (F.documents language).values.map TrackedDocument.buffer := by
    intro hmem
    obtain ⟨d', hd', hbuffer⟩ := List.mem_map.1 hmem
    obtain ⟨⟨uri', d''⟩, hentry, rfl⟩ := List.mem_map.1 hd'
    cases hs : F.sessions.find? language with
    | none =>
      rw [Face.documents, hs] at hentry
      cases hentry
    | some s' =>
      rw [Face.documents_of_find? hs] at hentry
      have hfound := Table.find?_of_mem (htidy.uris language s' hs) hentry
      exact hne (htidy.place_unique hbefore.session hbefore.found hs hfound hbuffer.symm).1
  rw [Face.buffer_release]
  simp [hnot, hb]

/-- The documents of a server that is ready now wait to be announced. -/
theorem initiated (h : Ledger broken [] streams F) (htidy : F.Tidy)
    (hs : F.sessions.find? language = some s) {l : Line} (hl : F.lines[s.client]? = some l)
    (hstate : l.state = .starting) (encoding : Encoding) :
    Ledger broken (s.documents.map fun entry => (language, entry.1)) streams
      { F.alter language fun s => { s with encoding } with
        lines := F.lines.modify s.client fun l => { l with state := .ready } } := by
  have hquiet : ∀ (messages : List Outgoing) (uri : String), streams[s.client]? = some messages →
      Unopened messages uri := fun messages uri hmessages m hm =>
    Outgoing.opens_of_version?_eq_none
      (h.carries.quiet s.client l messages hl hmessages hstate m hm uri)
  have hfind : (F.alter language fun s => { s with encoding }).sessions.find? language =
      some { s with encoding } := by
    rw [Face.find?_alter, if_pos rfl, hs, Option.map_some]
  refine ⟨h.carries.change s.client fun l => ⟨rfl, fun hstarting => by cases hstarting⟩, ?_, ?_, ?_⟩
  · have hkeys := htidy.uris language s hs
    have hpairs : (s.documents.map fun entry => (language, entry.1)) =
        (s.documents.map Prod.fst).map (language, ·) := by
      rw [List.map_map]
      rfl
    rw [hpairs]
    exact List.Pairwise.map _ (fun a b hab heq => hab (Prod.mk.inj heq).2) hkeys
  · intro language' uri s' d messages hmem hs' hd hopened hmessages
    obtain ⟨entry, -, hplace⟩ := List.mem_map.1 hmem
    obtain ⟨rfl, rfl⟩ := Prod.mk.inj hplace
    obtain rfl := Option.some.inj (hfind.symm.trans hs')
    exact hquiet messages _ hmessages
  · intro language' uri s' d messages hlive hmessages
    by_cases hlanguage : language' = language
    · subst hlanguage
      obtain rfl := Option.some.inj (hfind.symm.trans hlive.session)
      exact .inl (hquiet messages uri hmessages)
    · have hs' : F.sessions.find? language' = some s' :=
        (if_neg hlanguage).symm.trans
          ((F.find?_alter language _ language').symm.trans hlive.session)
      have hclient : s.client ≠ s'.client := fun hclient =>
        hlanguage (htidy.apart language language' s s' hs hs' hclient).symm
      have hline : (F.lines.modify s.client fun l => { l with state := .ready })[s'.client]? =
          F.lines[s'.client]? := List.getElem?_modify_ne _ _ hclient
      have hready := (congrArg (Option.map Line.state) hline).symm.trans hlive.ready
      exact h.heard language' uri s' d messages ⟨hs', hready, hlive.found, hlive.opened⟩ hmessages

/-- A new document is not open, whatever the server heard of the one before it. -/
theorem adopted (h : Ledger broken [] streams F) (htidy : F.Tidy) {id : Nat} {b : Buffer}
    (hs : F.sessions.find? b.language = some s) (hb : F.buffers[id]? = some b) :
    Ledger broken [(b.language, Hub.uriOf b)] streams
      ((F.alter b.language fun s =>
        { s with
          documents := s.documents.put (Hub.uriOf b) { buffer := id, uri := Hub.uriOf b } }).touch
        id Buffer.track) := by
  refine h.resettle rfl (by simp) ?_ ?_
  · intro language uri s' d messages hmem hs' hd hopened _
    obtain ⟨rfl, rfl⟩ := Prod.mk.inj (List.mem_singleton.1 hmem)
    exact absurd ⟨rfl, rfl⟩ (Face.opened_before_adopted hs hs' hd hopened).1
  · intro language uri s' d messages hlive _
    obtain ⟨hplace, s₁, hs₁, hd₁, hsession⟩ :=
      Face.opened_before_adopted hs hlive.session hlive.found hlive.opened
    have hready := hlive.ready
    rw [hsession.1] at hready
    have hne : d.buffer ≠ id := by
      rintro rfl
      obtain ⟨-, b', hb', huri, hlanguage⟩ := htidy.placed language s₁ uri d hs₁ hd₁
      obtain rfl : b = b' := Option.some.inj (hb.symm.trans hb')
      exact hplace ⟨hlanguage.symm, huri.symm⟩
    exact .inr ⟨s₁, d, ⟨hs₁, hready, hd₁, hlive.opened⟩, hsession, rfl,
      Face.alike_of_ne hne Buffer.track⟩

/-- The documents for the uri of a buffer are closed. -/
theorem closed (h : Ledger broken [] streams F) (htidy : F.Tidy) {id : Nat} {b : Buffer}
    (hb : F.buffers[id]? = some b) :
    Ledger broken [] streams
      (({ F with
        sessions := F.sessions.map fun entry =>
          (entry.1, { entry.2 with documents := entry.2.documents.erase (Hub.uriOf b) }) } :
        Face).touch id Buffer.untrack) := by
  let change : Session → Session :=
    fun s => { s with documents := s.documents.erase (Hub.uriOf b) }
  refine h.stay rfl fun language uri s' d hlive => ?_
  have hmap := Table.find?_map F.sessions change language
  obtain ⟨s, hs, rfl⟩ := Option.map_eq_some_iff.1 (hmap.symm.trans hlive.session)
  obtain ⟨huri, hfound⟩ := Table.of_find?_erase hlive.found
  have hne : d.buffer ≠ id := by
    rintro rfl
    obtain ⟨-, b', hb', huri', -⟩ := htidy.placed language s uri d hs hfound
    obtain rfl : b = b' := Option.some.inj (hb.symm.trans hb')
    exact huri huri'.symm
  exact ⟨s, d, ⟨hs, hlive.ready, hfound, hlive.opened⟩, ⟨rfl, rfl⟩, rfl,
    Face.alike_of_ne hne Buffer.untrack⟩

theorem colored (h : Ledger broken [] streams F) (language uri : String)
    (tokens : List SemanticToken) (id : Nat) :
    Ledger broken [] streams
      ((F.alterDocument language uri fun d => { d with tokens, tokensVersion := d.version }).touch
        id fun b => { b with dirty := true }) := by
  refine h.stay rfl fun language' uri' s' d' hlive => ?_
  obtain ⟨s, d, hs, hd, hsession, hsame⟩ :=
    Face.find?_of_alterDocument hlive.session hlive.found
  have hkept : d'.version = d.version ∧ d'.opened = d.opened ∧ d'.buffer = d.buffer := by
    rw [hsame]
    split <;> exact ⟨rfl, rfl, rfl⟩
  have hready := hlive.ready
  rw [hsession.1] at hready
  refine ⟨s, d, ⟨hs, hready, hd, hkept.2.1.symm.trans hlive.opened⟩, hsession, hkept.1,
    fun b hb => ?_⟩
  rw [hkept.2.2]
  refine Face.alike_touch id (fun b => ?_) d.buffer b hb
  exact ⟨rfl, rfl, rfl⟩

variable {h₀ : Hub} {deed : Deed}

/-- Every stride leaves the ledger right. -/
theorem stride (h : Ledger broken agenda streams F) (htidy : F.Tidy)
    (hstride : Stride h₀ deed agenda F agenda' F')
    (hbroken : ∀ (client : Nat) (l : Line), deed = .syncChanges →
      h₀.face.lines[client]? = some l → l.fault ≠ none → broken client) :
    ∃ streams', Ledger broken agenda' streams' F' := by
  cases hstride with
  | wane hwane => exact ⟨_, h.wane hwane⟩
  | neutral client hm => exact ⟨_, h.neutral client hm⟩
  | begun hbegun huntold =>
    obtain ⟨messages, hneutral, hreceived⟩ := huntold
    exact ⟨_, h.begun htidy hneutral hreceived⟩
  | announced hs hd hb hready => exact ⟨_, h.announced htidy hs hd hb hready⟩
  | muted hs hd => exact ⟨_, h.muted htidy hs hd⟩
  | skipped =>
    exact ⟨streams, { h with
      nodup := (List.nodup_cons.1 h.nodup).2
      waiting := fun language uri s d messages hmem =>
        h.waiting language uri s d messages (List.mem_cons_of_mem _ hmem) }⟩
  | drained hs hd hb hidle => exact ⟨_, h.drained htidy hs hd hb hidle⟩
  | changed hs hd hb hopened hready => exact ⟨_, h.changed htidy hs hd hb hopened hready⟩
  | lost hs hd hb hopened hdeed hbroken' =>
    obtain ⟨l, hl, hfault⟩ := hbroken'
    exact ⟨_, h.lost htidy hs hd hb hopened (hbroken _ l hdeed hl hfault)⟩
  | joined reset hreset hkeys hfind hlanguage huris hdocuments hline hnew =>
    exact ⟨streams, h.joined hfind hline⟩
  | @adopted _ id s b hdeed hs hb => exact ⟨streams, h.adopted htidy hs hb⟩
  | @closed _ id b hdeed hb => exact ⟨streams, h.closed htidy hb⟩
  | retired language =>
    refine ⟨streams, h.released htidy fun language' uri s d hlive => ?_⟩
    obtain ⟨hne, hsession⟩ := Table.of_find?_erase hlive.session
    exact ⟨⟨hsession, hlive.ready, hlive.found, hlive.opened⟩, hne⟩
  | @dropped _ language hdeed hraised =>
    refine ⟨streams, h.withSessions fun language' uri s d hlive => ?_⟩
    obtain ⟨-, hsession⟩ := Table.of_find?_erase hlive.session
    exact ⟨s, ⟨hsession, hlive.ready, hlive.found, hlive.opened⟩, rfl, rfl⟩
  | @released _ language s hs hdead =>
    have hreleased : Ledger broken [] streams (F.release (F.documents language).values) :=
      h.released htidy fun language' uri s' d hlive => by
        refine ⟨hlive, fun hsame => hdead ?_⟩
        subst hsame
        obtain rfl : s = s' := Option.some.inj (hs.symm.trans hlive.session)
        exact hlive.ready
    rw [Face.documents_of_find? hs] at hreleased
    exact ⟨streams, hreleased⟩
  | labelled language legend => exact ⟨streams, h.labelled language legend⟩
  | @initiated _ language s l hs hl hstate hstarts encoding =>
    exact ⟨streams, h.initiated htidy hs hl hstate encoding⟩
  | colored language uri tokens id => exact ⟨streams, h.colored language uri tokens id⟩

end Ledger

variable {h₀ : Hub} {deed : Deed} {agenda : List (String × String)} {F : Face}

/-- A walk leaves the ledger right if it loses batches only where they may be lost. -/
theorem Walk.ledger {streams : List (List Outgoing)} (hwalk : Walk h₀ deed agenda F)
    (htidy : h₀.face.Tidy) (h : Ledger broken [] streams h₀.face)
    (hbroken : ∀ (client : Nat) (l : Line), deed = .syncChanges →
      h₀.face.lines[client]? = some l → l.fault ≠ none → broken client) :
    ∃ streams', Ledger broken agenda streams' F := by
  induction hwalk with
  | start => exact ⟨streams, h⟩
  | step hwalk hstride ih =>
    obtain ⟨streams', hledger⟩ := ih
    exact hledger.stride (hwalk.tidy htidy) hstride hbroken

end TextEditor.Server
