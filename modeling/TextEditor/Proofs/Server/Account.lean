import TextEditor.Proofs.Buffer.Splice
import TextEditor.Proofs.Server.Writing
import TextEditor.Proofs.Table
import TextEditor.Server.Hub

/-!
# The account of what servers know

A server that is ready knows each open document: the text that its last opening gave, and the
splices that its changes told of since.  Together with the deltas that the buffer still holds
these are all splices of the buffer from that text on.  The account ties sessions, buffers and
lines together in this way.  While a document is being told of, it is out of account; then it is
taken in again.
-/

namespace TextEditor.Server

/-- The parts of the hub that the account is about. -/
structure Face where
  sessions : Table Session
  buffers : List Buffer
  lines : List Line

def Hub.face (h : Hub) : Face :=
  ⟨h.sessions, h.buffers, h.fleet.lines⟩

/-- The face after a message arrived. -/
def Face.sent (F : Face) (client : Nat) (m : Outgoing) : Face :=
  { F with lines := F.lines.modify client (·.receive m.frame) }

/-- The session is ready, and its server was told to open the document. -/
structure Face.Live (F : Face) (language uri : String) (s : Session) (document : TrackedDocument) :
    Prop where
  session : F.sessions.find? language = some s
  ready : F.lines[s.client]?.map Line.state = some .ready
  found : s.documents.find? uri = some document
  opened : document.opened = true

/-- The document is kept where its buffer belongs. -/
def Placed (buffers : List Buffer) (language uri : String) (document : TrackedDocument) : Prop :=
  document.uri = uri ∧
    ∃ b, buffers[document.buffer]? = some b ∧ Hub.uriOf b = uri ∧ b.language = language

/-- What is known of the past: once a client had been sent some messages, before the next one, a
buffer had a text, and it was changed by certain splices since. -/
abbrev Past :=
  Nat → List Outgoing → Nat → Text → List Delta → Prop

/-- A client was sent nothing but these messages, or not even all of them. -/
def Unpassed (streams : List (List Outgoing)) (client : Nat) (earlier : List Outgoing) : Prop :=
  streams.getD client [] <+: earlier

/-- A client was sent these messages, and then another. -/
def Passed (streams : List (List Outgoing)) (client : Nat) (earlier : List Outgoing) : Prop :=
  ∃ m, earlier ++ [m] <+: streams.getD client []

theorem Unpassed.of_append {streams more : List (List Outgoing)} {client : Nat}
    {earlier : List Outgoing} (h : Unpassed (streams ++ more) client earlier) :
    Unpassed streams client earlier := by
  unfold Unpassed at h ⊢
  rw [List.getD_eq_getElem?_getD] at h ⊢
  rcases Nat.lt_or_ge client streams.length with hlt | hge
  · rwa [List.getElem?_append_left hlt] at h
  · rw [List.getElem?_eq_none hge]
    exact List.nil_prefix

theorem Unpassed.of_modify {streams : List (List Outgoing)} {client : Nat}
    {earlier : List Outgoing} {i : Nat} {note : List Outgoing → List Outgoing}
    (hgrows : ∀ messages, messages <+: note messages)
    (h : Unpassed (streams.modify i note) client earlier) : Unpassed streams client earlier := by
  unfold Unpassed at h ⊢
  rw [List.getD_eq_getElem?_getD] at h ⊢
  rw [List.getElem?_modify] at h
  cases hmessages : streams[client]? with
  | none => exact List.nil_prefix
  | some messages =>
    rw [hmessages] at h
    change (if i = client then note messages else messages) <+: earlier at h
    split at h
    · exact (hgrows messages).trans h
    · exact h

/-- The stream tells of a document all but the deltas that its buffer holds, and with these it gives
the text of the buffer.  The text of the opening is the one that the buffer had when the opening
was sent. -/
def Told (since : Past) (buffers : List Buffer) (client : Nat) (messages : List Outgoing)
    (language uri : String) (encoding : Encoding) (document : TrackedDocument) : Prop :=
  ∃ b earlier text sent, buffers[document.buffer]? = some b ∧ b.tracking = true ∧
    Tells messages uri language encoding earlier text sent document.version ∧
      since client earlier document.buffer text (sent ++ b.changes) ∧
        ∀ e, Delta.replay e text (sent ++ b.changes) = b.text

/-- Sessions stand under their languages, and no server waits for the answers to two starts. -/
structure Face.Regular (F : Face) : Prop where
  keys : (F.sessions.map Prod.fst).Nodup
  named : ∀ language s, F.sessions.find? language = some s → s.language = language
  settled : ∀ l ∈ F.lines, l.Settled

theorem Face.Regular.find?_of_mem_values {F : Face} {s : Session} (h : F.Regular)
    (hs : s ∈ F.sessions.values) : F.sessions.find? s.language = some s := by
  obtain ⟨⟨language, s'⟩, hmem, rfl⟩ := List.mem_map.1 hs
  have hfind : F.sessions.find? language = some s' := Table.find?_of_mem h.keys hmem
  rw [h.named language s' hfind]
  exact hfind

/-- Every server that is ready knows its open documents, those out of account aside.  What is known
of the past of buffers is what `since` says. -/
structure Account (since : Past) (out : String → String → Prop) (streams : List (List Outgoing))
    (F : Face) : Prop where
  carried : F.lines.map Line.received = streams.map (List.map Outgoing.frame)
  orderly : ∀ messages ∈ streams, Orderly messages
  settled : ∀ l ∈ F.lines, l.Settled
  keys : (F.sessions.map Prod.fst).Nodup
  named : ∀ language s, F.sessions.find? language = some s → s.language = language
  apart : ∀ language language' s s', F.sessions.find? language = some s →
    F.sessions.find? language' = some s' → s.client = s'.client → language = language'
  served : ∀ language s, F.sessions.find? language = some s →
    ∃ l, F.lines[s.client]? = some l ∧ l.hasInput = true ∧ l.fault = none
  placed : ∀ language s uri document, F.sessions.find? language = some s →
    (uri, document) ∈ s.documents → Placed F.buffers language uri document
  told : ∀ language uri s document, F.Live language uri s document → ¬out language uri →
    ∃ messages, streams[s.client]? = some messages ∧
      Told since F.buffers s.client messages language uri s.encoding document
  indexed : ∀ b ∈ F.buffers, b.document.Indexed
  now : ∀ id b, F.buffers[id]? = some b → ∀ client earlier, Unpassed streams client earlier →
    since client earlier id b.text []

/-- What a buffer may go through while its document is in account: the deltas that it holds grow by
those of its splices, if it is followed. -/
structure Grows (since since' : Past) (streams : List (List Outgoing)) (id : Nat)
    (b b' : Buffer) : Prop where
  tracking : b'.tracking = b.tracking
  changes : b.tracking = true → ∃ deltas, b'.changes = b.changes ++ deltas ∧
    (∀ client earlier text before, Passed streams client earlier →
      since client earlier id text before → since' client earlier id text (before ++ deltas)) ∧
        ∀ e, Delta.replay e b.text deltas = b'.text

theorem grows_of_same {since : Past} {streams : List (List Outgoing)} {id : Nat} {b b' : Buffer}
    (htracking : b'.tracking = b.tracking) (hchanges : b'.changes = b.changes)
    (hdocument : b'.document = b.document) : Grows since since streams id b b' where
  tracking := htracking
  changes _ := by
    refine ⟨[], by rw [hchanges, List.append_nil], fun client earlier text before _ h => ?_,
      fun e => ?_⟩
    · rwa [List.append_nil]
    · rw [Buffer.text, Buffer.text, hdocument]
      rfl

theorem passed_of_tells {streams : List (List Outgoing)} {client : Nat}
    {messages earlier : List Outgoing} {uri language : String} {encoding : Encoding} {text : Text}
    {sent : List Delta} {version : Int} (hmessages : streams[client]? = some messages)
    (htells : Tells messages uri language encoding earlier text sent version) :
    Passed streams client earlier := by
  obtain ⟨first, later, rfl, -⟩ := htells.opening
  refine ⟨.didOpen uri language text first, later, ?_⟩
  rw [List.getD_eq_getElem?_getD, hmessages, List.append_assoc]
  rfl

/-- A document stays told of when its buffer grows, or another one changes. -/
theorem Told.modify {since since' : Past} {streams : List (List Outgoing)} {buffers : List Buffer}
    {client id : Nat} {messages : List Outgoing} {language uri : String} {encoding : Encoding}
    {document : TrackedDocument} {change : Buffer → Buffer}
    (h : Told since buffers client messages language uri encoding document)
    (hmessages : streams[client]? = some messages)
    (hother : id ≠ document.buffer → ∀ earlier text deltas, Passed streams client earlier →
      since client earlier document.buffer text deltas →
        since' client earlier document.buffer text deltas)
    (hgrows : id = document.buffer → ∀ b, buffers[id]? = some b →
      Grows since since' streams id b (change b)) :
    Told since' (buffers.modify id change) client messages language uri encoding document := by
  obtain ⟨b, earlier, text, sent, hb, htracking, htells, hsince, hreplay⟩ := h
  have hpassed : Passed streams client earlier := passed_of_tells hmessages htells
  by_cases hid : id = document.buffer
  · subst hid
    obtain ⟨htracking', hchanges⟩ := hgrows rfl b hb
    obtain ⟨deltas, hdeltas, hgoes, hreplay'⟩ := hchanges htracking
    refine ⟨change b, earlier, text, sent, ?_, htracking'.trans htracking, htells, ?_, fun e => ?_⟩
    · simp [hb]
    · rw [hdeltas, ← List.append_assoc]
      exact hgoes _ _ _ _ hpassed hsince
    · rw [hdeltas, ← List.append_assoc, Delta.replay_append, hreplay, hreplay']
  · refine ⟨b, earlier, text, sent, ?_, htracking, htells, hother hid _ _ _ hpassed hsince,
      hreplay⟩
    simp [hb, hid]

namespace Account

variable {since since' : Past} {out out' : String → String → Prop}
variable {streams : List (List Outgoing)} {F : Face}

theorem regular (h : Account since out streams F) : F.Regular :=
  ⟨h.keys, h.named, h.settled⟩

/-! ## Out of account and in again -/

theorem suspend (h : Account since out streams F) (out' : String → String → Prop)
    (hout : ∀ language uri, out language uri → out' language uri) :
    Account since out' streams F :=
  { h with
    told := fun language uri s document hlive hnot =>
      h.told language uri s document hlive fun hout' => hnot (hout language uri hout') }

/-- A document is taken in again when its server was told of it. -/
theorem resume (h : Account since out' streams F)
    (htold : ∀ language uri s document, F.Live language uri s document → out' language uri →
      ¬out language uri → ∃ messages, streams[s.client]? = some messages ∧
        Told since F.buffers s.client messages language uri s.encoding document) :
    Account since out streams F :=
  { h with
    told := fun language uri s document hlive hnot => by
      by_cases hout : out' language uri
      · exact htold language uri s document hlive hout hnot
      · exact h.told language uri s document hlive hout }

/-- More is known of the past when time goes by. -/
theorem mono (h : Account since out streams F)
    (hpassed : ∀ client earlier id text deltas, Passed streams client earlier →
      since client earlier id text deltas → since' client earlier id text deltas)
    (hnow : ∀ id b, F.buffers[id]? = some b → ∀ client earlier, Unpassed streams client earlier →
      since' client earlier id b.text []) :
    Account since' out streams F :=
  { h with
    told := fun language uri s document hlive hnot => by
      obtain ⟨messages, hmessages, b, earlier, text, sent, hb, htracking, htells, hdeltas,
        hreplay⟩ := h.told language uri s document hlive hnot
      exact ⟨messages, hmessages, b, earlier, text, sent, hb, htracking, htells,
        hpassed _ _ _ _ _ (passed_of_tells hmessages htells) hdeltas, hreplay⟩
    now := hnow }

/-! ## Lines -/

theorem settled_of_getElem? (h : Account since out streams F) {i : Nat} {l : Line}
    (hl : F.lines[i]? = some l) : l.Settled :=
  h.settled l (List.mem_of_getElem? hl)

theorem length_streams (h : Account since out streams F) : streams.length = F.lines.length := by
  have hlength := congrArg List.length h.carried
  rw [List.length_map, List.length_map] at hlength
  exact hlength.symm

/-- The messages that a line carried. -/
theorem messages_of_line (h : Account since out streams F) {i : Nat} {l : Line}
    (hl : F.lines[i]? = some l) :
    ∃ messages, streams[i]? = some messages ∧ l.received = messages.map Outgoing.frame := by
  have hlt : i < streams.length := h.length_streams ▸ (List.getElem?_eq_some_iff.1 hl).1
  refine ⟨streams[i], List.getElem?_eq_getElem hlt, ?_⟩
  have hcarried := congrArg (·[i]?) h.carried
  simpa [hl, List.getElem?_eq_getElem hlt] using hcarried

theorem wane (h : Account since out streams F) {lines : List Line} (hwane : Wane F.lines lines) :
    Account since out streams { F with lines } :=
  { h with
    carried := hwane.received.trans h.carried
    settled := fun l' hl' => by
      obtain ⟨i, hi⟩ := List.getElem?_of_mem hl'
      obtain ⟨l, hl, hwanes⟩ := hwane.some_left hi
      exact hwanes.settled (h.settled_of_getElem? hl)
    served := fun language s hs => by
      obtain ⟨l, hl, hinput, hfault⟩ := h.served language s hs
      obtain ⟨l', hl', hwanes⟩ := hwane.some_right hl
      exact ⟨l', hl', hwanes.hasInput.trans hinput, hwanes.fault.trans hfault⟩
    told := fun language uri s document hlive hnot => by
      refine h.told language uri s document ⟨hlive.session, ?_, hlive.found, hlive.opened⟩ hnot
      obtain ⟨l', hl', hready⟩ := Option.map_eq_some_iff.1 hlive.ready
      obtain ⟨l, hl, hwanes⟩ := hwane.some_left hl'
      rw [hl, Option.map_some, hwanes.ready hready] }

/-- A process was started; no session has it yet. -/
theorem begun (h : Account since out streams F) {l : Line} (hbegun : l.Begun) :
    ∃ messages, Account since out (streams ++ [messages]) { F with lines := F.lines ++ [l] } := by
  obtain ⟨messages, horderly, hreceived⟩ := hbegun.received
  have hleft : ∀ language s, F.sessions.find? language = some s →
      s.client < F.lines.length ∧ (F.lines ++ [l])[s.client]? = F.lines[s.client]? := by
    intro language s hs
    obtain ⟨l', hl', -⟩ := h.served language s hs
    have hlt := (List.getElem?_eq_some_iff.1 hl').1
    exact ⟨hlt, List.getElem?_append_left hlt⟩
  refine ⟨messages,
    { h with
      carried := ?_, orderly := ?_, settled := ?_, served := ?_, told := ?_
      now := fun id b hb client earlier hunpassed =>
        h.now id b hb client earlier hunpassed.of_append }⟩
  · simp [h.carried, hreceived]
  · intro messages' hmessages'
    rcases List.mem_append.1 hmessages' with hold | hnew
    · exact h.orderly _ hold
    · obtain rfl := List.mem_singleton.1 hnew
      exact horderly
  · intro l' hl'
    rcases List.mem_append.1 hl' with hold | hnew
    · exact h.settled _ hold
    · obtain rfl := List.mem_singleton.1 hnew
      exact ⟨hbegun.starts, fun hstate => absurd hbegun.state hstate⟩
  · intro language s hs
    rw [(hleft language s hs).2]
    exact h.served language s hs
  · intro language uri s document hlive hnot
    obtain ⟨hlt, hsame⟩ := hleft language s hlive.session
    have hready := hlive.ready
    rw [hsame] at hready
    obtain ⟨messages', hmessages', htold⟩ :=
      h.told language uri s document ⟨hlive.session, hready, hlive.found, hlive.opened⟩ hnot
    refine ⟨messages', ?_, htold⟩
    rw [List.getElem?_append_left (h.length_streams ▸ hlt), hmessages']

theorem begunAll (h : Account since out streams F) {begun : List Line}
    (hbegun : ∀ l ∈ begun, l.Begun) :
    ∃ more, Account since out (streams ++ more) { F with lines := F.lines ++ begun } := by
  induction begun generalizing streams F with
  | nil => exact ⟨[], by rw [List.append_nil, List.append_nil]; exact h⟩
  | cons l rest ih =>
    obtain ⟨messages, hfirst⟩ := h.begun (hbegun l List.mem_cons_self)
    obtain ⟨more, hrest⟩ := ih hfirst fun l' hl' => hbegun l' (List.mem_cons_of_mem _ hl')
    refine ⟨messages :: more, ?_⟩
    rw [List.append_assoc, List.append_assoc] at hrest
    exact hrest

/-- One line changes, and what it carried with it. -/
theorem modifyLine (h : Account since out streams F) (client : Nat) (change : Line → Line)
    (note : List Outgoing → List Outgoing)
    (hchange : ∀ l, F.lines[client]? = some l → l.Settled →
      (change l).Settled ∧ (change l).hasInput = l.hasInput ∧ (change l).fault = l.fault)
    (hnote : ∀ l messages, l.received = messages.map Outgoing.frame →
      (change l).received = (note messages).map Outgoing.frame)
    (horderly : ∀ messages, streams[client]? = some messages → Orderly messages →
      Orderly (note messages))
    (hgrows : ∀ messages, messages <+: note messages)
    (htold : ∀ language uri s document,
      ({ F with lines := F.lines.modify client change } : Face).Live language uri s document →
        ¬out language uri → F.Live language uri s document ∧ (client = s.client →
          ∀ messages earlier text sent version,
            Tells messages uri language s.encoding earlier text sent version →
              Tells (note messages) uri language s.encoding earlier text sent version)) :
    Account since out (streams.modify client note)
      { F with lines := F.lines.modify client change } := by
  refine { h with
    carried := ?_, orderly := ?_, settled := ?_, served := ?_, told := ?_
    now := fun id b hb client earlier hunpassed =>
      h.now id b hb client earlier (hunpassed.of_modify hgrows) }
  · apply List.ext_getElem?
    intro i
    rw [List.getElem?_map, List.getElem?_map, List.getElem?_modify, List.getElem?_modify]
    cases hl : F.lines[i]? with
    | none =>
      have hle := List.getElem?_eq_none_iff.1 hl
      rw [List.getElem?_eq_none_iff.2 (h.length_streams ▸ hle)]
      rfl
    | some l =>
      obtain ⟨messages, hmessages, hreceived⟩ := h.messages_of_line hl
      rw [hmessages]
      by_cases hi : client = i
      · simp [hi, hnote l messages hreceived]
      · simp [hi, hreceived]
  · intro messages' hmessages'
    obtain ⟨i, hi⟩ := List.getElem?_of_mem hmessages'
    rw [List.getElem?_modify] at hi
    obtain ⟨messages, hmessages, rfl⟩ := Option.map_eq_some_iff.1 hi
    have hbefore := h.orderly messages (List.mem_of_getElem? hmessages)
    split
    · next hclient => exact horderly messages (hclient ▸ hmessages) hbefore
    · exact hbefore
  · intro l' hl'
    obtain ⟨i, hi⟩ := List.getElem?_of_mem hl'
    rw [List.getElem?_modify] at hi
    obtain ⟨l, hl, rfl⟩ := Option.map_eq_some_iff.1 hi
    have hbefore := h.settled_of_getElem? hl
    split
    · next hclient => exact (hchange l (hclient ▸ hl) hbefore).1
    · exact hbefore
  · intro language s hs
    obtain ⟨l, hl, hinput, hfault⟩ := h.served language s hs
    have hbefore := h.settled_of_getElem? hl
    rw [List.getElem?_modify, hl]
    refine ⟨_, rfl, ?_⟩
    split
    · next hclient =>
      obtain ⟨-, hinput', hfault'⟩ := hchange l (hclient ▸ hl) hbefore
      exact ⟨hinput'.trans hinput, hfault'.trans hfault⟩
    · exact ⟨hinput, hfault⟩
  · intro language uri s document hlive hnot
    obtain ⟨hbefore, hgoes⟩ := htold language uri s document hlive hnot
    obtain ⟨messages, hmessages, b, earlier, text, sent, hb, htracking, htells, hsince⟩ :=
      h.told language uri s document hbefore hnot
    rw [List.getElem?_modify, hmessages]
    refine ⟨_, rfl, b, earlier, text, sent, hb, htracking, ?_, hsince⟩
    split
    · next hclient => exact hgoes hclient messages earlier text sent _ htells
    · exact htells

/-- One message more to the server of a session, about a document that is out of account or about
none. -/
theorem send (h : Account since out streams F) {language : String} {s : Session}
    (hs : F.sessions.find? language = some s) {m : Outgoing}
    (hout : ∀ uri, ¬out language uri → m.version? uri = none)
    (horder : ∀ messages, streams[s.client]? = some messages →
      ∀ uri version changes, m = .didChange uri version changes →
        Continues messages uri version) :
    Account since out (streams.modify s.client (· ++ [m])) (F.sent s.client m) := by
  refine h.modifyLine s.client (·.receive m.frame) (· ++ [m])
    (fun l _ hsettled => ⟨hsettled, rfl, rfl⟩) (fun l messages hreceived => ?_)
    (fun messages hmessages horderly => horderly.append (horder messages hmessages))
    (fun messages => List.prefix_append messages [m])
    fun language' uri s' document hlive hnot => ⟨?_, fun hclient messages _ _ _ _ htells => ?_⟩
  · rw [Line.receive, hreceived, List.map_append]
    rfl
  · refine ⟨hlive.session, ?_, hlive.found, hlive.opened⟩
    obtain ⟨l', hl', hready⟩ := Option.map_eq_some_iff.1 hlive.ready
    rw [List.getElem?_modify] at hl'
    obtain ⟨l, hl, rfl⟩ := Option.map_eq_some_iff.1 hl'
    rw [hl, Option.map_some, ← hready]
    split <;> rfl
  · obtain rfl := h.apart language language' s s' hs hlive.session hclient
    exact htells.append (hout uri hnot)

/-- A server is ready, while its documents are out of account. -/
theorem ready (h : Account since out streams F) (language : String) (s : Session) {l : Line}
    (hs : F.sessions.find? language = some s) (hl : F.lines[s.client]? = some l)
    (hstarts : l.starts = 0)
    (hout : ∀ uri document, s.documents.find? uri = some document → out language uri) :
    Account since out streams
      { F with lines := F.lines.modify s.client fun l => { l with state := .ready } } := by
  have hready := h.modifyLine s.client (fun l => { l with state := .ready }) id
    (fun l' hl' _ => by
      obtain rfl : l = l' := Option.some.inj (hl.symm.trans hl')
      exact ⟨⟨hstarts ▸ Nat.zero_le 1, fun _ => hstarts⟩, rfl, rfl⟩)
    (fun _ _ hreceived => hreceived) (fun _ _ horderly => horderly) List.prefix_refl
    (fun language' uri s' document hlive hnot => by
      by_cases hclient : s.client = s'.client
      · obtain rfl := h.apart language language' s s' hs hlive.session hclient
        obtain rfl : s = s' := Option.some.inj (hs.symm.trans hlive.session)
        exact absurd (hout uri document hlive.found) hnot
      · refine ⟨⟨hlive.session, ?_, hlive.found, hlive.opened⟩, fun heq => absurd heq hclient⟩
        obtain ⟨l', hl', hready⟩ := Option.map_eq_some_iff.1 hlive.ready
        rw [List.getElem?_modify] at hl'
        obtain ⟨l₀, hl₀, rfl⟩ := Option.map_eq_some_iff.1 hl'
        rw [if_neg hclient] at hready
        rw [hl₀, Option.map_some, hready])
  rw [List.modify_id] at hready
  exact hready

/-- The line to a process whose pipe is whole. -/
def mend (l : Line) : Line :=
  { l with fault := none }

theorem mended (h : Account since out streams F) :
    Account since out streams { F with lines := F.lines.map mend } := by
  refine { h with carried := ?_, settled := ?_, served := ?_, told := ?_ }
  · rw [List.map_map, ← h.carried]
    rfl
  · intro l' hl'
    obtain ⟨l, hl, rfl⟩ := List.mem_map.1 hl'
    exact h.settled l hl
  · intro language s hs
    obtain ⟨l, hl, hinput, -⟩ := h.served language s hs
    exact ⟨mend l, by rw [List.getElem?_map, hl, Option.map_some], hinput, rfl⟩
  · intro language uri s document hlive hnot
    refine h.told language uri s document ⟨hlive.session, ?_, hlive.found, hlive.opened⟩ hnot
    have hready := hlive.ready
    rw [List.getElem?_map, Option.map_map] at hready
    exact hready

/-! ## Buffers -/

/-- One buffer changes; its document is out of account, or it grows. -/
theorem modifyBuffer (h : Account since out streams F) (id : Nat) (change : Buffer → Buffer)
    (hothers : ∀ client earlier i text deltas, Passed streams client earlier → i ≠ id →
      since client earlier i text deltas → since' client earlier i text deltas)
    (hnow : ∀ (i : Nat) b', (F.buffers.modify id change)[i]? = some b' → ∀ client earlier,
      Unpassed streams client earlier → since' client earlier i b'.text [])
    (hchange : ∀ b, F.buffers[id]? = some b →
      (change b).path = b.path ∧ (change b).profile = b.profile ∧ (change b).document.Indexed ∧
        (out b.language (Hub.uriOf b) ∨ Grows since since' streams id b (change b))) :
    Account since' out streams { F with buffers := F.buffers.modify id change } := by
  have hbuffer : ∀ (i : Nat) b, F.buffers[i]? = some b → ∃ b',
      (F.buffers.modify id change)[i]? = some b' ∧ Hub.uriOf b' = Hub.uriOf b ∧
        b'.language = b.language ∧ b'.document.Indexed := by
    intro i b hb
    rw [List.getElem?_modify, hb]
    by_cases hi : id = i
    · subst hi
      obtain ⟨hpath, hprofile, hindexed, -⟩ := hchange b hb
      exact ⟨change b, by simp, congrArg Uri.ofPath hpath, congrArg Profile.identifier hprofile,
        hindexed⟩
    · exact ⟨b, by simp [hi], rfl, rfl, h.indexed b (List.mem_of_getElem? hb)⟩
  refine { h with placed := ?_, told := ?_, indexed := ?_, now := hnow }
  · intro language s uri document hs hmem
    obtain ⟨huri, b, hb, hplace, hlanguage⟩ := h.placed language s uri document hs hmem
    obtain ⟨b', hb', huri', hlanguage', -⟩ := hbuffer _ b hb
    exact ⟨huri, b', hb', huri'.trans hplace, hlanguage'.trans hlanguage⟩
  · intro language uri s document hlive hnot
    have hbefore : F.Live language uri s document :=
      ⟨hlive.session, hlive.ready, hlive.found, hlive.opened⟩
    obtain ⟨messages, hmessages, htold⟩ := h.told language uri s document hbefore hnot
    refine ⟨messages, hmessages, htold.modify hmessages
      (fun hne earlier text deltas hpassed => hothers _ _ _ _ _ hpassed (Ne.symm hne))
      fun hid b hb => ?_⟩
    obtain ⟨-, b₀, hb₀, hplace, hlanguage⟩ :=
      h.placed language s uri document hlive.session (Table.mem_of_find? hlive.found)
    rw [← hid] at hb₀
    obtain rfl : b = b₀ := Option.some.inj (hb.symm.trans hb₀)
    obtain ⟨-, -, -, hout | hgrows⟩ := hchange b hb
    · rw [hplace, hlanguage] at hout
      exact absurd hout hnot
    · exact hgrows
  · intro b' hb'
    obtain ⟨i, hi⟩ := List.getElem?_of_mem hb'
    rw [List.getElem?_modify] at hi
    obtain ⟨b, hb, -⟩ := Option.map_eq_some_iff.1 hi
    obtain ⟨b'', hb'', -, -, hindexed⟩ := hbuffer i b hb
    rw [List.getElem?_modify, hi] at hb''
    obtain rfl := Option.some.inj hb''
    exact hindexed

/-- One buffer changes, but its text does not; its document is out of account, or what the buffer
holds stays. -/
theorem rest (h : Account since out streams F) (id : Nat) (change : Buffer → Buffer)
    (hchange : ∀ b, F.buffers[id]? = some b → (change b).path = b.path ∧
      (change b).profile = b.profile ∧ (change b).document = b.document ∧
        (out b.language (Hub.uriOf b) ∨
          (change b).tracking = b.tracking ∧ (change b).changes = b.changes)) :
    Account since out streams { F with buffers := F.buffers.modify id change } := by
  refine h.modifyBuffer id change (fun _ _ _ _ _ _ _ h => h) (fun i b' hb' => ?_) fun b hb => ?_
  · rw [List.getElem?_modify] at hb'
    obtain ⟨b, hb, rfl⟩ := Option.map_eq_some_iff.1 hb'
    split
    · next hid =>
      rw [Buffer.text, (hchange b (hid ▸ hb)).2.2.1]
      exact h.now i b hb
    · exact h.now i b hb
  · obtain ⟨hpath, hprofile, hdocument, hholds⟩ := hchange b hb
    exact ⟨hpath, hprofile, hdocument ▸ h.indexed b (List.mem_of_getElem? hb),
      hholds.imp_right fun hsame => grows_of_same hsame.1 hsame.2 hdocument⟩

/-- While its document is out of account a buffer may be followed anew, drained or released. -/
theorem touch (h : Account since out streams F) (id : Nat) (change : Buffer → Buffer)
    (hsame : ∀ b, (change b).path = b.path ∧ (change b).profile = b.profile ∧
      (change b).document = b.document)
    (hout : ∀ b, F.buffers[id]? = some b → out b.language (Hub.uriOf b)) :
    Account since out streams { F with buffers := F.buffers.modify id change } := by
  refine h.rest id change fun b hb => ?_
  obtain ⟨hpath, hprofile, hdocument⟩ := hsame b
  exact ⟨hpath, hprofile, hdocument, .inl (hout b hb)⟩

theorem addBuffer (h : Account since out streams F) {b : Buffer} (hindexed : b.document.Indexed)
    (hnow : ∀ client earlier, Unpassed streams client earlier →
      since client earlier F.buffers.length b.text []) :
    Account since out streams { F with buffers := F.buffers ++ [b] } := by
  have hbuffer : ∀ i b', F.buffers[i]? = some b' → (F.buffers ++ [b])[i]? = some b' :=
    fun i b' hb' => (List.getElem?_append_left (List.getElem?_eq_some_iff.1 hb').1).trans hb'
  refine { h with placed := ?_, told := ?_, indexed := ?_, now := ?_ }
  · intro language s uri document hs hmem
    obtain ⟨huri, b', hb', hplace⟩ := h.placed language s uri document hs hmem
    exact ⟨huri, b', hbuffer _ b' hb', hplace⟩
  · intro language uri s document hlive hnot
    obtain ⟨messages, hmessages, b', earlier, text, sent, hb', htold⟩ := h.told language uri s
      document ⟨hlive.session, hlive.ready, hlive.found, hlive.opened⟩ hnot
    exact ⟨messages, hmessages, b', earlier, text, sent, hbuffer _ b' hb', htold⟩
  · intro b' hb'
    rcases List.mem_append.1 hb' with hold | hnew
    · exact h.indexed b' hold
    · exact List.mem_singleton.1 hnew ▸ hindexed
  · intro i b' hb'
    rcases Nat.lt_or_ge i F.buffers.length with hlt | hge
    · rw [List.getElem?_append_left hlt] at hb'
      exact h.now i b' hb'
    · obtain rfl : i = F.buffers.length := by
        have := (List.getElem?_eq_some_iff.1 hb').1
        rw [List.length_append, List.length_singleton] at this
        omega
      rw [List.getElem?_concat_length] at hb'
      obtain rfl := Option.some.inj hb'
      exact hnow

/-! ## Sessions -/

/-- The sessions change, but not their clients, and no document is told of anew. -/
theorem resession (h : Account since out streams F) {sessions : Table Session}
    (hkeys : (sessions.map Prod.fst).Nodup)
    (hsession : ∀ language s', sessions.find? language = some s' → s'.language = language ∧
      (∃ s, F.sessions.find? language = some s ∧ s'.client = s.client) ∧
        ∀ uri document, (uri, document) ∈ s'.documents → Placed F.buffers language uri document)
    (htold : ∀ language uri s' document',
      ({ F with sessions } : Face).Live language uri s' document' → ¬out language uri →
        ∃ s document, F.Live language uri s document ∧ s'.encoding = s.encoding ∧
          document'.buffer = document.buffer ∧ document'.version = document.version) :
    Account since out streams { F with sessions } := by
  refine { h with
    keys := hkeys, named := ?_, apart := ?_, served := ?_, placed := ?_, told := ?_ }
  · exact fun language s' hs' => (hsession language s' hs').1
  · intro language language' s₁ s₂ hs₁ hs₂ hclient
    obtain ⟨-, ⟨s, hs, hsame⟩, -⟩ := hsession language s₁ hs₁
    obtain ⟨-, ⟨s', hs', hsame'⟩, -⟩ := hsession language' s₂ hs₂
    exact h.apart language language' s s' hs hs' (by rw [← hsame, ← hsame', hclient])
  · intro language s' hs'
    obtain ⟨-, ⟨s, hs, hsame⟩, -⟩ := hsession language s' hs'
    rw [hsame]
    exact h.served language s hs
  · exact fun language s' uri document hs' => (hsession language s' hs').2.2 uri document
  · intro language uri s' document' hlive hnot
    obtain ⟨s, document, hbefore, hencoding, hbuffer, hversion⟩ :=
      htold language uri s' document' hlive hnot
    obtain ⟨-, ⟨s₀, hs₀, hsame⟩, -⟩ := hsession language s' hlive.session
    obtain rfl : s₀ = s := Option.some.inj (hs₀.symm.trans hbefore.session)
    obtain ⟨messages, hmessages, b, earlier, text, sent, hb, htracking, htells, hsince⟩ :=
      h.told language uri s₀ document hbefore hnot
    rw [hsame, hencoding]
    exact ⟨messages, hmessages, b, earlier, text, sent, hbuffer ▸ hb, htracking,
      hversion ▸ htells, hbuffer ▸ hsince⟩

/-- One session changes, but not its client.  If its server is ready, a document that is open is the
one from before in all that the account says of it, or is out of account. -/
theorem alterSession (h : Account since out streams F) (language : String)
    (change : Session → Session)
    (hclient : ∀ s, (change s).language = s.language ∧ (change s).client = s.client)
    (hplaced : ∀ s, F.sessions.find? language = some s → ∀ uri document,
      (uri, document) ∈ (change s).documents → Placed F.buffers language uri document)
    (htold : ∀ s, F.sessions.find? language = some s →
      F.lines[s.client]?.map Line.state = some .ready → (change s).encoding = s.encoding ∧
        ∀ uri document', (change s).documents.find? uri = some document' →
          document'.opened = true → ¬out language uri → ∃ document,
            s.documents.find? uri = some document ∧ document.opened = true ∧
              document'.buffer = document.buffer ∧ document'.version = document.version) :
    Account since out streams { F with sessions := F.sessions.alter language change } := by
  have hfind : ∀ language' s', (F.sessions.alter language change).find? language' = some s' →
      ∃ s, F.sessions.find? language' = some s ∧
        (language' = language ∧ s' = change s ∨ language' ≠ language ∧ s' = s) := by
    intro language' s' hs'
    rw [Table.find?_alter] at hs'
    split at hs'
    · next hlanguage =>
      obtain ⟨s, hs, rfl⟩ := Option.map_eq_some_iff.1 hs'
      exact ⟨s, hlanguage ▸ hs, .inl ⟨hlanguage, rfl⟩⟩
    · next hlanguage => exact ⟨s', hs', .inr ⟨hlanguage, rfl⟩⟩
  refine h.resession (Table.keys_alter h.keys language change) ?_ ?_
  · intro language' s' hs'
    obtain ⟨s, hs, ⟨rfl, rfl⟩ | ⟨-, rfl⟩⟩ := hfind language' s' hs'
    · exact ⟨(hclient s).1.trans (h.named _ s hs), ⟨s, hs, (hclient s).2⟩, hplaced s hs⟩
    · exact ⟨h.named _ _ hs, ⟨_, hs, rfl⟩, fun uri document => h.placed _ _ uri document hs⟩
  · intro language' uri s' document' hlive hnot
    obtain ⟨s, hs, ⟨rfl, rfl⟩ | ⟨-, rfl⟩⟩ := hfind language' s' hlive.session
    · have hready := hlive.ready
      rw [(hclient s).2] at hready
      obtain ⟨hencoding, hdocuments⟩ := htold s hs hready
      obtain ⟨document, hfound, hopened, hbuffer, hversion⟩ :=
        hdocuments uri document' hlive.found hlive.opened hnot
      exact ⟨s, document, ⟨hs, hready, hfound, hopened⟩, hencoding, hbuffer, hversion⟩
    · exact ⟨_, document', ⟨hs, hlive.ready, hlive.found, hlive.opened⟩, rfl, rfl, rfl⟩

/-- One document changes, out of account or not in what the account says of it. -/
theorem alterDocument (h : Account since out streams F) (language uri : String)
    (change : TrackedDocument → TrackedDocument)
    (hkeeps : ∀ d, (change d).buffer = d.buffer ∧ (change d).uri = d.uri)
    (hout : out language uri ∨
      ∀ d, (change d).opened = d.opened ∧ (change d).version = d.version) :
    Account since out streams
      { F with
        sessions := F.sessions.alter language fun s =>
          { s with documents := s.documents.alter uri change } } := by
  refine h.alterSession language _ (fun s => ⟨rfl, rfl⟩) ?_ ?_
  · intro s hs uri' document hmem
    rcases Table.mem_alter hmem with hold | ⟨d, hd, heq⟩
    · exact h.placed language s uri' document hs hold
    · obtain ⟨rfl, rfl⟩ := Prod.mk.inj heq
      obtain ⟨huri, hplace⟩ := h.placed language s uri' d hs (Table.mem_of_find? hd)
      exact ⟨(hkeeps d).2.trans huri, (hkeeps d).1 ▸ hplace⟩
  · intro s hs hready
    refine ⟨rfl, fun uri' document' hfound hopened hnot => ?_⟩
    rw [Table.find?_alter] at hfound
    split at hfound
    · next huri =>
      subst huri
      obtain ⟨d, hd, rfl⟩ := Option.map_eq_some_iff.1 hfound
      rcases hout with hout | hsame
      · exact absurd hout hnot
      · exact ⟨d, hd, (hsame d).1 ▸ hopened, (hkeeps d).1, (hsame d).2⟩
    · exact ⟨document', hfound, hopened, rfl, rfl⟩

/-- A session begins, with a client of its own that is not ready. -/
theorem join (h : Account since out streams F) {language : String} {s : Session} {l : Line}
    (hlanguage : s.language = language) (hl : F.lines[s.client]? = some l)
    (hinput : l.hasInput = true) (hfault : l.fault = none) (hstate : l.state ≠ .ready)
    (hnew : ∀ language' s', F.sessions.find? language' = some s' → s'.client ≠ s.client)
    (hplaced : ∀ uri document, (uri, document) ∈ s.documents →
      Placed F.buffers language uri document) :
    Account since out streams { F with sessions := F.sessions.put language s } := by
  have hfind : ∀ language' s', (F.sessions.put language s).find? language' = some s' →
      language' = language ∧ s' = s ∨
        language' ≠ language ∧ F.sessions.find? language' = some s' := by
    intro language' s' hs'
    by_cases hsame : language' = language
    · subst hsame
      rw [Table.find?_put_self] at hs'
      exact .inl ⟨rfl, (Option.some.inj hs').symm⟩
    · rw [Table.find?_put_of_ne _ _ hsame] at hs'
      exact .inr ⟨hsame, hs'⟩
  refine { h with
    keys := Table.keys_put h.keys language s, named := ?_, apart := ?_, served := ?_, placed := ?_,
    told := ?_ }
  · intro language' s' hs'
    rcases hfind language' s' hs' with ⟨rfl, rfl⟩ | ⟨-, hs'⟩
    · exact hlanguage
    · exact h.named language' s' hs'
  · intro language₁ language₂ s₁ s₂ hs₁ hs₂ hclient
    rcases hfind language₁ s₁ hs₁ with ⟨rfl, rfl⟩ | ⟨-, hold₁⟩ <;>
      rcases hfind language₂ s₂ hs₂ with ⟨rfl, rfl⟩ | ⟨-, hold₂⟩
    · rfl
    · exact absurd hclient.symm (hnew language₂ s₂ hold₂)
    · exact absurd hclient (hnew language₁ s₁ hold₁)
    · exact h.apart language₁ language₂ s₁ s₂ hold₁ hold₂ hclient
  · intro language' s' hs'
    rcases hfind language' s' hs' with ⟨rfl, rfl⟩ | ⟨-, hs'⟩
    · exact ⟨l, hl, hinput, hfault⟩
    · exact h.served language' s' hs'
  · intro language' s' uri document hs' hmem
    rcases hfind language' s' hs' with ⟨rfl, rfl⟩ | ⟨-, hs'⟩
    · exact hplaced uri document hmem
    · exact h.placed language' s' uri document hs' hmem
  · intro language' uri s' document hlive hnot
    rcases hfind language' s' hlive.session with ⟨rfl, rfl⟩ | ⟨-, hs'⟩
    · have hready := hlive.ready
      rw [hl, Option.map_some] at hready
      exact absurd (Option.some.inj hready) hstate
    · exact h.told language' uri s' document ⟨hs', hlive.ready, hlive.found, hlive.opened⟩ hnot

end Account

end TextEditor.Server
