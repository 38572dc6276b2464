import TextEditor.Proofs.Buffer.Follower
import TextEditor.Proofs.Buffer.Queue
import TextEditor.Proofs.Server.Hearing

/-!
# Runs

A run is any list of deeds: those of the user, who opens, edits and closes buffers, has the changes
sent and the events handled, and restarts servers or stops them; and those of the servers and their
readers, which go on by themselves.  The account is in order after every run in which no pipe to a
live server fails while it is written to.
-/

namespace TextEditor.Server

/-- What is done by the user, the servers or their readers. -/
inductive Deed where
  | create (path : String) (text : Text) (rows columns : Int) (settings : Settings)
  | openDocument (id : Nat)
  | closeDocument (id : Nat)
  | edit (id : Nat) (host : Host) (operation : Operation)
  /-- A transaction begins that goes on while other things are done. -/
  | enter (id : Nat) (label : String)
  /-- It ends, or fails for a reason. -/
  | leave (id : Nat) (failure : Option String)
  | syncChanges
  | drain
  | restart (language : String)
  | shutdown
  /-- A server writes bytes. -/
  | emit (client : Nat) (bytes : Bytes)
  /-- The output of a server ends. -/
  | finish (client : Nat) (ending : Ending)
  /-- A reader takes one step, if it can. -/
  | read (client : Nat)
  /-- An event comes from elsewhere. -/
  | post (event : Event)
  /-- Writing to a server fails from now on. -/
  | breakPipe (client : Nat) (fault : PipeFault)

namespace Hub

/-- The hub after a deed, whether it fails or not. -/
def act (h : Hub) : Deed → Hub
  | .create path text rows columns settings =>
    { h with buffers := h.buffers ++ [Buffer.create path text rows columns settings] }
  | .openDocument id => ((openDocument id).start h).2
  | .closeDocument id => h.closeDocument id
  | .edit id host operation =>
    h.alterBuffer id fun b => (Desk.operate ⟨b, host⟩ operation).buffer
  | .enter id label =>
    h.alterBuffer id fun b => if b.grouping.isSome then b else b.beginGroup label
  | .leave id none => h.alterBuffer id Buffer.endGroup
  | .leave id (some reason) => h.alterBuffer id (·.abandonGroup reason)
  | .syncChanges => (syncChanges.start h).2
  | .drain => (drain.start h).2
  | .restart language => ((restart language).start h).2
  | .shutdown => h.shutdown
  | .emit client bytes =>
    { h with fleet := h.fleet.modifyProcess client fun p => { p with output := p.output ++ bytes } }
  | .finish client ending =>
    { h with fleet := h.fleet.modifyProcess client fun p => { p with ending } }
  | .read client => { h with fleet := (h.fleet.readStep? client).getD h.fleet }
  | .post event => { h with fleet := { h.fleet with queue := h.fleet.queue ++ [event] } }
  | .breakPipe client fault =>
    { h with fleet := h.fleet.modifyProcess client fun p => { p with inputFault := some fault } }

/-- The hub with all pipes whole. -/
def mended (h : Hub) : Hub :=
  { h with
    fleet :=
      { h.fleet with
        connections := h.fleet.connections.map fun c =>
          { c with process := { c.process with inputFault := none } } } }

/-- No write of a deed to a live server fails: it does what it does when all pipes are whole. -/
def Unhindered (h : Hub) (deed : Deed) : Prop :=
  (h.act deed).mended = (h.mended.act deed).mended

/-- No write of a run to a live server fails. -/
def UnhinderedRun (h : Hub) : List Deed → Prop
  | [] => True
  | deed :: rest => h.Unhindered deed ∧ (h.act deed).UnhinderedRun rest

/-- All pipes are whole. -/
def Whole (h : Hub) : Prop :=
  ∀ c ∈ h.fleet.connections, c.process.inputFault = none

instance (h : Hub) : Decidable h.Whole :=
  inferInstanceAs (Decidable (∀ c ∈ h.fleet.connections, c.process.inputFault = none))

theorem mended_of_whole {h : Hub} (hwhole : h.Whole) : h.mended = h := by
  have hsame : (h.fleet.connections.map fun c =>
      { c with process := { c.process with inputFault := none } }) = h.fleet.connections := by
    refine (List.map_congr_left fun c hc => ?_).trans (List.map_id _)
    have hnone := hwhole c hc
    obtain ⟨⟨_, _, _, fault⟩, _⟩ := c
    obtain rfl : fault = none := hnone
    rfl
  rw [mended, hsame]

/-- Nothing fails while all pipes are whole. -/
theorem unhinderedRun_of_whole {h : Hub} {deeds : List Deed}
    (hwhole : ∀ past ∈ deeds.inits, (past.foldl act h).Whole) : h.UnhinderedRun deeds := by
  induction deeds generalizing h with
  | nil => trivial
  | cons deed rest ih =>
    refine ⟨?_, ih fun past hpast => ?_⟩
    · have hnow : h.Whole := hwhole [] (by simp)
      rw [Unhindered, mended_of_whole hnow]
    · exact hwhole (deed :: past) (by simpa using hpast)

/-- Nothing was opened or started yet. -/
structure Fresh (h : Hub) : Prop where
  sessions : h.sessions = []
  buffers : h.buffers = []
  connections : h.fleet.connections = []

/-! ## What happens to a buffer -/

/-- The deltas of the splices that a deed makes in a buffer. -/
def splices (h : Hub) (id : Nat) : Deed → List Delta
  | .edit i host operation =>
    if i = id then
      match h.buffers[id]? with
      | some b => Desk.splices ⟨b, host⟩ operation
      | none => []
    else []
  | _ => []

/-- The deltas of the splices that deeds make in a buffer, in order. -/
def splicesOf (h : Hub) (id : Nat) : List Deed → List Delta
  | [] => []
  | deed :: rest => h.splices id deed ++ (h.act deed).splicesOf id rest

theorem splicesOf_append (h : Hub) (id : Nat) (first second : List Deed) :
    h.splicesOf id (first ++ second) =
      h.splicesOf id first ++ (first.foldl act h).splicesOf id second := by
  induction first generalizing h with
  | nil => rfl
  | cons deed rest ih =>
    rw [List.cons_append, splicesOf, splicesOf, ih, List.append_assoc]
    rfl

/-- All that was written to the process of a client. -/
def received (h : Hub) (client : Nat) : List Bytes :=
  (h.fleet.connections[client]?.map (·.process.received)).getD []

/-- There is a moment of a run at which the process of a client had received nothing but the earlier
messages, or not even all of them; the next deed, if there is one, writes to it what is missing of
these and the message after them.  At that moment the buffer had the text, and the deltas are those
of all its splices since. -/
def Since (h : Hub) (deeds : List Deed) : Past := fun client earlier id text deltas =>
  ∃ past future, deeds = past ++ future ∧
    (past.foldl act h).received client <+: earlier.map Outgoing.frame ∧
      (∀ deed rest, future = deed :: rest → ∃ m,
        (earlier ++ [m]).map Outgoing.frame <+: ((past.foldl act h).act deed).received client) ∧
        (past.foldl act h).buffers[id]?.map Buffer.text = some text ∧
          deltas = (past.foldl act h).splicesOf id future

variable {h : Hub} {deeds : List Deed} {deed : Deed} {client id : Nat} {earlier : List Outgoing}

/-- The moment stays what it was when another deed is done, after which the message behind the
earlier ones has been written. -/
theorem Since.append {text : Text} {deltas : List Delta}
    (hsince : Since h deeds client earlier id text deltas) (deed : Deed)
    (hpassed : ∃ m,
      (earlier ++ [m]).map Outgoing.frame <+: ((deeds.foldl act h).act deed).received client) :
    Since h (deeds ++ [deed]) client earlier id text
      (deltas ++ (deeds.foldl act h).splices id deed) := by
  obtain ⟨past, future, rfl, hreceived, hnext, htext, rfl⟩ := hsince
  refine ⟨past, future ++ [deed], List.append_assoc .., hreceived, fun next rest heq => ?_, htext,
    ?_⟩
  · cases future with
    | nil =>
      obtain ⟨rfl, -⟩ := List.cons.inj heq
      rwa [List.append_nil] at hpassed
    | cons first future =>
      obtain ⟨rfl, -⟩ := List.cons.inj heq
      exact hnext first future rfl
  · rw [splicesOf_append, List.foldl_append, splicesOf, splicesOf, List.append_nil]

theorem since_nil {b : Buffer}
    (hreceived : ((deeds.foldl act h).act deed).received client <+: earlier.map Outgoing.frame)
    (hb : ((deeds.foldl act h).act deed).buffers[id]? = some b) :
    Since h (deeds ++ [deed]) client earlier id b.text [] := by
  refine ⟨deeds ++ [deed], [], (List.append_nil _).symm, ?_, nofun, ?_, rfl⟩
  · rwa [List.foldl_append]
  · rw [List.foldl_append, List.foldl_cons, List.foldl_nil, hb, Option.map_some]

/-! ## The account through a run -/

variable {since : Past} {out : String → String → Prop} {streams : List (List Outgoing)}

theorem face_mended (h : Hub) :
    h.mended.face = { h.face with lines := h.face.lines.map Account.mend } := by
  simp only [mended, face, Fleet.lines, List.map_map]
  rfl

theorem Accounts.mended (haccounts : h.Accounts since out) : h.mended.Accounts since out := by
  obtain ⟨streams, haccount⟩ := haccounts
  refine ⟨streams, ?_⟩
  rw [face_mended]
  exact haccount.mended

section Received

variable {g : Hub} (haccount : Account since out streams g.mended.face) (hfleet : h.fleet = g.fleet)

include haccount hfleet

/-- What a process received is its stream. -/
theorem received_eq (client : Nat) :
    h.received client = (streams.getD client []).map Outgoing.frame := by
  have hcarried : g.fleet.connections.map (·.process.received) =
      streams.map (List.map Outgoing.frame) := by
    rw [← haccount.carried]
    simp only [mended, face, Fleet.lines, List.map_map]
    rfl
  have hclient := congrArg (·[client]?) hcarried
  simp only [List.getElem?_map] at hclient
  rw [received, hfleet, hclient, List.getD_eq_getElem?_getD]
  cases streams[client]? <;> rfl

theorem received_of_unpassed (hunpassed : Unpassed streams client earlier) :
    h.received client <+: earlier.map Outgoing.frame := by
  rw [received_eq haccount hfleet]
  exact hunpassed.map Outgoing.frame

theorem received_of_passed (hpassed : Passed streams client earlier) :
    ∃ m, (earlier ++ [m]).map Outgoing.frame <+: h.received client := by
  obtain ⟨m, hm⟩ := hpassed
  rw [received_eq haccount hfleet]
  exact ⟨m, hm.map Outgoing.frame⟩

end Received

theorem face_mended_breakPipe (h : Hub) (client : Nat) (fault : PipeFault) :
    (h.act (.breakPipe client fault)).mended.face = h.mended.face := by
  have hlines : (h.act (.breakPipe client fault)).fleet.lines =
      h.fleet.lines.modify client fun l => { l with fault := some fault } :=
    Fleet.lines_alter fun _ _ => rfl
  have hmend : (h.fleet.lines.modify client fun l => { l with fault := some fault }).map
      Account.mend = h.fleet.lines.map Account.mend := by
    apply List.ext_getElem?
    intro i
    rw [List.getElem?_map, List.getElem?_map, List.getElem?_modify]
    cases h.fleet.lines[i]? with
    | none => rfl
    | some l => by_cases hi : client = i <;> simp [hi, Account.mend]
  rw [face_mended, face_mended]
  simp only [face, hlines, hmend]
  rfl

theorem accounts_modifyProcess (haccounts : h.Accounts since out) (client : Nat)
    (change : Subprocess → Subprocess)
    (hchange : ∀ p, (change p).hasInput = p.hasInput ∧ (change p).inputFault = p.inputFault ∧
      (change p).received = p.received) :
    ({ h with fleet := h.fleet.modifyProcess client change } : Hub).Accounts since out := by
  apply accounts_of_face haccounts
  simp only [face, Fleet.lines_modifyProcess _ _ _ hchange]

theorem accounts_readStep? (haccounts : h.Accounts since out) (client : Nat) :
    (h.act (.read client)).Accounts since out := by
  obtain ⟨streams, haccount⟩ := haccounts
  refine ⟨streams, ?_⟩
  cases hstep : h.fleet.readStep? client with
  | none =>
    have hsame : h.act (.read client) = h := by rw [act, hstep]; rfl
    rw [hsame]
    exact haccount
  | some f =>
    have hread : h.act (.read client) = { h with fleet := f } := by rw [act, hstep]; rfl
    rw [hread]
    exact haccount.wane (Fleet.wane_readStep? hstep)

/-- A buffer rests while a transaction begins or ends. -/
theorem accounts_rests (haccounts : h.Accounts since out) (id : Nat) {change : Buffer → Buffer}
    (hrests : ∀ b : Buffer, b.Rests (change b)) : (h.alterBuffer id change).Accounts since out := by
  obtain ⟨streams, haccount⟩ := haccounts
  refine ⟨streams, haccount.rest _ _ fun b _ => ?_⟩
  have hrest := hrests b
  exact ⟨hrest.path, hrest.profile, hrest.document, .inr ⟨hrest.tracking, hrest.changes⟩⟩

section Step

variable {h₀ : Hub}

/-- The account after an edit: nothing is written, and the buffer goes on from the text it had. -/
theorem accounts_edit (haccounts : (deeds.foldl act h₀).mended.Accounts (Since h₀ deeds) nothing)
    (id : Nat) (host : Host) (operation : Operation) :
    ((deeds.foldl act h₀).act (.edit id host operation)).mended.Accounts
      (Since h₀ (deeds ++ [.edit id host operation])) nothing := by
  obtain ⟨streams, haccount⟩ := haccounts
  refine ⟨streams, haccount.modifyBuffer id _
    (fun client earlier i text deltas hpassed hi hsince => ?_)
    (fun i b' hb' client earlier hunpassed =>
      since_nil (received_of_unpassed haccount rfl hunpassed) hb')
    fun b hb => ?_⟩
  · have hgoes := hsince.append (.edit id host operation)
      (received_of_passed haccount rfl hpassed)
    rw [splices, if_neg (Ne.symm hi), List.append_nil] at hgoes
    exact hgoes
  · have hrelays := Desk.relays_operate ⟨b, host⟩ operation
    have hindexed := haccount.indexed b (List.mem_of_getElem? hb)
    have hb₀ : (deeds.foldl act h₀).buffers[id]? = some b := hb
    refine ⟨hrelays.path, hrelays.profile, hrelays.indexed hindexed, .inr ?_⟩
    refine ⟨hrelays.tracking, fun htracking => ?_⟩
    have hdeltas := Desk.changes_operate (d := ⟨b, host⟩) htracking operation
    refine ⟨Desk.splices ⟨b, host⟩ operation, hdeltas,
      fun client earlier text before hpassed hsince => ?_, ?_⟩
    · have hgoes := hsince.append (.edit id host operation)
        (received_of_passed haccount rfl hpassed)
      rw [splices, if_pos rfl, hb₀] at hgoes
      exact hgoes
    · obtain ⟨deltas, hsame, hreplay⟩ := hrelays.changes
      obtain rfl := List.append_cancel_left (hdeltas.symm.trans hsame)
      exact hreplay hindexed htracking

/-- A deed that splices no buffer adds nothing to the past but what processes received. -/
theorem accounts_quiet (hnone : ∀ (h : Hub) (id : Nat), h.splices id deed = [])
    (haccount : Account (Since h₀ deeds) nothing streams
      ((deeds.foldl act h₀).act deed).mended.face) :
    Account (Since h₀ (deeds ++ [deed])) nothing streams
      ((deeds.foldl act h₀).act deed).mended.face := by
  refine haccount.mono (fun client earlier id text deltas hpassed hsince => ?_)
    fun id b hb client earlier hunpassed => ?_
  · have hgoes := hsince.append deed (received_of_passed haccount rfl hpassed)
    rw [hnone, List.append_nil] at hgoes
    exact hgoes
  · exact since_nil (received_of_unpassed haccount rfl hunpassed) hb

theorem accounts_create (haccounts : (deeds.foldl act h₀).mended.Accounts (Since h₀ deeds) nothing)
    (path : String) (text : Text) (rows columns : Int) (settings : Settings) :
    ((deeds.foldl act h₀).act (.create path text rows columns settings)).mended.Accounts
      (Since h₀ (deeds ++ [.create path text rows columns settings])) nothing := by
  obtain ⟨streams, haccount⟩ := haccounts
  let deed : Deed := .create path text rows columns settings
  have hlater : Account (Since h₀ (deeds ++ [deed])) nothing streams
      (deeds.foldl act h₀).mended.face := by
    refine haccount.mono (fun client earlier id text' deltas hpassed hsince => ?_)
      fun id b hb client earlier hunpassed => ?_
    · have hgoes := hsince.append deed (received_of_passed haccount rfl hpassed)
      have hnone : (deeds.foldl act h₀).splices id deed = [] := rfl
      rw [hnone, List.append_nil] at hgoes
      exact hgoes
    · exact since_nil (received_of_unpassed haccount rfl hunpassed)
        ((List.getElem?_append_left (List.getElem?_eq_some_iff.1 hb).1).trans hb)
  exact ⟨streams, hlater.addBuffer (Desk.indexed_create _ _ _ _ _) fun client earlier hunpassed =>
    since_nil (received_of_unpassed haccount rfl hunpassed) List.getElem?_concat_length⟩

/-- No deed puts the account out of order if no write to a live server fails. -/
theorem accounts_act (haccounts : (deeds.foldl act h₀).mended.Accounts (Since h₀ deeds) nothing)
    (hwrites : (deeds.foldl act h₀).Unhindered deed) :
    ((deeds.foldl act h₀).act deed).mended.Accounts (Since h₀ (deeds ++ [deed])) nothing := by
  have hquiet : (∀ (h : Hub) (id : Nat), h.splices id deed = []) →
      ((deeds.foldl act h₀).mended.act deed).Accounts (Since h₀ deeds) nothing →
        ((deeds.foldl act h₀).act deed).mended.Accounts (Since h₀ (deeds ++ [deed])) nothing := by
    rintro hnone haccounts'
    obtain ⟨streams, haccount⟩ := haccounts'.mended
    rw [← hwrites] at haccount
    exact ⟨streams, accounts_quiet hnone haccount⟩
  cases deed with
  | create path text rows columns settings =>
    exact accounts_create haccounts path text rows columns settings
  | edit id host operation => exact accounts_edit haccounts id host operation
  | openDocument id => exact hquiet (fun _ _ => rfl) (keeps_openDocument id _ haccounts)
  | closeDocument id => exact hquiet (fun _ _ => rfl) (accounts_closeDocument haccounts id)
  | enter id label =>
    refine hquiet (fun _ _ => rfl) (accounts_rests haccounts id fun b => ?_)
    split
    · exact (Buffer.Quiet.refl b).toRests
    · exact Buffer.rests_beginGroup b label
  | leave id failure =>
    cases failure with
    | none => exact hquiet (fun _ _ => rfl) (accounts_rests haccounts id Buffer.rests_endGroup)
    | some reason =>
      exact hquiet (fun _ _ => rfl)
        (accounts_rests haccounts id (Buffer.rests_abandonGroup · reason))
  | syncChanges => exact hquiet (fun _ _ => rfl) (keeps_syncChanges _ haccounts)
  | drain => exact hquiet (fun _ _ => rfl) (lasts_accounts.drain _ haccounts)
  | restart language => exact hquiet (fun _ _ => rfl) (keeps_restart language _ haccounts)
  | shutdown => exact hquiet (fun _ _ => rfl) (accounts_shutdown haccounts)
  | emit client bytes =>
    exact hquiet (fun _ _ => rfl) (accounts_modifyProcess haccounts client
      (fun p => { p with output := p.output ++ bytes }) fun p => ⟨rfl, rfl, rfl⟩)
  | finish client ending =>
    exact hquiet (fun _ _ => rfl) (accounts_modifyProcess haccounts client
      (fun p => { p with ending }) fun p => ⟨rfl, rfl, rfl⟩)
  | read client => exact hquiet (fun _ _ => rfl) (accounts_readStep? haccounts client)
  | post event => exact hquiet (fun _ _ => rfl) (accounts_of_face haccounts rfl)
  | breakPipe client fault =>
    have hface := face_mended_breakPipe (deeds.foldl act h₀) client fault
    obtain ⟨streams, haccount⟩ := haccounts
    exact ⟨streams, accounts_quiet (fun _ _ => rfl) (hface ▸ haccount)⟩

theorem accounts_fresh (hfresh : h₀.Fresh) : h₀.mended.Accounts (Since h₀ []) nothing := by
  have hface : h₀.mended.face = ⟨[], [], []⟩ := by
    rw [face_mended]
    simp [face, Fleet.lines, hfresh.sessions, hfresh.buffers, hfresh.connections]
  refine ⟨[], ?_⟩
  rw [hface]
  exact
    { carried := rfl
      orderly := fun _ hmem => by cases hmem
      settled := fun _ hmem => by cases hmem
      keys := List.nodup_nil
      named := fun _ _ hs => by cases hs
      apart := fun _ _ _ _ hs => by cases hs
      served := fun _ _ hs => by cases hs
      placed := fun _ _ _ _ hs => by cases hs
      told := fun _ _ _ _ hlive => by cases hlive.session
      indexed := fun _ hmem => by cases hmem
      now := fun _ _ hb => by cases hb }

/-- The account is in order after every run. -/
theorem accounts_foldl_act (hfresh : h₀.Fresh) (hwrites : h₀.UnhinderedRun deeds) :
    (deeds.foldl act h₀).mended.Accounts (Since h₀ deeds) nothing := by
  suffices hrun : ∀ (past rest : List Deed),
      (past.foldl act h₀).mended.Accounts (Since h₀ past) nothing →
        (past.foldl act h₀).UnhinderedRun rest →
          ((past ++ rest).foldl act h₀).mended.Accounts (Since h₀ (past ++ rest)) nothing by
    exact hrun [] deeds (accounts_fresh hfresh) hwrites
  intro past rest
  induction rest generalizing past with
  | nil =>
    intro haccounts _
    rw [List.append_nil]
    exact haccounts
  | cons deed rest ih =>
    intro haccounts hwrites
    rw [List.append_cons]
    apply ih
    · rw [List.foldl_append]
      exact accounts_act haccounts hwrites.1
    · rw [List.foldl_append]
      exact hwrites.2

/-- In every run in which no write to a live server fails, the server of a session that is ready
knows each document that it was told to open.  What was written to it is an orderly stream: no
change comes before an opening, and each carries the version after the one before.  The text that
the last opening gave is the one that the buffer had when the opening was written, that is when the
process had received nothing but what comes before it in the stream.  The changes that were sent
since, and the deltas that the buffer still holds, are the splices of the buffer from that moment
on, none lost, doubled or out of order, and make up its text. -/
theorem told_of_opened (hfresh : h₀.Fresh) (hwrites : h₀.UnhinderedRun deeds)
    {language uri : String} {s : Session} {document : TrackedDocument} :
    let h := deeds.foldl act h₀
    h.sessions.find? language = some s → h.isReady s = true →
      s.documents.find? uri = some document → document.opened = true →
        ∃ c messages, h.fleet.connections[s.client]? = some c ∧
          c.process.received = messages.map Outgoing.frame ∧ Orderly messages ∧
            Placed h.buffers language uri document ∧
              Told (Since h₀ deeds) h.buffers s.client messages language uri s.encoding
                document := by
  intro h hs hready hfound hopened
  obtain ⟨streams, haccount⟩ := accounts_foldl_act hfresh hwrites
  have hs' : h.mended.sessions.find? language = some s := hs
  have hplaced := haccount.placed language s uri document hs' (Table.mem_of_find? hfound)
  have hlines : h.mended.face.lines = h.fleet.lines.map Account.mend :=
    congrArg Face.lines (face_mended h)
  obtain ⟨l', hl', -⟩ := haccount.served language s hs'
  rw [hlines, List.getElem?_map] at hl'
  obtain ⟨l, hl, rfl⟩ := Option.map_eq_some_iff.1 hl'
  obtain ⟨c, hc, rfl⟩ := Fleet.connection_of_line hl
  have hstate : c.line.state = .ready := by
    rw [← Fleet.stateOf_of_line hl]
    exact of_decide_eq_true hready
  have hmended : h.mended.face.lines[s.client]? = some (Account.mend c.line) := by
    rw [hlines, List.getElem?_map, hl, Option.map_some]
  have hlive : h.mended.face.Live language uri s document :=
    ⟨hs', by rw [hmended, Option.map_some]; exact congrArg some hstate, hfound, hopened⟩
  obtain ⟨messages, hmessages, htold⟩ := haccount.told language uri s document hlive fun h => h
  obtain ⟨messages', hmessages', hreceived⟩ := haccount.messages_of_line hmended
  obtain rfl : messages = messages' := Option.some.inj (hmessages.symm.trans hmessages')
  exact ⟨c, messages, hc, hreceived, haccount.orderly messages (List.mem_of_getElem? hmessages),
    hplaced, htold⟩

/-- A document is opened, its server answers, and of two edits one was sent. -/
theorem told_of_opened_edits :
    let h₀ : Hub := { settings := {}, root := none, fleet := { capacity := 4 } }
    let answer := Utf8.encode "\x7b\"id\":0,\"result\":null\x7d".toList
    let deeds : List Deed :=
      [.create "/a.rs" ['x'] 24 80 {}, .openDocument 0, .post (.response "rust-analyzer" answer),
        .drain, .edit 0 {} (.perform (.insertText ['y'])), .syncChanges,
        .edit 0 {} (.perform (.insertText ['z']))]
    let h := deeds.foldl act h₀
    ∃ s document, (h₀.Fresh ∧ h₀.UnhinderedRun deeds ∧ h.sessions.find? "rust" = some s ∧
        h.isReady s = true ∧ s.documents.find? "file:///a.rs" = some document ∧
          document.opened = true) ∧
      ∃ c messages, h.fleet.connections[s.client]? = some c ∧
        c.process.received = messages.map Outgoing.frame ∧ Orderly messages ∧
          Placed h.buffers "rust" "file:///a.rs" document ∧
            Told (Since h₀ deeds) h.buffers s.client messages "rust" "file:///a.rs" s.encoding
              document := by
  intro h₀ answer deeds h
  have hfresh : h₀.Fresh := ⟨rfl, rfl, rfl⟩
  have hwrites : h₀.UnhinderedRun deeds := unhinderedRun_of_whole (by decide +kernel)
  have hopened : ((h.sessions.find? "rust").any fun s => h.isReady s &&
      (s.documents.find? "file:///a.rs").any (·.opened)) = true := by decide +kernel
  obtain ⟨s, hs, hready⟩ := (Option.any_eq_true _ _).1 hopened
  obtain ⟨hready, hfound⟩ := Bool.and_eq_true_iff.1 hready
  obtain ⟨document, hfound, hopened⟩ := (Option.any_eq_true _ _).1 hfound
  exact ⟨s, document, ⟨hfresh, hwrites, hs, hready, hfound, hopened⟩,
    told_of_opened hfresh hwrites hs hready hfound hopened⟩

end Step

end Hub

end TextEditor.Server
