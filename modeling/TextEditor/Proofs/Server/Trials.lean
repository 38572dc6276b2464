import TextEditor.Proofs.Server.Asking
import TextEditor.Proofs.Server.Strides

/-!
# Writes and starts that may fail

A message that is written arrives, or nothing happens but that the failure is reported or passed on.
Where the server is alive and has an input, a failure means that its pipe is broken.  A start that
fails may leave a process behind, which no session has and which was told of nothing.
-/

namespace TextEditor.Server

namespace Fleet

variable {f : Fleet} {id : Nat}

/-- The step writes one message of a kind to a client, or fails and does nothing. -/
def Tries {α : Type} (step : Step Fleet α) (id : Nat) (kind : Outgoing → Prop) : Prop :=
  ∀ f, (∃ m a f', kind m ∧ step.start f = (.ok a, f') ∧
      f'.lines = f.lines.modify id (·.receive m.frame)) ∨
    ∃ fault, step.start f = (.error fault, f)

/-- What is sent is on the line as the message that it is. -/
theorem Sent.tries {α : Type} {i : Nat} {change : Connection → Connection} {m : Outgoing}
    {result : Except Fault α × Fleet} (h : Sent f i change result)
    (hline : ∀ c, (change c).line = c.line.receive m.frame) :
    (∃ a f', result = (.ok a, f') ∧ f'.lines = f.lines.modify i (·.receive m.frame)) ∨
      ∃ fault, result = (.error fault, f) := by
  cases h with
  | failed fault => exact .inr ⟨fault, rfl⟩
  | @done c f' a hc halive hconnections hqueue hcapacity =>
    refine .inl ⟨a, f', rfl, ?_⟩
    have hsame : f'.lines = (f.alter i change).lines := congrArg (List.map _) hconnections
    rw [hsame]
    exact lines_alter fun c _ => hline c

theorem tries_notification (m : Outgoing) {method : String} {params : Option Json}
    (hjson : m.json = Message.notification method params) (id : Nat) :
    Tries (sendNotification id method params) id (· = m) := by
  intro f
  have hsent := sent_sendNotification f id method params
  rw [← hjson] at hsent
  rcases hsent.tries (m := m) fun _ => rfl with ⟨a, f', hstart, hlines⟩ | hfailed
  · exact .inl ⟨m, a, f', rfl, hstart, hlines⟩
  · exact .inr hfailed

theorem tries_tokensRequest (id : Nat) (uri : String) (version : Int) :
    Tries (do let _ ← sendTokensRequest id uri version) id Neutral := by
  intro f
  let number := ((f.client? id).map Client.nextId).getD 0
  have hsent := (sent_sendRequest f id Method.semanticTokens
    (some (Message.semanticTokensParams uri)) (.tokens uri version)).tries
    (m := .tokens number uri) fun c => by
      simp [Connection.line, Connection.ask, Connection.receive, Client.sent, Client.starts,
        RequestKind.isStart, Line.receive, requestFrame, Outgoing.frame, Outgoing.json, number]
  rw [Step.start_bind]
  change (∃ a f', (sendTokensRequest id uri version).start f = _ ∧ _) ∨ _ at hsent
  rcases hsent with ⟨a, f', hstart, hlines⟩ | ⟨fault, hstart⟩
  · exact .inl ⟨.tokens number uri, (), f', fun _ => rfl, by rw [hstart]; rfl, hlines⟩
  · exact .inr ⟨fault, by rw [show (sendTokensRequest id uri version).start f = _ from hstart]⟩

theorem tries_response (id : Nat) (message : Json) :
    Tries (sendResponse id message) id Neutral := by
  intro f
  obtain ⟨number, result, hsent⟩ := sent_sendResponse f id message
  rcases hsent.tries (m := .reply number result) fun _ => rfl with ⟨a, f', hstart, hlines⟩ | hfailed
  · exact .inl ⟨.reply number result, a, f', fun _ => rfl, hstart, hlines⟩
  · exact .inr hfailed

end Fleet

/-- The lines after a process was started, if one was, and time went by. -/
def Follows (lines lines' : List Line) : Prop :=
  ∃ begun : List Line, (∀ l ∈ begun, l.Begun ∧ Fleet.Untold l) ∧ Wane (lines ++ begun) lines'

theorem Follows.refl (lines : List Line) : Follows lines lines :=
  ⟨[], by simp, by rw [List.append_nil]; exact Wane.refl lines⟩

namespace Hub

variable {h : Hub} {s : Session} {language : String}

/-- A message to the server of a session arrives, or it does not and nothing else happens to
sessions, buffers and lines. -/
theorem guarded_cases {step : Step Fleet Unit} {kind : Outgoing → Prop}
    (htries : Fleet.Tries step s.client kind) (h : Hub) :
    (∃ m h', kind m ∧ (guarded s step).start h = (.ok true, h') ∧
      h'.face = h.face.sent s.client m) ∨
    ∃ outcome h', (guarded s step).start h = (outcome, h') ∧ outcome ≠ .ok true ∧
      h'.face = h.face ∧ ∃ fault, step.start h.fleet = (.error fault, h.fleet) := by
  rw [guarded, Step.start_bind, Step.start_attempt, onFleet, Step.start_zoom]
  rcases htries h.fleet with ⟨m, a, f', hm, hstart, hlines⟩ | ⟨fault, hstart⟩
  · rw [hstart]
    refine .inl ⟨m, { h with fleet := f' }, hm, rfl, ?_⟩
    simp only [face, Face.sent, hlines]
  · rw [hstart]
    refine .inr ?_
    cases fault with
    | write fault => exact ⟨.ok false, _, rfl, by simp, rfl, _, rfl⟩
    | _ => exact ⟨.error _, _, rfl, by simp, rfl, _, rfl⟩

/-- A write to a server that is alive and has an input fails because its pipe is broken. -/
theorem fault_of_failed {step : Step Fleet Unit} {kind : Outgoing → Prop} {l : Line} {fault : Fault}
    (hsends : Fleet.Sends h.fleet step s.client kind) (hl : h.fleet.lines[s.client]? = some l)
    (halive : l.state.isAlive = true) (hinput : l.hasInput = true)
    (hfailed : step.start h.fleet = (.error fault, h.fleet)) : l.fault ≠ none := by
  intro hnone
  obtain ⟨m, a, f', -, hstart, -⟩ := (hsends l hl).1 ⟨halive, hinput, hnone⟩
  cases hstart.symm.trans hfailed

/-- What becomes of the start of a session, whatever fails. -/
structure Launches (language : String) (h : Hub) (result : Except Fault (Option Session) × Hub) :
    Prop where
  buffers : result.2.buffers = h.buffers
  lines : Follows h.fleet.lines result.2.fleet.lines
  session : ∀ s, result.1 = .ok (some s) → result.2.sessions = h.sessions.put language s ∧
    s.language = language ∧ s.documents = [] ∧ s.client = h.fleet.lines.length ∧
      ∃ l, result.2.fleet.lines[s.client]? = some l ∧ l.hasInput = true ∧ l.state ≠ .ready
  none : (∀ s, result.1 ≠ .ok (some s)) → result.2.sessions = h.sessions

theorem launches_startSession (h : Hub) (language path : String) :
    Launches language h ((startSession language path).start h) := by
  have hquiet : ∀ (outcome : Except Fault (Option Session)) (h' : Hub),
      (∀ s, outcome ≠ .ok (some s)) → h'.buffers = h.buffers → h'.sessions = h.sessions →
        Follows h.fleet.lines h'.fleet.lines → Launches language h (outcome, h') :=
    fun outcome h' hnone hbuffers hsessions hlines =>
      ⟨hbuffers, hlines, fun s hs => absurd hs (hnone s), fun _ => hsessions⟩
  rw [startSession, Step.start_bind, Step.start_get]
  dsimp only
  split
  · exact hquiet _ _ (by simp) rfl rfl (Follows.refl _)
  · exact hquiet _ _ (by simp) rfl rfl (Follows.refl _)
  next server _ _ =>
  rw [Step.start_bind, Step.start_attempt, onFleet, Step.start_zoom]
  obtain ⟨begun, hbegun, hwane, hok⟩ := Fleet.spawn_spec h.fleet server [] h.root path
    h.settings.maxMessageSize
  generalize (Fleet.spawn server [] h.root path h.settings.maxMessageSize).start h.fleet = result
    at hwane hok ⊢
  obtain ⟨outcome, f'⟩ := result
  have hfollows : Follows h.fleet.lines f'.lines := ⟨begun, hbegun, hwane⟩
  cases outcome with
  | ok client =>
    obtain ⟨rfl, l, rfl, -, hinput, -⟩ := hok client rfl
    refine ⟨rfl, hfollows, fun s hs => ?_, fun hnone => absurd rfl (hnone _)⟩
    obtain rfl := Option.some.inj (Except.ok.inj hs)
    obtain ⟨l', hl', hwanes⟩ := hwane.some_right (i := h.fleet.lines.length) (l := l)
      List.getElem?_concat_length
    refine ⟨rfl, rfl, rfl, rfl, l', hl', hwanes.hasInput.trans hinput, fun hready => ?_⟩
    have hstarting := (hbegun l List.mem_cons_self).1.state
    rw [hwanes.ready hready] at hstarting
    cases hstarting
  | error fault =>
    have hfailed : ∀ (level : Level) (name : String) (data : TextEditor.Pairs),
        Launches language h
          (.ok none, ({ h with fleet := f' } : Hub).report level name data) :=
      fun level name data => hquiet _ _ (by simp) rfl rfl hfollows
    have hraised : ∀ fault, Launches language h (.error fault, { h with fleet := f' }) :=
      fun fault => hquiet _ _ (by simp) rfl rfl hfollows
    cases fault with
    | write fault => exact hfailed _ _ _
    | pipe fault =>
      obtain ⟨kind, message⟩ := fault
      cases kind with
      | system name => exact hfailed _ _ _
      | value => exact hraised _
      | other name => exact hraised _
    | _ => exact hraised _

end Hub

end TextEditor.Server
