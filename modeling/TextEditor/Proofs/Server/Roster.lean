import Mathlib.Logic.Relation
import TextEditor.Proofs.Server.Easing
import TextEditor.Proofs.Server.Moments

/-!
# Shifts of the roster

The roster of a hub are its sessions and connections, with the requests that wait.  Whatever is done
at a moment comes about in shifts of it: each asks or tells a server of a document, begins or ends a
session, or takes in what a server says.  A shift that spoils something, such as a document that
goes over to another server as it is, carries the event that brought it about.
-/

namespace TextEditor.Server

/-- A deed is done at the moment. -/
def Moment.Does (moment : Moment) (deed : Deed) : Prop :=
  ∃ hdrain, moment = .turn (.deed deed) hdrain

namespace Hub

/-- The tokens that an answer gives, under a legend. -/
def tokensIn (legend : List String) (message : Json) : Except ShapeFault (List SemanticToken) := do
  let data ←
    match (message.field? "result").getD .null with
    | .obj fields => ((Json.obj fields).member "data").bind Json.itemsOrNone
    | _ => pure []
  SemanticToken.decode legend data

/-! ## Events -/

/-- The server of a session has stopped when a document of its language is opened, and a document
goes over to the client that is started. -/
structure Inherits (language uri : String) (client : Nat) (d : TrackedDocument) (h : Hub)
    (moment : Moment) : Prop where
  opening : ∃ id b, moment.Does (.openDocument id) ∧ h.buffers[id]? = some b ∧ b.language = language
  old : ∃ s, h.sessions.find? language = some s ∧ (h.stateOf s).isAlive = false ∧
    s.documents.find? uri = some d
  client : client = h.fleet.connections.length

/-- The answer to a request for the tokens of a document is handled and gives these, while its
session has the client, the legend and the encoding of the given one. -/
structure Colors (language uri : String) (s : Session) (tokens : List SemanticToken) (h : Hub)
    (moment : Moment) : Prop where
  moment : moment = .handle
  session : ∃ s₀, h.sessions.find? language = some s₀ ∧ s₀.client = s.client ∧
    s₀.legend = s.legend ∧ s₀.encoding = s.encoding
  paired : ∃ number version, h.pairing? = some ⟨s.client, number, .tokens uri version⟩
  given : ∃ message, h.heard? = some message ∧ message.field? "error" = none ∧
    tokensIn s.legend message = .ok tokens

/-- A document is opened anew while a request for the tokens of the one before waits. -/
structure Reopens (uri : String) (client number : Nat) (version : Int) (h : Hub)
    (moment : Moment) : Prop where
  opening : ∃ id b s, moment.Does (.openDocument id) ∧ h.buffers[id]? = some b ∧ uriOf b = uri ∧
    h.sessions.find? b.language = some s ∧ s.client = client
  waiting : ∃ c, h.fleet.connections[client]? = some c ∧
    (number, .tokens uri version) ∈ c.client.pending

/-- The server of a session without documents is to be restarted. -/
def Drops (client : Nat) (h : Hub) (moment : Moment) : Prop :=
  ∃ language s, moment.Does (.restart language) ∧ h.sessions.find? language = some s ∧
    s.client = client ∧ s.documents = []

/-- The pipe of a process that is started fails in a way that is not expected of pipes, and the deed
raises. -/
structure Raises (client : Nat) (h : Hub) (moment : Moment) : Prop where
  client : client = h.fleet.connections.length
  raised : ∃ fault : PipeFault, fault.isExpected = false ∧
    ((∃ id, moment.Does (.openDocument id) ∧
        ((openDocument id).start h).1 = .error (.pipe fault)) ∨
      ∃ language, moment.Does (.restart language) ∧
        ((restart language).start h).1 = .error (.pipe fault))

end Hub

/-- The sessions and connections of a hub. -/
structure Roster where
  sessions : Table Session
  connections : List Connection

/-- The roster of a hub. -/
def Hub.roster (h : Hub) : Roster :=
  ⟨h.sessions, h.fleet.connections⟩

namespace Roster

/-- A session has a document. -/
structure Has (R : Roster) (language : String) (s : Session) (uri : String) (d : TrackedDocument) :
    Prop where
  session : R.sessions.find? language = some s
  document : s.documents.find? uri = some d

/-- Change the session of a language. -/
def alter (R : Roster) (language : String) (change : Session → Session) : Roster :=
  { R with sessions := R.sessions.alter language change }

/-- Change a document of a session. -/
def alterDocument (R : Roster) (language uri : String)
    (change : TrackedDocument → TrackedDocument) : Roster :=
  R.alter language fun s => { s with documents := s.documents.alter uri change }

/-- Change one connection. -/
def modify (R : Roster) (client : Nat) (change : Connection → Connection) : Roster :=
  { R with connections := R.connections.modify client change }

/-- The client is not alive. -/
def Dead (R : Roster) (client : Nat) : Prop :=
  ∀ c, R.connections[client]? = some c → c.client.state.isAlive = false

/-- All requests for the tokens of a document that wait were made for one that is opened anew at
the moment. -/
def Outdated (R : Roster) (h₀ : Hub) (moment : Moment) (client : Nat) (uri : String) : Prop :=
  ∀ c number version, R.connections[client]? = some c →
    (number, RequestKind.tokens uri version) ∈ c.client.pending →
      Hub.Reopens uri client number version h₀ moment

end Roster

/-- What can happen at a moment. -/
inductive Shift (h₀ : Hub) (moment : Moment) : Roster → Roster → Prop
  /-- Time goes by. -/
  | eased {R : Roster} {connections : List Connection} (heased : Eased R.connections connections) :
    Shift h₀ moment R { R with connections }
  /-- A message that concerns no document is written. -/
  | noted {R : Roster} (client : Nat) {m : Outgoing} (hm : Fleet.Neutral m) :
    Shift h₀ moment R (R.modify client (·.receive m.frame))
  /-- A server that is ready is asked for the tokens of a document. -/
  | asked {R : Roster} {language uri : String} {s : Session} {d : TrackedDocument} {c : Connection}
    (hd : R.Has language s uri d) (hc : R.connections[s.client]? = some c)
    (hready : c.client.state = .ready) :
    Shift h₀ moment R (R.modify s.client
      (·.ask (Outgoing.tokens c.client.nextId uri).frame (.tokens uri d.version)))
  /-- A server is told to open a document whose tokens it was not asked for, unless it was opened
  before. -/
  | announced {R : Roster} {language uri : String} {s : Session} {d : TrackedDocument}
    (name : String) (text : Text) (hd : R.Has language s uri d)
    (houtdated : R.Outdated h₀ moment s.client uri) :
    Shift h₀ moment R ((R.modify s.client
      (·.receive (Outgoing.didOpen uri name text d.version).frame)).alterDocument language uri
        fun d => { d with opened := true })
  /-- A server is told of the changes of a document. -/
  | changed {R : Roster} {language uri : String} {s : Session} {d : TrackedDocument}
    (changes : List Json) (hd : R.Has language s uri d) :
    Shift h₀ moment R ((R.alterDocument language uri fun d' =>
      { d' with version := d.version + 1 }).modify s.client
        (·.receive (Outgoing.didChange uri (d.version + 1) changes).frame))
  /-- The changes of a document are lost on the way. -/
  | lost {R : Roster} {language uri : String} {s : Session} {d : TrackedDocument}
    (hd : R.Has language s uri d) :
    Shift h₀ moment R (R.alterDocument language uri fun d' => { d' with version := d.version + 1 })
  /-- The answer to a request gives the tokens of the version that a document has. -/
  | colored {R : Roster} {connections : List Connection} {language uri : String} {s : Session}
    {d : TrackedDocument} {tokens : List SemanticToken} {number : Int} (hR : R = h₀.roster)
    (heased : Eased R.connections connections) (hd : R.Has language s uri d)
    (hpaired : h₀.pairing? = some ⟨s.client, number, .tokens uri d.version⟩)
    (hcolors : Hub.Colors language uri s tokens h₀ moment) :
    Shift h₀ moment R (({ R with connections } : Roster).alterDocument language uri fun d =>
      { d with tokens, tokensVersion := d.version })
  /-- A server that is starting names its kinds of tokens. -/
  | labelled {R : Roster} {language : String} {s : Session} {c : Connection} (legend : List String)
    (hs : R.sessions.find? language = some s) (hc : R.connections[s.client]? = some c)
    (hstarting : c.client.state = .starting) :
    Shift h₀ moment R (R.alter language fun s => { s with legend })
  /-- A server that is starting becomes ready. -/
  | readied {R : Roster} {language : String} {s : Session} {c : Connection} (encoding : Encoding)
    (hs : R.sessions.find? language = some s) (hc : R.connections[s.client]? = some c)
    (hstarting : c.client.state = .starting) :
    Shift h₀ moment R ((R.alter language fun s => { s with encoding }).modify s.client fun c =>
      { c with client := c.client.markReady })
  /-- A buffer gets a document, in place of the one for the same uri. -/
  | adopted {R : Roster} {id : Nat} {b : Buffer} {s : Session}
    (hs : R.sessions.find? b.language = some s)
    (houtdated : R.Outdated h₀ moment s.client (Hub.uriOf b)) :
    Shift h₀ moment R (R.alter b.language fun s =>
      { s with documents := s.documents.put (Hub.uriOf b) { buffer := id, uri := Hub.uriOf b } })
  /-- The documents for a uri are closed. -/
  | closed {R : Roster} (uri : String) :
    Shift h₀ moment R { R with
      sessions := R.sessions.map fun entry =>
        (entry.1, { entry.2 with documents := entry.2.documents.erase uri }) }
  /-- A client is started for a language that has none that is alive, and documents go over to it,
  which are as if they had not been told of unless they are inherited. -/
  | joined {R : Roster} {language : String} {s : Session} {c : Connection}
    {sessions : Table Session} (hnewborn : c.Newborn) (hclient : s.client = R.connections.length)
    (hfind : ∀ other, sessions.find? other =
      if other = language then some s else R.sessions.find? other)
    (hdead : ∀ old, R.sessions.find? language = some old → R.Dead old.client)
    (hdocuments : ∀ uri d, s.documents.find? uri = some d → d.uri = uri ∧
      (d.opened = false ∧ d.tokens = [] ∨ Hub.Inherits language uri s.client d h₀ moment)) :
    Shift h₀ moment R ⟨sessions, R.connections ++ [c]⟩
  /-- A process is started that is stopped again, or whose start raises. -/
  | stillborn {R : Roster} {c : Connection} (hnewborn : c.Newborn)
    (hlost : c.client.state.isAlive = false ∨ Hub.Raises R.connections.length h₀ moment) :
    Shift h₀ moment R { R with connections := R.connections ++ [c] }
  /-- Sessions end whose servers are not alive, or that are dropped. -/
  | ended {R : Roster} {sessions : Table Session}
    (hended : ∀ language, sessions.find? language = R.sessions.find? language ∨
      sessions.find? language = none ∧ ∀ s, R.sessions.find? language = some s →
        R.Dead s.client ∨ Hub.Drops s.client h₀ moment) :
    Shift h₀ moment R { R with sessions }

/-- The roster is reached from that of a hub at a moment. -/
def Passage (h₀ : Hub) (moment : Moment) (R : Roster) : Prop :=
  Relation.ReflTransGen (Shift h₀ moment) h₀.roster R

namespace Roster

variable {R : Roster} {language other uri uri' : String} {s s' : Session} {d d' : TrackedDocument}

theorem find?_alter (R : Roster) (language : String) (change : Session → Session)
    (other : String) :
    (R.alter language change).sessions.find? other =
      if other = language then (R.sessions.find? language).map change
      else R.sessions.find? other :=
  Table.find?_alter R.sessions language change other

theorem of_find?_alter {change : Session → Session}
    (hs' : (R.alter language change).sessions.find? other = some s') :
    ∃ s, R.sessions.find? other = some s ∧ s' = if other = language then change s else s := by
  rw [find?_alter] at hs'
  by_cases hother : other = language
  · subst hother
    rw [if_pos rfl] at hs'
    obtain ⟨s, hs, rfl⟩ := Option.map_eq_some_iff.1 hs'
    exact ⟨s, hs, by rw [if_pos rfl]⟩
  · rw [if_neg hother] at hs'
    exact ⟨s', hs', by rw [if_neg hother]⟩

/-- A document after one was changed. -/
theorem Has.of_alterDocument {change : TrackedDocument → TrackedDocument}
    (h : (R.alterDocument language uri change).Has other s' uri' d') :
    ∃ s d, R.Has other s uri' d ∧ s'.client = s.client ∧ s'.legend = s.legend ∧
      s'.encoding = s.encoding ∧
        d' = if other = language ∧ uri' = uri then change d else d := by
  obtain ⟨s, hs, rfl⟩ := of_find?_alter h.session
  have hd' := h.document
  by_cases hother : other = language
  · rw [if_pos hother] at hd' ⊢
    dsimp only at hd'
    rw [Table.find?_alter] at hd'
    by_cases huri : uri' = uri
    · subst huri
      rw [if_pos rfl] at hd'
      obtain ⟨d, hd, rfl⟩ := Option.map_eq_some_iff.1 hd'
      exact ⟨s, d, ⟨hs, hd⟩, rfl, rfl, rfl, by rw [if_pos ⟨hother, rfl⟩]⟩
    · rw [if_neg huri] at hd'
      exact ⟨s, d', ⟨hs, hd'⟩, rfl, rfl, rfl, by rw [if_neg fun h => huri h.2]⟩
  · rw [if_neg hother] at hd' ⊢
    exact ⟨s, d', ⟨hs, hd'⟩, rfl, rfl, rfl, by rw [if_neg fun h => hother h.1]⟩

theorem connection_of_modify {client id : Nat} {change : Connection → Connection} {c' : Connection}
    (hc' : (R.modify client change).connections[id]? = some c') :
    ∃ c, R.connections[id]? = some c ∧ c' = if client = id then change c else c := by
  rw [modify, List.getElem?_modify] at hc'
  obtain ⟨c, hc, rfl⟩ := Option.map_eq_some_iff.1 hc'
  exact ⟨c, hc, by split <;> rfl⟩

theorem connection_modify {client id : Nat} (change : Connection → Connection) {c : Connection}
    (hc : R.connections[id]? = some c) :
    (R.modify client change).connections[id]? = some (if client = id then change c else c) := by
  rw [modify, List.getElem?_modify, hc]
  split <;> rfl

/-- A connection is one of those that were there or the one behind them. -/
theorem connection_of_concat {connections : List Connection} {c c' : Connection} {id : Nat}
    (hc' : (connections ++ [c])[id]? = some c') :
    connections[id]? = some c' ∨ id = connections.length ∧ c' = c := by
  rcases Nat.lt_or_ge id connections.length with hlt | hge
  · exact .inl ((List.getElem?_append_left hlt).symm.trans hc')
  · have hlast : [c][id - connections.length]? = some c' :=
      (List.getElem?_append_right hge).symm.trans hc'
    obtain ⟨hlength, -⟩ := List.getElem?_eq_some_iff.1 hlast
    rw [List.length_singleton] at hlength
    exact .inr ⟨by omega, List.mem_singleton.1 (List.mem_of_getElem? hlast)⟩

/-- The uri of each document is the one by which it is found. -/
def Addressed (R : Roster) : Prop :=
  ∀ language s uri d, R.Has language s uri d → d.uri = uri

theorem Addressed.alterDocument (h : R.Addressed) (language uri : String)
    {change : TrackedDocument → TrackedDocument} (hchange : ∀ d, (change d).uri = d.uri) :
    (R.alterDocument language uri change).Addressed := by
  intro other s' uri' d' hd'
  obtain ⟨s, d, hd, -, -, -, rfl⟩ := hd'.of_alterDocument
  have huri := h other s uri' d hd
  split
  · exact (hchange d).trans huri
  · exact huri

/-- Sessions change, but not their documents. -/
theorem Addressed.alter (h : R.Addressed) (language : String) {change : Session → Session}
    (hchange : ∀ s, (change s).documents = s.documents) : (R.alter language change).Addressed := by
  intro other s' uri d hd
  obtain ⟨s, hs, rfl⟩ := of_find?_alter hd.session
  refine h other s uri d ⟨hs, ?_⟩
  have hfound := hd.document
  split at hfound
  · rwa [hchange] at hfound
  · exact hfound

end Roster

variable {h₀ : Hub} {moment : Moment} {R R' : Roster}

theorem Shift.addressed (hshift : Shift h₀ moment R R') (h : R.Addressed) : R'.Addressed := by
  have hsame : ∀ connections : List Connection, ({ R with connections } : Roster).Addressed :=
    fun _ language s uri d hd => h language s uri d ⟨hd.session, hd.document⟩
  cases hshift with
  | eased | noted | asked | stillborn => exact hsame _
  | @announced language uri s d name text hd houtdated =>
    exact (hsame _).alterDocument language uri fun _ => rfl
  | @changed language uri s d changes hd =>
    have hchanged : (R.alterDocument language uri fun d' =>
        { d' with version := d.version + 1 }).Addressed :=
      h.alterDocument language uri fun _ => rfl
    exact fun other s' uri' d' hd' => hchanged other s' uri' d' ⟨hd'.session, hd'.document⟩
  | lost hd => exact h.alterDocument _ _ fun _ => rfl
  | colored => exact (hsame _).alterDocument _ _ fun _ => rfl
  | labelled => exact h.alter _ fun _ => rfl
  | @readied language s c encoding hs hc hstarting =>
    have haltered : (R.alter language fun s => { s with encoding }).Addressed :=
      h.alter language fun _ => rfl
    exact fun other s' uri' d' hd' => haltered other s' uri' d' ⟨hd'.session, hd'.document⟩
  | @adopted id b s hs houtdated =>
    intro other s' uri d hd
    obtain ⟨s₁, hs₁, rfl⟩ := Roster.of_find?_alter hd.session
    have hfound := hd.document
    split at hfound
    · by_cases huri : uri = Hub.uriOf b
      · subst huri
        rw [Table.find?_put_self] at hfound
        rw [← Option.some.inj hfound]
      · rw [Table.find?_put_of_ne _ _ huri] at hfound
        exact h other s₁ uri d ⟨hs₁, hfound⟩
    · exact h other s₁ uri d ⟨hs₁, hfound⟩
  | closed uri =>
    intro other s' uri' d hd
    obtain ⟨s, hs, rfl⟩ := Option.map_eq_some_iff.1 ((Table.find?_map R.sessions
      (fun s => { s with documents := s.documents.erase uri }) other).symm.trans hd.session)
    exact h other s uri' d ⟨hs, (Table.of_find?_erase hd.document).2⟩
  | @joined language s c sessions hnewborn hclient hfind hdead hdocuments =>
    intro other s' uri d hd
    have hs' := hd.session
    rw [hfind] at hs'
    split at hs'
    · obtain rfl := Option.some.inj hs'
      exact (hdocuments uri d hd.document).1
    · exact h other s' uri d ⟨hs', hd.document⟩
  | ended hended =>
    intro other s' uri d hd
    rcases hended other with hsame | ⟨hnone, -⟩
    · exact h other s' uri d ⟨hsame.symm.trans hd.session, hd.document⟩
    · rw [show Table.find? _ other = some s' from hd.session] at hnone
      cases hnone

namespace Roster

/-- No tokens are awaited from a server that is starting. -/
def Silent (R : Roster) : Prop :=
  ∀ (id : Nat) (c : Connection), R.connections[id]? = some c → c.client.state = .starting →
    ∀ entry ∈ c.client.pending, entry.2.isStart = true

theorem Silent.eased (h : R.Silent) {connections : List Connection}
    (heased : Eased R.connections connections) : ({ R with connections } : Roster).Silent := by
  intro id c' hc' hstarting entry hentry
  obtain ⟨c, hc, heases⟩ := heased.some_left hc'
  have halive : c'.client.state.isAlive = true := by
    rw [hstarting]
    rfl
  exact h id c hc ((heases.state_eq halive).symm.trans hstarting) entry
    (heases.pending entry hentry)

/-- The clients of connections stay as they are. -/
theorem Silent.receive (h : R.Silent) (client : Nat) (data : Bytes) :
    (R.modify client (·.receive data)).Silent := by
  intro id c' hc' hstarting
  obtain ⟨c, hc, rfl⟩ := connection_of_modify hc'
  by_cases hid : client = id
  · rw [if_pos hid] at hstarting ⊢
    exact h id c hc hstarting
  · rw [if_neg hid] at hstarting ⊢
    exact h id c hc hstarting

theorem Silent.concat (h : R.Silent) {c : Connection} (hnewborn : c.Newborn)
    (sessions : Table Session) : Roster.Silent ⟨sessions, R.connections ++ [c]⟩ := by
  intro id c' hc' hstarting
  rcases connection_of_concat hc' with hold | ⟨-, rfl⟩
  · exact h id c' hold hstarting
  · exact hnewborn.pending

end Roster

theorem Shift.silent (hshift : Shift h₀ moment R R') (h : R.Silent) : R'.Silent := by
  cases hshift with
  | eased heased => exact h.eased heased
  | noted client hm => exact h.receive client _
  | announced => exact h.receive _ _
  | changed => exact h.receive _ _
  | lost | labelled | adopted | closed | ended => exact h
  | colored hR heased => exact h.eased heased
  | asked hd hc hready =>
    intro id c' hc' hstarting
    obtain ⟨c₀, hc₀, rfl⟩ := Roster.connection_of_modify hc'
    split at hstarting
    · next hid =>
      subst hid
      obtain rfl := Option.some.inj (hc.symm.trans hc₀)
      cases hready.symm.trans hstarting
    · next hid =>
      rw [if_neg hid]
      exact h id c₀ hc₀ hstarting
  | readied encoding hs hc hstarting =>
    intro id c' hc' hstarting'
    obtain ⟨c₀, hc₀, rfl⟩ := Roster.connection_of_modify hc'
    split at hstarting'
    · next hid =>
      subst hid
      obtain rfl := Option.some.inj (hc.symm.trans hc₀)
      rw [Client.markReady, if_pos hstarting] at hstarting'
      cases hstarting'
    · next hid =>
      rw [if_neg hid]
      exact h id c₀ hc₀ hstarting'
  | joined hnewborn => exact h.concat hnewborn _
  | stillborn hnewborn => exact h.concat hnewborn _

theorem Passage.silent (h : h₀.roster.Silent) (hpassage : Passage h₀ moment R) : R.Silent := by
  induction hpassage with
  | refl => exact h
  | tail _ hshift ih => exact hshift.silent ih

theorem Passage.addressed (h : h₀.roster.Addressed) (hpassage : Passage h₀ moment R) :
    R.Addressed := by
  induction hpassage with
  | refl => exact h
  | tail _ hshift ih => exact hshift.addressed ih

end TextEditor.Server
