import TextEditor.Proofs.Server.Documents

/-!
# Stale tokens

An answer gives the tokens of a document as it was when they were asked for.  It is taken in if the
document still has the version of then, and that tells whether the server was told of a change
since, but for a document that was opened anew: versions start over with it.
-/

namespace TextEditor.Server

/-- The tokens of a document were asked for under a number, and nothing that opens or changes the
document was written since. -/
def Connection.Quiet (c : Connection) (number : Nat) (uri : String) : Prop :=
  ∃ (earlier : List Bytes) (later : List Outgoing),
    c.process.received =
      earlier ++ (Outgoing.tokens number uri).frame :: later.map Outgoing.frame ∧
    ∀ m ∈ later, m.version? uri = none

theorem Connection.Quiet.append {c c' : Connection} {number : Nat} {uri : String} {m : Outgoing}
    (h : c.Quiet number uri) (hm : m.version? uri = none)
    (hreceived : c'.process.received = c.process.received ++ [m.frame]) : c'.Quiet number uri := by
  obtain ⟨earlier, later, heq, hquiet⟩ := h
  refine ⟨earlier, later ++ [m], ?_, fun m' hm' => ?_⟩
  · rw [hreceived, heq, List.map_append, List.append_assoc]
    rfl
  · rcases List.mem_append.1 hm' with hold | hnew
    · exact hquiet m' hold
    · rw [List.mem_singleton.1 hnew]
      exact hm

namespace Hub

/-- What waits for the tokens of a document was asked before a change of its version, or the
document is as it was then, or it was opened anew meanwhile. -/
def Dated (h₀ : Hub) (moments : List Moment) (_language : String) (s : Session) (uri : String)
    (d : TrackedDocument) (c : Connection) : Prop :=
  ∀ number version, (number, RequestKind.tokens uri version) ∈ c.client.pending →
    version < d.version ∨ version = d.version ∧ c.Quiet number uri ∨
      h₀.Once moments (Reopens uri s.client number version)

variable {h₀ h : Hub} {past moments : List Moment} {moment : Moment} {language uri : String}
variable {s s' : Session} {d d' : TrackedDocument} {c c' : Connection}

namespace Dated

/-- Nothing is asked, and nothing is told of the document but what makes its version newer. -/
theorem of_le (h : Dated h₀ moments language s uri d c)
    (hpending : ∀ entry ∈ c'.client.pending, entry ∈ c.client.pending)
    (hclient : s'.client = s.client)
    (hversion : d.version < d'.version ∨ d'.version = d.version ∧
      ∀ number, c.Quiet number uri → c'.Quiet number uri) :
    Dated h₀ moments language s' uri d' c' := by
  intro number version hwaits
  rw [hclient]
  rcases h number version (hpending _ hwaits) with hold | ⟨rfl, hquiet⟩ | hreopened
  · rcases hversion with hnewer | ⟨hsame, -⟩
    · exact .inl (Int.lt_trans hold hnewer)
    · exact .inl (hsame ▸ hold)
  · rcases hversion with hnewer | ⟨hsame, hkeeps⟩
    · exact .inl hnewer
    · exact .inr (.inl ⟨hsame.symm, hkeeps number hquiet⟩)
  · exact .inr (.inr hreopened)

end Dated

theorem bears_dated (h₀ : Hub) (past : List Moment) (moment : Moment) :
    Bears (h₀.after past) moment (Dated h₀ (past ++ [moment])) where
  session hclient _ _ h :=
    h.of_le (fun _ hentry => hentry) hclient (.inr ⟨rfl, fun _ hquiet => hquiet⟩)
  eased heases h := by
    refine h.of_le heases.pending rfl (.inr ⟨rfl, fun number hquiet => ?_⟩)
    rw [Connection.Quiet, heases.received]
    exact hquiet
  told m hm h :=
    h.of_le (fun _ hentry => hentry) rfl (.inr ⟨rfl, fun _ hquiet => hquiet.append hm rfl⟩)
  asked {language s uri uri' d d' c} hsame h := by
    intro number version hwaits
    rcases List.mem_append.1 hwaits with hold | hnew
    · refine (h number version hold).imp_right (Or.imp_left (And.imp_right fun hquiet => ?_))
      exact hquiet.append (m := .tokens c.client.nextId uri) rfl rfl
    · obtain ⟨rfl, hkind⟩ := Prod.mk.inj (List.mem_singleton.1 hnew)
      obtain ⟨rfl, rfl⟩ := RequestKind.tokens.inj hkind
      rw [hsame rfl]
      exact .inr (.inl ⟨rfl, c.process.received, [], rfl, nofun⟩)
  announced _ _ houtdated _ number version hwaits :=
    .inr (.inr (once_last (houtdated number version hwaits)))
  changed _ h := h.of_le (fun _ hentry => hentry) rfl (.inl (Int.lt_succ _))
  lost h := h.of_le (fun _ hentry => hentry) rfl (.inl (Int.lt_succ _))
  colored _ _ h := h
  labelled _ _ h := h
  readied _ hstarting h := by
    refine h.of_le (fun entry hentry => ?_) rfl (.inr ⟨rfl, fun _ hquiet => hquiet⟩)
    rwa [Client.markReady, if_pos hstarting] at hentry
  adopted _ houtdated number version hwaits :=
    .inr (.inr (once_last (houtdated number version hwaits)))
  joined hnewborn _ number version hwaits := by
    cases hnewborn.pending _ hwaits

/-- The tokens of a document are as they were, or it has none, or they answer a request for them
that is handled at the moment. -/
def Stored (h₀ : Hub) (moment : Moment) (language : String) (s : Session) (uri : String)
    (d : TrackedDocument) (_c : Connection) : Prop :=
  d.tokens = [] ∨ (∃ old, h₀.document? language uri = some old ∧ d.tokens = old.tokens) ∨
    moment = .handle ∧ ∃ number version, h₀.pairing? = some ⟨s.client, number, .tokens uri version⟩

theorem bears_stored (h₀ : Hub) (moment : Moment) : Bears h₀ moment (Stored h₀ moment) where
  session hclient _ _ h := by
    rw [Stored, hclient]
    exact h
  eased _ h := h
  told _ _ h := h
  asked _ h := h
  announced _ _ _ h := h
  changed _ h := h
  lost h := h
  colored _ hcolors _ := .inr (.inr ⟨hcolors.moment, hcolors.paired⟩)
  labelled _ _ h := h
  readied _ _ h := h
  adopted _ _ := .inl rfl
  joined {language s uri d c} _ hd := by
    rcases hd with ⟨-, hnone⟩ | hinherits
    · exact .inl hnone
    · obtain ⟨old, hold, -, hfound⟩ := hinherits.old
      refine .inr (.inl ⟨d, ?_, rfl⟩)
      rw [document?, hold]
      exact hfound

theorem dated_after (hfresh : h₀.Fresh) (moments : List Moment) :
    (h₀.after moments).roster.Each (Dated h₀ moments) := by
  refine each_after hfresh (bears_dated h₀) (fun past moment language s uri d c h => ?_) moments
  exact fun number version hwaits =>
    (h number version hwaits).imp_right (Or.imp_right fun honce => honce.append _)

/-- At no moment does a document get tokens but those that answer a request for them. -/
theorem stored_after (hfresh : h₀.Fresh) (past : List Moment) (moment : Moment)
    (hd : ((h₀.after past).pass moment).document? language uri = some d) :
    ∃ s c, Stored (h₀.after past) moment language s uri d c := by
  have htidy := tidy_after (tidy_fresh hfresh) past
  have hstored : (h₀.after past).roster.Each (Stored (h₀.after past) moment) := by
    intro language s uri d c hd _
    refine .inr (.inl ⟨d, ?_, rfl⟩)
    rw [document?, show (h₀.after past).sessions.find? language = some s from hd.session]
    exact hd.document
  have hnow := (passage_after hfresh past moment).each (bears_stored _ moment)
    (orderly_of_tidy htidy) (silent_fresh hfresh past) hstored
  rw [after_append] at hnow
  obtain ⟨s, hs, hfound⟩ := document?_eq_some hd
  have hserved := (orderly_of_tidy (tidy_pass htidy moment)).served language s hs
  exact ⟨s, _, hnow language s uri d _ ⟨hs, hfound⟩ (List.getElem?_eq_getElem hserved)⟩

/-- The answer to a request for tokens is dropped, or it is for the version that the document
has. -/
theorem settled_of_pairing? (htidy : h.face.Tidy) {client : Nat} {number version : Int}
    (hp : h.pairing? = some ⟨client, number, .tokens uri version⟩) :
    let h' := (handleNext.start h).2
    h'.sessions = h.sessions ∨ ∃ s d tokens, h.roster.Has s.language s uri d ∧ s.client = client ∧
      d.version = version ∧ h'.sessions = (h.roster.alterDocument s.language uri fun d =>
        { d with tokens, tokensVersion := d.version }).sessions := by
  obtain ⟨s, name, message, hmem, hclient, -, hnext⟩ := start_handleNext_of_pairing? hp
  have hs : h.sessions.find? s.language = some s := htidy.regular.find?_of_mem_values hmem
  dsimp only
  rw [hnext]
  dsimp only
  cases herror : message.field? "error" with
  | some error => exact .inl (congrArg Roster.sessions (roster_settle_of_error herror name _))
  | none =>
    unfold settle
    rw [herror]
    rcases roster_handleTokens s uri version message
      { h.dequeued with fleet := (h.dequeued.fleet.popRequest client number).2 } with
      hsame | ⟨d, tokens, hd, hversion, -, hroster⟩
    · exact .inl (congrArg Roster.sessions hsame)
    · exact .inr ⟨s, d, tokens, ⟨hs, hd⟩, hclient, hversion, congrArg Roster.sessions hroster⟩

/-- At no moment of a run, whichever order its deeds and its responses come in, does a document get
tokens but from a response that is paired with a request for them.  The response is dropped, and no
session changes; or it was asked of the client of the document while that had the version it still
has, and nothing that opens or changes the document was written to that client since, or a document
for its uri was opened anew while the request waited. -/
theorem quiet_of_stored (hfresh : h₀.Fresh) (past : List Moment) (moment : Moment) :
    let h := h₀.after past
    let h' := h.pass moment
    (∀ language uri d', h'.document? language uri = some d' →
      d'.tokens = [] ∨ (∃ d, h.document? language uri = some d ∧ d'.tokens = d.tokens) ∨
        moment = .handle ∧ ∃ client number version,
          h.pairing? = some ⟨client, number, .tokens uri version⟩) ∧
    ∀ client number uri version, moment = .handle →
      h.pairing? = some ⟨client, number, .tokens uri version⟩ → h'.sessions = h.sessions ∨
        ∃ s d tokens c n, h.roster.Has s.language s uri d ∧ s.client = client ∧
          d.version = version ∧ h'.sessions = (h.roster.alterDocument s.language uri fun d =>
            { d with tokens, tokensVersion := d.version }).sessions ∧
          h.fleet.connections[client]? = some c ∧ number = (n : Nat) ∧
          (c.Quiet n uri ∨ h₀.Once past (Reopens uri client n version)) := by
  intro h h'
  refine ⟨fun language uri d' hd' => ?_, fun client number uri version hmoment hp => ?_⟩
  · obtain ⟨s, c, hstored⟩ := stored_after hfresh past moment hd'
    rcases hstored with hnone | hold | ⟨hmoment, number, version, hp⟩
    · exact .inl hnone
    · exact .inr (.inl hold)
    · exact .inr (.inr ⟨hmoment, s.client, number, version, hp⟩)
  · subst hmoment
    have htidy := tidy_after (tidy_fresh hfresh) past
    rcases settled_of_pairing? htidy hp with hsame | ⟨s, d, tokens, hd, rfl, rfl, hsessions⟩
    · exact .inl hsame
    · obtain ⟨c, n, hc, hnumber, hwaits⟩ := waits_of_pairing? hp
      refine .inr ⟨s, d, tokens, c, n, hd, rfl, rfl, hsessions, hc, hnumber, ?_⟩
      rcases dated_after hfresh past s.language s uri d c hd hc n d.version hwaits with
        hlt | ⟨-, hquiet⟩ | hreopened
      · exact absurd hlt (Int.lt_irrefl _)
      · exact .inl hquiet
      · exact .inr hreopened

/-- A document changes between two requests for its tokens: the first response comes late, and the
second is taken in. -/
theorem quiet_of_stored_twice :
    let h₀ : Hub := { settings := {}, root := none, fleet := { capacity := 4 } }
    let start := Utf8.encode "\x7b\"id\":0,\"result\":null\x7d".toList
    let first := Utf8.encode "\x7b\"id\":1,\"result\":\x7b\"data\":[0,0,1,0,0]\x7d\x7d".toList
    let second := Utf8.encode "\x7b\"id\":2,\"result\":\x7b\"data\":[0,0,2,0,0]\x7d\x7d".toList
    let past : List Moment :=
      [.turn (.deed (.create "/a.rs" ['x'] 24 80 {})) nofun, .turn (.deed (.openDocument 0)) nofun,
        .turn (.deed (.post (.response "rust-analyzer" start))) nofun, .handle,
        .turn (.deed (.edit 0 {} (.perform (.insertText ['y'])))) nofun,
        .turn (.deed .syncChanges) nofun,
        .turn (.deed (.post (.response "rust-analyzer" first))) nofun, .handle,
        .turn (.deed (.post (.response "rust-analyzer" second))) nofun]
    let h := h₀.after past
    h₀.Fresh ∧ (h.pass .handle).sessions ≠ h.sessions ∧
      ∃ s d tokens c n, h.roster.Has s.language s "file:///a.rs" d ∧ s.client = 0 ∧ d.version = 1 ∧
        (h.pass .handle).sessions = (h.roster.alterDocument s.language "file:///a.rs" fun d =>
          { d with tokens, tokensVersion := d.version }).sessions ∧
        h.fleet.connections[0]? = some c ∧ (2 : Int) = (n : Nat) ∧
        (c.Quiet n "file:///a.rs" ∨ h₀.Once past (Reopens "file:///a.rs" 0 n 1)) := by
  intro h₀ start first second past h
  have hfresh : h₀.Fresh := ⟨rfl, rfl, rfl⟩
  have hp : h.pairing? = some ⟨0, 2, .tokens "file:///a.rs" 1⟩ := by decide +kernel
  have hversions : ((h.pass .handle).document? "rust" "file:///a.rs").map (·.tokensVersion) ≠
      (h.document? "rust" "file:///a.rs").map (·.tokensVersion) := by
    decide +kernel
  have hchanged : (h.pass .handle).sessions ≠ h.sessions := by
    intro hsame
    rw [document?, hsame] at hversions
    exact hversions rfl
  have hstored := (quiet_of_stored hfresh past .handle).2 0 2 "file:///a.rs" 1 rfl
  have hrun : h = h₀.after past := rfl
  rw [← hrun] at hstored
  clear_value h
  exact ⟨hfresh, hchanged, (hstored hp).resolve_left hchanged⟩

/-- A document is closed, its buffer changes and it is opened again at the same server, which is
told of the new text: the tokens that were asked for before are taken for those of the new text. -/
theorem stored_of_reopening :
    let start := Utf8.encode "\x7b\"id\":0,\"result\":null\x7d".toList
    let first := Utf8.encode "\x7b\"id\":1,\"result\":\x7b\"data\":[0,0,1,0,0]\x7d\x7d".toList
    let h : Hub :=
      Hub.after { settings := {}, root := none, fleet := { capacity := 4 } }
        [.turn (.deed (.create "/a.rs" ['x'] 24 80 {})) nofun,
          .turn (.deed (.openDocument 0)) nofun,
          .turn (.deed (.post (.response "rust-analyzer" start))) nofun, .handle,
          .turn (.deed (.closeDocument 0)) nofun,
          .turn (.deed (.edit 0 {} (.perform (.insertText ['y'])))) nofun,
          .turn (.deed (.openDocument 0)) nofun,
          .turn (.deed (.post (.response "rust-analyzer" first))) nofun]
    let tokens (h : Hub) :=
      (h.document? "rust" "file:///a.rs").map fun d => (d.tokensVersion, d.tokens.length)
    h.pairing? = some ⟨0, 1, .tokens "file:///a.rs" 0⟩ ∧
      (h.fleet.connections[0]?.map fun c => c.process.received) =
        some ([.start 0 "rust-analyzer" none, .started,
          .didOpen "file:///a.rs" "rust" ['x'] 0, .tokens 1 "file:///a.rs",
          .didOpen "file:///a.rs" "rust" ['y', 'x'] 0,
          .tokens 2 "file:///a.rs"].map Outgoing.frame) ∧
      tokens h = some (-1, 0) ∧ tokens (h.pass .handle) = some (0, 1) := by
  decide +kernel

end Hub

end TextEditor.Server
