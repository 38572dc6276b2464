import TextEditor.Proofs.Server.Documents

/-!
# What documents say of their servers

A document is marked as opened when its server was told of it, and its tokens were given by the
client that its session still has, under the legend and the encoding that the session has now.  The
exception are documents that went over to another client while a document of their language was
opened: these keep what they said of the one before.
-/

namespace TextEditor.Server

/-- The server was told to open the document. -/
def Connection.ToldOf (c : Connection) (uri : String) : Prop :=
  ∃ name text version, (Outgoing.didOpen uri name text version).frame ∈ c.process.received

namespace Hub

/-- What a document says of its server came about in a run: its server was told of it and gave its
tokens, or it was inherited with what it says. -/
structure Accounted (h₀ : Hub) (moments : List Moment) (language : String) (s : Session)
    (uri : String) (d : TrackedDocument) (c : Connection) : Prop where
  opened : d.opened = true → c.ToldOf uri ∨
    h₀.Once moments fun h moment =>
      ∃ old, Inherits language uri s.client old h moment ∧ old.opened = true
  tokens : d.tokens ≠ [] →
    (c.client.state ≠ .starting ∧ h₀.Once moments (Colors language uri s d.tokens)) ∨
    h₀.Once moments fun h moment =>
      ∃ old, Inherits language uri s.client old h moment ∧ old.tokens = d.tokens

variable {h₀ h : Hub} {past moments : List Moment} {moment : Moment} {language uri : String}
variable {s s' : Session} {d d' : TrackedDocument} {c c' : Connection}

/-- It is the same to whichever session with the client, the legend and the encoding the tokens
were given. -/
theorem Colors.of_session {tokens : List SemanticToken} (h₁ : Colors language uri s tokens h moment)
    (hclient : s'.client = s.client) (hlegend : s'.legend = s.legend)
    (hencoding : s'.encoding = s.encoding) : Colors language uri s' tokens h moment := by
  obtain ⟨hmoment, ⟨s₀, hs₀, hclient₀, hlegend₀, hencoding₀⟩, hpaired, hgiven⟩ := h₁
  refine ⟨hmoment, ⟨s₀, hs₀, hclient₀.trans hclient.symm, hlegend₀.trans hlegend.symm,
    hencoding₀.trans hencoding.symm⟩, ?_, ?_⟩
  · rw [hclient]
    exact hpaired
  · rw [hlegend]
    exact hgiven

namespace Accounted

/-- Document and connection change in what does not matter. -/
theorem of_le (h : Accounted h₀ moments language s uri d c)
    (hreceived : ∀ data ∈ c.process.received, data ∈ c'.process.received)
    (hstate : c.client.state ≠ .starting → c'.client.state ≠ .starting)
    (hopened : d'.opened = d.opened) (htokens : d'.tokens = d.tokens) :
    Accounted h₀ moments language s uri d' c' where
  opened hd' := by
    refine (h.opened (hopened ▸ hd')).imp_left ?_
    rintro ⟨name, text, version, hmem⟩
    exact ⟨name, text, version, hreceived _ hmem⟩
  tokens := by
    rw [htokens]
    exact fun hd => (h.tokens hd).imp_left (And.imp_left hstate)

theorem append (h : Accounted h₀ past language s uri d c) (moment : Moment) :
    Accounted h₀ (past ++ [moment]) language s uri d c where
  opened hd := (h.opened hd).imp_right fun honce => honce.append _
  tokens hd := (h.tokens hd).imp (And.imp_right fun honce => honce.append _)
    fun honce => honce.append _

theorem of_session (h : Accounted h₀ moments language s uri d c) (hclient : s'.client = s.client)
    (hlegend : s'.legend = s.legend) (hencoding : s'.encoding = s.encoding) :
    Accounted h₀ moments language s' uri d c where
  opened hd := by
    rw [hclient]
    exact h.opened hd
  tokens hd := by
    rw [hclient]
    exact (h.tokens hd).imp_left (And.imp_right fun honce =>
      honce.mono fun _ _ hcolors => hcolors.of_session hclient hlegend hencoding)

/-- While a server is starting it has given no tokens. -/
theorem of_starting (h : Accounted h₀ moments language s uri d c)
    (hstarting : c.client.state = .starting) (hclient : s'.client = s.client)
    (hreceived : c'.process.received = c.process.received) :
    Accounted h₀ moments language s' uri d c' where
  opened hd := by
    rw [Connection.ToldOf, hreceived, hclient]
    exact h.opened hd
  tokens hd := by
    rw [hclient]
    exact .inr ((h.tokens hd).resolve_left fun hgiven => hgiven.1 hstarting)

end Accounted

theorem bears_accounted (h₀ : Hub) (past : List Moment) (moment : Moment) :
    Bears (h₀.after past) moment (Accounted h₀ (past ++ [moment])) where
  session hclient hlegend hencoding h := h.of_session hclient hlegend hencoding
  eased {_ _ _ _ c c'} heases h := by
    refine h.of_le (fun data hdata => heases.received ▸ hdata) (fun hstate hstarting => ?_) rfl rfl
    refine hstate ((heases.state_eq ?_).symm.trans hstarting)
    rw [hstarting]
    rfl
  told m _ h := h.of_le (fun _ hdata => List.mem_append_left _ hdata) id rfl rfl
  asked _ h := h.of_le (fun _ hdata => List.mem_append_left _ hdata) id rfl rfl
  announced name text _ h :=
    { opened := fun _ => .inl ⟨name, text, _, List.mem_append_right _ (List.mem_singleton.2 rfl)⟩
      tokens := h.tokens }
  changed _ h := h.of_le (fun _ hdata => List.mem_append_left _ hdata) id rfl rfl
  lost h := h.of_le (fun _ hdata => hdata) id rfl rfl
  colored hstate hcolors h :=
    { opened := h.opened
      tokens := fun _ => .inl ⟨hstate, once_last hcolors⟩ }
  labelled _ hstarting h := h.of_starting hstarting rfl rfl
  readied _ hstarting h := h.of_starting hstarting rfl rfl
  adopted _ _ := ⟨nofun, fun hnone => absurd rfl hnone⟩
  joined _ hd := by
    rcases hd with ⟨hunopened, hnone⟩ | hinherits
    · refine ⟨fun hopened => ?_, fun htokens => absurd hnone htokens⟩
      rw [hunopened] at hopened
      cases hopened
    · exact ⟨fun hopened => .inr (once_last ⟨_, hinherits, hopened⟩),
        fun _ => .inr (once_last ⟨_, hinherits, rfl⟩)⟩

/-- After every run, whichever servers crash and are replaced in it, the client of each session was
started, and each document of the session that is marked as opened was opened at that client, and
its tokens were given by that client under the legend and the encoding that the session has, unless
the document was inherited with its mark and its tokens from the client before. -/
theorem accounted_of_run (hfresh : h₀.Fresh) (moments : List Moment)
    (hs : (h₀.after moments).sessions.find? language = some s)
    (hd : s.documents.find? uri = some d) :
    ∃ c, (h₀.after moments).fleet.connections[s.client]? = some c ∧
      Accounted h₀ moments language s uri d c := by
  have htidy := tidy_after (tidy_fresh hfresh) moments
  have hserved := (orderly_of_tidy htidy).served language s hs
  have hc := List.getElem?_eq_getElem hserved
  refine ⟨_, hc, each_after hfresh (bears_accounted h₀) ?_ moments language s uri d _ ⟨hs, hd⟩ hc⟩
  exact fun past moment language s uri d c h => h.append moment

/-- A document is opened at a server that gives its tokens. -/
theorem accounted_of_run_served :
    let h₀ : Hub := { settings := {}, root := none, fleet := { capacity := 4 } }
    let start := Utf8.encode "\x7b\"id\":0,\"result\":null\x7d".toList
    let tokens := Utf8.encode "\x7b\"id\":1,\"result\":\x7b\"data\":[0,0,1,0,0]\x7d\x7d".toList
    let moments : List Moment :=
      [.turn (.deed (.create "/a.rs" ['x'] 24 80 {})) nofun, .turn (.deed (.openDocument 0)) nofun,
        .turn (.deed (.post (.response "rust-analyzer" start))) nofun, .handle,
        .turn (.deed (.post (.response "rust-analyzer" tokens))) nofun, .handle]
    h₀.Fresh ∧ ∃ s d c, d.opened = true ∧ d.tokens ≠ [] ∧
      (h₀.after moments).fleet.connections[s.client]? = some c ∧
        Accounted h₀ moments "rust" s "file:///a.rs" d c := by
  intro h₀ start tokens moments
  have hfresh : h₀.Fresh := ⟨rfl, rfl, rfl⟩
  have hdocument : (((h₀.after moments).document? "rust" "file:///a.rs").any fun d =>
      d.opened && !d.tokens.isEmpty) = true := by
    decide +kernel
  obtain ⟨d, hd, hsaid⟩ := (Option.any_eq_true _ _).1 hdocument
  obtain ⟨hopened, htokens⟩ := Bool.and_eq_true_iff.1 hsaid
  obtain ⟨s, hs, hfound⟩ := document?_eq_some hd
  obtain ⟨c, hc, haccounted⟩ := accounted_of_run hfresh moments hs hfound
  exact ⟨hfresh, s, d, c, hopened, by simpa using htokens, hc, haccounted⟩

/-- A server gives the tokens of a document and ends.  Another document is opened, and the first
goes over to the new client with its mark and its tokens, while the server was told no more than to
start. -/
theorem inherited_of_second_opening :
    let start := Utf8.encode "\x7b\"id\":0,\"result\":null\x7d".toList
    let tokens := Utf8.encode "\x7b\"id\":1,\"result\":\x7b\"data\":[0,0,1,0,0]\x7d\x7d".toList
    let h : Hub :=
      Hub.after { settings := {}, root := none, fleet := { capacity := 4 } }
        [.turn (.deed (.create "/a.rs" ['x'] 24 80 {})) nofun,
          .turn (.deed (.create "/b.rs" ['y'] 24 80 {})) nofun,
          .turn (.deed (.openDocument 0)) nofun,
          .turn (.deed (.post (.response "rust-analyzer" start))) nofun, .handle,
          .turn (.deed (.post (.response "rust-analyzer" tokens))) nofun, .handle,
          .turn (.deed (.finish 0 .closed)) nofun, .turn (.deed (.read 0)) nofun,
          .turn (.deed (.openDocument 1)) nofun]
    (h.sessions.find? "rust").map Session.client = some 1 ∧
      ((h.document? "rust" "file:///a.rs").map fun d => (d.opened, d.tokens.length)) =
        some (true, 1) ∧
      (h.fleet.connections[1]?.map fun c => (c.client.state, c.process.received)) =
        some (.starting, [(Outgoing.start 0 "rust-analyzer" none).frame]) := by
  decide +kernel

end Hub

end TextEditor.Server
