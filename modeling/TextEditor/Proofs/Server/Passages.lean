import TextEditor.Proofs.Server.Successions

/-!
# Moments, in shifts

What is heard from a server comes about in shifts as well: its start is answered while it is
starting, and tokens are taken in if they answer a request for the version that the document has.
With that every moment of a run is a passage.
-/

namespace TextEditor.Server.Hub

variable {h₀ h h' : Hub} {moment : Moment} {s : Session} {language : String}
variable {serving : Session → Prop} {agenda : List String}

/-! ## The start -/

/-- The session and the connection of a server whose start was just answered. -/
theorem Answers.connection (hanswers : h.Answers s) :
    ∃ s' c, h.roster.sessions.find? s.language = some s' ∧ s'.client = s.client ∧
      h.roster.connections[s'.client]? = some c ∧ c.client.state = .starting := by
  obtain ⟨⟨s', hs', hclient⟩, l, hl, hstarting, -⟩ := hanswers
  obtain ⟨c, hc, rfl⟩ := Fleet.connection_of_line hl
  exact ⟨s', c, hs', hclient, hclient ▸ hc, hstarting⟩

theorem arrived_greet (hs : serving s) (huris : (s.documents.map Prod.fst).Nodup)
    (harrived : Arrived h₀ moment serving (s.documents.map Prod.fst) h) :
    Arrived h₀ moment nobody [] ((greet s).start h).2 := by
  have hsent : ∀ f, ∃ m : Outgoing, Fleet.Neutral m ∧
      Fleet.Sent f s.client (·.receive m.frame) ((Fleet.sendStarted s.client).start f) :=
    fun f => ⟨.started, fun _ => rfl, Fleet.sent_sendNotification f s.client Method.started _⟩
  have hwritten := arrived_guarded hsent h harrived
  rw [greet, Step.start_bind]
  generalize (guarded _ _).start h = written at hwritten ⊢
  obtain ⟨outcome, h'⟩ := written
  cases outcome with
  | error fault => exact Arrived.toNobody hwritten
  | ok told =>
    cases told with
    | false => exact Arrived.toNobody hwritten
    | true => exact arrived_announceAll hs huris hwritten

/-- No tokens are awaited from a server that was starting, so all its documents can be announced. -/
theorem arrived_initiate (hsilent : h₀.roster.Silent)
    (harrived : Arrived h₀ moment nobody [] h) (hanswers : h.Answers s) (hface : h.face.Tidy)
    (result : Json) : Arrived h₀ moment nobody [] ((initiate s result).start h).2 := by
  cases hencoding : Message.negotiatedEncoding result with
  | error fault =>
    rw [initiate, Step.start_bind, hencoding]
    exact harrived
  | ok encoding =>
  obtain ⟨s', c, hs', hclient, hc, hstarting⟩ := hanswers.connection
  have hlanguage : s'.language = s.language := hface.named _ _ hs'
  obtain ⟨data, hstart⟩ := start_initiate hencoding hs'
  have hroster : (h.readied s encoding).roster =
      (h.roster.alter s.language fun s => { s with encoding }).modify s'.client fun c =>
        { c with client := c.client.markReady } := by
    have hreadied : (h.readied s encoding).roster =
        { (h.alterSession s.language fun s => { s with encoding }).roster with
          connections := (h.fleet.modifyClient s.client Client.markReady).connections } := rfl
    rw [hreadied, roster_alterSession, hclient]
    rfl
  have hready : (h.readied s encoding).roster.connections[s'.client]? =
      some { c with client := c.client.markReady } := by
    rw [hroster, Roster.connection_modify _ (show (h.roster.alter s.language fun s =>
      { s with encoding }).connections[s'.client]? = some c from hc), if_pos rfl]
  have hreadied : Arrived h₀ moment nobody [] (h.readied s encoding) :=
    harrived.go (hroster ▸ .readied encoding hs' hc hstarting)
  have hserving : Arrived h₀ moment (Eq { s' with encoding }) (s'.documents.map Prod.fst)
      (h.readied s encoding) := by
    refine ⟨hreadied.passage, hreadied.addressed, ?_, ?_⟩
    · rintro s₀ rfl
      refine ⟨⟨{ s' with encoding }, hlanguage ▸ find?_readied hs', rfl⟩, _, hready, ?_⟩
      rw [Client.markReady, if_pos hstarting]
    · rintro s₀ rfl uri - c' number version hc' hwaits
      obtain rfl := Option.some.inj (hready.symm.trans hc')
      rw [Client.markReady, if_pos hstarting] at hwaits
      cases harrived.passage.silent hsilent _ c hc hstarting _ hwaits
  rw [hstart]
  exact arrived_greet (s := { s' with encoding }) rfl (hface.uris s.language s' hs')
    (hserving.of_roster rfl)

theorem arrived_handleStarted (hsilent : h₀.roster.Silent)
    (harrived : Arrived h₀ moment nobody [] h) (hanswers : h.Answers s) (hface : h.face.Tidy)
    (result : Json) : Arrived h₀ moment nobody [] ((handleStarted s result).start h).2 := by
  rw [start_handleStarted]
  cases Message.tokenTypes result with
  | error fault => exact harrived
  | ok legend =>
    dsimp only
    split
    · obtain ⟨s', c, hs', -, hc, hstarting⟩ := hanswers.connection
      have hroster := roster_alterSession h s.language fun s => { s with legend }
      have hlabelled : Arrived h₀ moment nobody []
          (h.alterSession s.language fun s => { s with legend }) :=
        harrived.go (hroster ▸ .labelled legend hs' hc hstarting)
      refine arrived_initiate hsilent hlabelled (hanswers.legend legend) ?_ result
      rw [face_alterSession]
      exact hface.alter_of_documents s.language fun _ => ⟨rfl, rfl, rfl⟩
    · exact arrived_initiate hsilent harrived hanswers hface result

/-! ## Tokens -/

theorem start_handleTokens {uri : String} {d : TrackedDocument}
    (hd : s.documents.find? uri = some d) (message : Json) (h : Hub) :
    (handleTokens s uri d.version ((message.field? "result").getD .null)).start h =
      match tokensIn s.legend message with
      | .error fault => (.error (.shape fault), h)
      | .ok tokens =>
        (.ok (), (h.alterDocument s.language uri fun d =>
          { d with tokens, tokensVersion := d.version }).alterBuffer d.buffer fun b =>
            { b with dirty := true }) := by
  have hdecoded : ∀ data : List Json,
      (do
        let tokens ← Step.ofExcept .shape (SemanticToken.decode s.legend data)
        modify fun h : Hub =>
          (h.alterDocument s.language uri fun d =>
            { d with tokens, tokensVersion := d.version }).alterBuffer d.buffer fun b =>
              { b with dirty := true } : Step Hub Unit).start h =
        match SemanticToken.decode s.legend data with
        | .error fault => (.error (.shape fault), h)
        | .ok tokens =>
          (.ok (), (h.alterDocument s.language uri fun d =>
            { d with tokens, tokensVersion := d.version }).alterBuffer d.buffer fun b =>
              { b with dirty := true }) := by
    intro data
    cases SemanticToken.decode s.legend data <;> rfl
  unfold handleTokens tokensIn
  rw [hd]
  dsimp only
  rw [if_neg fun hne => hne rfl]
  cases (message.field? "result").getD .null with
  | obj fields =>
    dsimp only
    rw [Step.start_bind]
    cases ((Json.obj fields).member "data").bind Json.itemsOrNone with
    | error fault => rfl
    | ok data => exact hdecoded data
  | _ =>
    dsimp only
    rw [Step.start_bind]
    exact hdecoded []

/-- Tokens change one document at most, which has the version that they were asked for. -/
theorem roster_handleTokens (s : Session) (uri : String) (version : Int) (message : Json)
    (h : Hub) :
    let result := ((handleTokens s uri version ((message.field? "result").getD .null)).start h).2
    result.roster = h.roster ∨
      ∃ d tokens, s.documents.find? uri = some d ∧ d.version = version ∧
        tokensIn s.legend message = .ok tokens ∧
          result.roster = h.roster.alterDocument s.language uri fun d =>
            { d with tokens, tokensVersion := d.version } := by
  dsimp only
  by_cases hfits : ∃ d, s.documents.find? uri = some d ∧ d.version = version
  · obtain ⟨d, hd, rfl⟩ := hfits
    rw [start_handleTokens hd]
    cases htokens : tokensIn s.legend message with
    | error fault => exact .inl rfl
    | ok tokens =>
      exact .inr ⟨d, tokens, hd, rfl, rfl, roster_alterDocument h s.language uri _⟩
  · refine .inl ?_
    unfold handleTokens
    cases hd : s.documents.find? uri with
    | none => rfl
    | some d =>
      dsimp only
      rw [if_pos fun heq => hfits ⟨d, hd, heq⟩]
      rfl

/-! ## Events -/

theorem roster_handleCrash (h : Hub) (client reason : String) :
    (h.handleCrash client reason).roster = h.roster := by
  obtain ⟨data, hcrash⟩ := handleCrash_eq h client reason
  have hletGo : (h.letGo client).roster = h.roster := by
    unfold letGo
    split
    · split
      · exact roster_release h _
      · rfl
    · rfl
  rw [hcrash, noteCrash]
  split <;> exact hletGo

/-- What comes of an event that is paired with nothing. -/
theorem withstands_arrived : Withstands (Arrived h₀ moment nobody []) where
  report _ _ _ _ harrived := harrived.of_roster rfl
  crash h client reason harrived := harrived.of_roster (roster_handleCrash h client reason)
  reply s message := arrived_guarded fun f => by
    obtain ⟨number, result, hsent⟩ := Fleet.sent_sendResponse f s.client message
    exact ⟨.reply number result, fun _ => rfl, hsent⟩
  pop h client number _ harrived :=
    harrived.eased (Fleet.eased_popRequest h.fleet client number) rfl

/-- An answer that reports an error changes no roster. -/
theorem roster_settle_of_error {message error : Json} {kind : RequestKind}
    (herror : message.field? "error" = some error) (name : String) (h : Hub) :
    ((settle s name message kind).start h).2.roster = h.roster :=
  keeps_settle_of_error (P := fun x => x.roster = h.roster) (fun _ _ _ _ hx => hx) herror s name
    kind h rfl

theorem arrived_handleNext (htidy : h.face.Tidy) (haddressed : h.roster.Addressed)
    (hsilent : h.roster.Silent) : Arrived h .handle nobody [] (handleNext.start h).2 := by
  have hstart : Arrived h .handle nobody [] h := .start haddressed
  cases hp : h.pairing? with
  | none => exact withstands_arrived.handleNext (hstart.of_roster rfl) hp
  | some p =>
  obtain ⟨s, name, message, hmem, hclient, hheard, hnext⟩ := start_handleNext_of_pairing? hp
  have hs : h.sessions.find? s.language = some s := htidy.regular.find?_of_mem_values hmem
  rw [hnext, ← hclient]
  let popped : Hub :=
    { h.dequeued with fleet := (h.dequeued.fleet.popRequest s.client p.number).2 }
  have heased : Eased h.fleet.connections popped.fleet.connections :=
    Fleet.eased_popRequest h.dequeued.fleet s.client p.number
  have hpopped : Arrived h .handle nobody [] popped := hstart.eased heased rfl
  change Arrived h .handle nobody [] ((settle s name message p.kind).start popped).2
  cases herror : message.field? "error" with
  | some error => exact hpopped.of_roster (roster_settle_of_error herror name popped)
  | none =>
  cases hkind : p.kind with
  | start path =>
    have hpop : (h.dequeued.fleet.popRequest s.client p.number).1 = some (.start path) := by
      obtain ⟨name, payload, rest, -, hpairs⟩ := pairing?_eq_some hp
      obtain ⟨-, c, -, -, -, hc, hpop⟩ := pairs?_eq_some hpairs
      rw [hclient, Fleet.popRequest_of_client? (f := h.dequeued.fleet) hc, ← hkind]
      exact hpop
    have hdequeued : Reached h .drain nobody [] h.dequeued := (Reached.start htidy).of_face rfl
    have hreached : Reached h .drain nobody [] popped :=
      hdequeued.wane (Fleet.wane_popRequest h.dequeued.fleet s.client p.number) rfl rfl
    have hanswers : popped.Answers s := answers_popRequest (h := h.dequeued) htidy.regular hs hpop
    unfold settle
    rw [herror]
    exact arrived_handleStarted hsilent hpopped hanswers hreached.tidy _
  | tokens uri version =>
    unfold settle
    rw [herror]
    rcases roster_handleTokens s uri version message popped with
      hsame | ⟨d, tokens, hd, rfl, htokens, hroster⟩
    · exact hpopped.of_roster hsame
    · have hpaired : h.pairing? = some ⟨s.client, p.number, .tokens uri d.version⟩ := by
        rw [hp, hclient, ← hkind]
      refine hstart.go ?_
      rw [hroster]
      refine .colored rfl heased ⟨hs, hd⟩ hpaired ⟨rfl, ⟨s, hs, rfl, rfl, rfl⟩, ⟨_, _, hpaired⟩, ?_⟩
      exact ⟨message, hheard, herror, htokens⟩

/-! ## All moments -/

theorem addressed_of_tidy (htidy : h.face.Tidy) : h.roster.Addressed :=
  fun language s uri d hd => (htidy.placed language s uri d hd.session hd.document).1

/-- Every moment is a passage, if no tokens are awaited from servers that are starting. -/
theorem passage_pass (htidy : h.face.Tidy) (hsilent : h.roster.Silent) (moment : Moment) :
    Passage h moment (h.pass moment).roster := by
  have haddressed := addressed_of_tidy htidy
  have hstart : Arrived h moment nobody [] h := .start haddressed
  have hprocess : ∀ (client : Nat) (change : Subprocess → Subprocess),
      (∀ p, (change p).received = p.received) → Passage h moment
        ({ h with fleet := h.fleet.modifyProcess client change } : Hub).roster :=
    fun client change hreceived => by
      have harrived : Arrived h moment nobody []
          { h with fleet := h.fleet.modifyProcess client change } :=
        hstart.eased (Fleet.eased_modifyProcess h.fleet client change hreceived) rfl
      exact harrived.passage
  cases moment with
  | handle => exact (arrived_handleNext htidy haddressed hsilent).passage
  | turn turn hdrain =>
  cases turn with
  | mendPipe client => exact hprocess client _ fun _ => rfl
  | deed deed =>
  cases deed with
  | create | edit | enter | post => exact hstart.passage
  | leave id failure => cases failure <;> exact hstart.passage
  | openDocument id => exact (arrived_openDocument htidy haddressed ⟨hdrain, rfl⟩).passage
  | closeDocument id => exact (arrived_closeDocument haddressed id).passage
  | syncChanges => exact (arrived_syncChanges htidy haddressed).passage
  | drain => exact absurd rfl hdrain
  | restart language => exact (arrived_restart htidy haddressed ⟨hdrain, rfl⟩).passage
  | shutdown => exact (arrived_shutdown haddressed).passage
  | emit | finish | breakPipe => exact hprocess _ _ fun _ => rfl
  | read client =>
    cases hstep : h.fleet.readStep? client with
    | none =>
      refine (hstart.of_roster ?_).passage
      rw [pass, turn, act, hstep]
      rfl
    | some f =>
      have hread : h.pass (.turn (.deed (.read client)) hdrain) = { h with fleet := f } := by
        rw [pass, turn, act, hstep]
        rfl
      have harrived : Arrived h (.turn (.deed (.read client)) hdrain) nobody []
          { h with fleet := f } := hstart.eased (Fleet.eased_readStep? hstep) rfl
      rw [hread]
      exact harrived.passage

/-- No tokens are awaited from a server that is starting, after every run. -/
theorem silent_after (htidy : h₀.face.Tidy) (hsilent : h₀.roster.Silent) (moments : List Moment) :
    (h₀.after moments).roster.Silent := by
  induction moments generalizing h₀ with
  | nil => exact hsilent
  | cons moment rest ih =>
    exact ih (tidy_pass htidy moment) ((passage_pass htidy hsilent moment).silent hsilent)

theorem roster_fresh (hfresh : h₀.Fresh) : h₀.roster = ⟨[], []⟩ := by
  rw [roster, hfresh.sessions, hfresh.connections]

theorem silent_fresh (hfresh : h₀.Fresh) (moments : List Moment) :
    (h₀.after moments).roster.Silent := by
  refine silent_after (tidy_fresh hfresh) (fun id c hc => ?_) moments
  rw [roster_fresh hfresh] at hc
  cases hc

/-- Every moment of a run is a passage. -/
theorem passage_after (hfresh : h₀.Fresh) (past : List Moment) (moment : Moment) :
    Passage (h₀.after past) moment (h₀.after (past ++ [moment])).roster := by
  rw [after_append]
  exact passage_pass (tidy_after (tidy_fresh hfresh) past) (silent_fresh hfresh past) moment

end TextEditor.Server.Hub
