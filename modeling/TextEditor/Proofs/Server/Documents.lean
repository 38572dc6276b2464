import TextEditor.Proofs.Server.Passages

/-!
# Documents, through the shifts

What is said of a document, its session and its connection is borne by the shifts of a moment if it
stands each of the things that can happen to the three.  Then it holds of all documents after the
moment if it did before.
-/

namespace TextEditor.Server

namespace Roster

/-- Each session has a client of its own, which was started. -/
structure Orderly (R : Roster) : Prop where
  apart : ∀ language other s s', R.sessions.find? language = some s →
    R.sessions.find? other = some s' → s'.client = s.client → other = language
  served : ∀ language s, R.sessions.find? language = some s → s.client < R.connections.length

/-- Something holds of every document, with its language, its session, its uri and the connection of
its client. -/
def Each (R : Roster)
    (Q : String → Session → String → TrackedDocument → Connection → Prop) : Prop :=
  ∀ language s uri d c, R.Has language s uri d → R.connections[s.client]? = some c →
    Q language s uri d c

variable {R R' : Roster} {language other uri uri' : String} {s s' : Session}
variable {d d' : TrackedDocument}

namespace Orderly

/-- Sessions keep their clients or end, and no connection is lost. -/
theorem of_sessions (h : R.Orderly)
    (hsessions : ∀ language s', R'.sessions.find? language = some s' →
      ∃ s, R.sessions.find? language = some s ∧ s'.client = s.client)
    (hconnections : R.connections.length ≤ R'.connections.length) : R'.Orderly where
  apart language other s s' hs hs' hclient := by
    obtain ⟨s₁, hs₁, heq₁⟩ := hsessions language s hs
    obtain ⟨s₂, hs₂, heq₂⟩ := hsessions other s' hs'
    exact h.apart language other s₁ s₂ hs₁ hs₂ (heq₂.symm.trans (hclient.trans heq₁))
  served language s hs := by
    obtain ⟨s₁, hs₁, heq₁⟩ := hsessions language s hs
    rw [heq₁]
    exact Nat.lt_of_lt_of_le (h.served language s₁ hs₁) hconnections

theorem connections (h : R.Orderly) {connections : List Connection}
    (hlength : R.connections.length ≤ connections.length) :
    ({ R with connections } : Roster).Orderly :=
  h.of_sessions (fun _ s hs => ⟨s, hs, rfl⟩) hlength

theorem modify (h : R.Orderly) (client : Nat) (change : Connection → Connection) :
    (R.modify client change).Orderly :=
  h.connections (Nat.le_of_eq (List.length_modify ..).symm)

theorem alter (h : R.Orderly) (language : String) {change : Session → Session}
    (hchange : ∀ s, (change s).client = s.client) : (R.alter language change).Orderly := by
  refine h.of_sessions (fun other s' hs' => ?_) (Nat.le_refl _)
  obtain ⟨s, hs, rfl⟩ := of_find?_alter hs'
  refine ⟨s, hs, ?_⟩
  split
  · exact hchange s
  · rfl

theorem alterDocument (h : R.Orderly) (language uri : String)
    (change : TrackedDocument → TrackedDocument) : (R.alterDocument language uri change).Orderly :=
  h.alter language fun _ => rfl

/-- The session of a document is the one that has the client. -/
theorem has_eq (h : R.Orderly) (hd : R.Has language s uri d) (hd' : R.Has other s' uri' d')
    (hclient : s'.client = s.client) : other = language ∧ s' = s ∧ (uri' = uri → d' = d) := by
  obtain rfl := h.apart language other s s' hd.session hd'.session hclient
  obtain rfl : s' = s := Option.some.inj (hd'.session.symm.trans hd.session)
  refine ⟨rfl, rfl, ?_⟩
  rintro rfl
  exact Option.some.inj (hd'.document.symm.trans hd.document)

end Orderly

end Roster

theorem Eased.length_le {connections connections' : List Connection}
    (h : Eased connections connections') : connections.length ≤ connections'.length := by
  by_contra hlt
  have hnone : connections'[connections'.length]? = none := List.getElem?_eq_none (Nat.le_refl _)
  obtain ⟨c', hc', -⟩ := h.some_right (List.getElem?_eq_getElem (Nat.lt_of_not_le hlt))
  rw [hnone] at hc'
  cases hc'

variable {h₀ : Hub} {moment : Moment} {R R' : Roster}

theorem Shift.orderly (hshift : Shift h₀ moment R R') (h : R.Orderly) : R'.Orderly := by
  cases hshift with
  | eased heased => exact h.connections heased.length_le
  | noted | asked => exact h.modify _ _
  | announced => exact (h.modify _ _).alterDocument _ _ _
  | changed => exact (h.alterDocument _ _ _).modify _ _
  | lost => exact h.alterDocument _ _ _
  | colored hR heased => exact (h.connections heased.length_le).alterDocument _ _ _
  | labelled => exact h.alter _ fun _ => rfl
  | readied =>
    refine Roster.Orderly.modify ?_ _ _
    exact h.alter _ fun _ => rfl
  | adopted => exact h.alter _ fun _ => rfl
  | closed uri =>
    refine h.of_sessions (fun language s' hs' => ?_) (Nat.le_refl _)
    obtain ⟨s, hs, rfl⟩ := Option.map_eq_some_iff.1 ((Table.find?_map R.sessions
      (fun s => { s with documents := s.documents.erase uri }) language).symm.trans hs')
    exact ⟨s, hs, rfl⟩
  | @joined language s c sessions hnewborn hclient hfind hdead hdocuments =>
    have hold : ∀ other s', sessions.find? other = some s' →
        other = language ∧ s' = s ∨ R.sessions.find? other = some s' ∧ s'.client < s.client := by
      intro other s' hs'
      rw [hfind] at hs'
      split at hs'
      · next hother => exact .inl ⟨hother, (Option.some.inj hs').symm⟩
      · exact .inr ⟨hs', hclient ▸ h.served other s' hs'⟩
    refine ⟨fun first second s₁ s₂ hs₁ hs₂ heq => ?_, fun other s' hs' => ?_⟩
    · rcases hold first s₁ hs₁ with ⟨rfl, rfl⟩ | ⟨hs₁, hlt₁⟩ <;>
        rcases hold second s₂ hs₂ with ⟨rfl, rfl⟩ | ⟨hs₂, hlt₂⟩
      · rfl
      · exact absurd heq (Nat.ne_of_lt hlt₂)
      · exact absurd heq.symm (Nat.ne_of_lt hlt₁)
      · exact h.apart first second s₁ s₂ hs₁ hs₂ heq
    · rw [List.length_append, List.length_singleton, ← hclient]
      rcases hold other s' hs' with ⟨-, rfl⟩ | ⟨-, hlt⟩
      · exact Nat.lt_succ_self _
      · exact Nat.lt_succ_of_lt hlt
  | stillborn => exact h.connections (by rw [List.length_append]; exact Nat.le_add_right _ _)
  | ended hended =>
    refine h.of_sessions (fun language s' hs' => ?_) (Nat.le_refl _)
    rcases hended language with hsame | ⟨hnone, -⟩
    · exact ⟨s', hsame.symm.trans hs', rfl⟩
    · rw [show Table.find? _ language = some s' from hs'] at hnone
      cases hnone

/-- What is said of documents stands everything that can happen at a moment to a document, to its
session and to the connection of its client. -/
structure Bears (h₀ : Hub) (moment : Moment)
    (Q : String → Session → String → TrackedDocument → Connection → Prop) : Prop where
  session : ∀ {language uri} {s s' : Session} {d c}, s'.client = s.client → s'.legend = s.legend →
    s'.encoding = s.encoding → Q language s uri d c → Q language s' uri d c
  eased : ∀ {language s uri d} {c c' : Connection}, c.Eases c' → Q language s uri d c →
    Q language s uri d c'
  told : ∀ {language s uri d c} (m : Outgoing), m.version? uri = none → Q language s uri d c →
    Q language s uri d (c.receive m.frame)
  asked : ∀ {language s uri uri' d d'} {c : Connection}, (uri' = uri → d' = d) →
    Q language s uri' d' c →
      Q language s uri' d' (c.ask (Outgoing.tokens c.client.nextId uri).frame
        (.tokens uri d.version))
  announced : ∀ {language s uri} {d : TrackedDocument} {c : Connection} name text,
    (∀ number version, (number, .tokens uri version) ∈ c.client.pending →
      Hub.Reopens uri s.client number version h₀ moment) →
    Q language s uri d c → Q language s uri { d with opened := true }
      (c.receive (Outgoing.didOpen uri name text d.version).frame)
  changed : ∀ {language s uri} {d : TrackedDocument} {c : Connection} changes,
    Q language s uri d c → Q language s uri { d with version := d.version + 1 }
      (c.receive (Outgoing.didChange uri (d.version + 1) changes).frame)
  lost : ∀ {language s uri} {d : TrackedDocument} {c : Connection},
    Q language s uri d c → Q language s uri { d with version := d.version + 1 } c
  colored : ∀ {language s uri} {d : TrackedDocument} {c : Connection} {tokens},
    c.client.state ≠ .starting → Hub.Colors language uri s tokens h₀ moment →
    Q language s uri d c →
      Q language s uri { d with tokens, tokensVersion := d.version } c
  labelled : ∀ {language s uri d} {c : Connection} legend, c.client.state = .starting →
    Q language s uri d c → Q language { s with legend } uri d c
  readied : ∀ {language s uri d} {c : Connection} encoding, c.client.state = .starting →
    Q language s uri d c →
      Q language { s with encoding } uri d { c with client := c.client.markReady }
  adopted : ∀ {language} {s : Session} {uri} {c : Connection} buffer,
    (∀ number version, (number, .tokens uri version) ∈ c.client.pending →
      Hub.Reopens uri s.client number version h₀ moment) →
    Q language s uri { buffer, uri } c
  joined : ∀ {language s uri d} {c : Connection}, c.Newborn →
    (d.opened = false ∧ d.tokens = [] ∨ Hub.Inherits language uri s.client d h₀ moment) →
    Q language s uri d c

variable {Q : String → Session → String → TrackedDocument → Connection → Prop}

namespace Roster.Each

theorem modify (h : R.Each Q) (client : Nat) {change : Connection → Connection}
    (hchange : ∀ language s uri d c, R.Has language s uri d → R.connections[s.client]? = some c →
      client = s.client → Q language s uri d c → Q language s uri d (change c)) :
    (R.modify client change).Each Q := by
  intro language s uri d c' hd hc'
  obtain ⟨c, hc, rfl⟩ := connection_of_modify hc'
  have hbefore := h language s uri d c ⟨hd.session, hd.document⟩ hc
  split
  · next hclient => exact hchange language s uri d c ⟨hd.session, hd.document⟩ hc hclient hbefore
  · exact hbefore

/-- A document changes, and its server is told of that or not. -/
theorem tell (hbears : Bears h₀ moment Q) (hR : R.Orderly) (h : R.Each Q) {language uri : String}
    {s : Session} {d : TrackedDocument} (hd : R.Has language s uri d) (m : Outgoing)
    {change : TrackedDocument → TrackedDocument}
    (hother : ∀ uri', uri' ≠ uri → m.version? uri' = none)
    (hchange : ∀ c, R.connections[s.client]? = some c → Q language s uri d c →
      Q language s uri (change d) (c.receive m.frame)) :
    ((R.modify s.client (·.receive m.frame)).alterDocument language uri change).Each Q := by
  intro other s' uri' d' c' hd' hc'
  obtain ⟨s₀, d₀, hd₀, hclient, hlegend, hencoding, rfl⟩ := hd'.of_alterDocument
  obtain ⟨c, hc, rfl⟩ := Roster.connection_of_modify (R := R) hc'
  have hhas : R.Has other s₀ uri' d₀ := ⟨hd₀.session, hd₀.document⟩
  rw [hclient] at hc
  have hbefore := h other s₀ uri' d₀ c hhas hc
  refine hbears.session hclient hlegend hencoding ?_
  by_cases hsame : s.client = s₀.client
  · obtain ⟨rfl, rfl, heq⟩ := hR.has_eq hd hhas hsame.symm
    rw [if_pos (hsame.trans hclient.symm)]
    by_cases huri : uri' = uri
    · obtain rfl := heq huri
      subst huri
      rw [if_pos ⟨rfl, rfl⟩]
      exact hchange c hc hbefore
    · rw [if_neg fun h => huri h.2]
      exact hbears.told m (hother uri' huri) hbefore
  · have hunchanged : ¬(other = language ∧ uri' = uri) := by
      rintro ⟨rfl, -⟩
      exact hsame (congrArg Session.client (Option.some.inj (hd.session.symm.trans hhas.session)))
    have huntold : ¬s.client = s'.client := fun heq => hsame (heq.trans hclient)
    rw [if_neg hunchanged, if_neg huntold]
    exact hbefore

/-- A document changes, and its server is not told. -/
theorem alterDocument (hbears : Bears h₀ moment Q) (h : R.Each Q) {language uri : String}
    {s : Session} {d : TrackedDocument} (hd : R.Has language s uri d)
    {change : TrackedDocument → TrackedDocument}
    (hchange : ∀ c, R.connections[s.client]? = some c → Q language s uri d c →
      Q language s uri (change d) c) : (R.alterDocument language uri change).Each Q := by
  intro other s' uri' d' c hd' hc
  obtain ⟨s₀, d₀, hd₀, hclient, hlegend, hencoding, rfl⟩ := hd'.of_alterDocument
  have hc₀ : R.connections[s₀.client]? = some c := hclient ▸ hc
  have hbefore := h other s₀ uri' d₀ c hd₀ hc₀
  refine hbears.session hclient hlegend hencoding ?_
  split
  · next hsame =>
    obtain ⟨rfl, rfl⟩ := hsame
    obtain rfl : s = s₀ := Option.some.inj (hd.session.symm.trans hd₀.session)
    obtain rfl : d = d₀ := Option.some.inj (hd.document.symm.trans hd₀.document)
    exact hchange c hc₀ hbefore
  · exact hbefore

/-- A session changes. -/
theorem alter (h : R.Each Q) {language : String} {s : Session}
    (hs : R.sessions.find? language = some s) {change : Session → Session}
    (hclient : (change s).client = s.client)
    (hchange : ∀ uri d c, (change s).documents.find? uri = some d →
      R.connections[s.client]? = some c → Q language (change s) uri d c) :
    (R.alter language change).Each Q := by
  intro other s' uri d c hd hc
  obtain ⟨s₀, hs₀, rfl⟩ := Roster.of_find?_alter hd.session
  have hfound := hd.document
  split at hfound
  · next hsame =>
    subst hsame
    obtain rfl : s = s₀ := Option.some.inj (hs.symm.trans hs₀)
    rw [if_pos rfl] at hc ⊢
    exact hchange uri d c hfound (hclient ▸ hc)
  · next hother =>
    rw [if_neg hother] at hc ⊢
    exact h other s₀ uri d c ⟨hs₀, hfound⟩ hc

/-- Sessions end or lose documents, if they change at all. -/
theorem sessions (hbears : Bears h₀ moment Q) (h : R.Each Q) {sessions : Table Session}
    (hsessions : ∀ language s' uri d, sessions.find? language = some s' →
      s'.documents.find? uri = some d → ∃ s, R.Has language s uri d ∧ s'.client = s.client ∧
        s'.legend = s.legend ∧ s'.encoding = s.encoding) :
    ({ R with sessions } : Roster).Each Q := by
  intro language s' uri d c hd hc
  obtain ⟨s, hhas, hclient, hlegend, hencoding⟩ :=
    hsessions language s' uri d hd.session hd.document
  exact hbears.session hclient hlegend hencoding (h language s uri d c hhas (hclient ▸ hc))

/-- There is one more connection, which no session has yet. -/
theorem concat (hR : R.Orderly) (h : R.Each Q) (c : Connection) :
    ({ R with connections := R.connections ++ [c] } : Roster).Each Q := by
  intro language s uri d c' hd hc'
  rcases connection_of_concat hc' with hold | ⟨hlength, -⟩
  · exact h language s uri d c' ⟨hd.session, hd.document⟩ hold
  · exact absurd hlength (Nat.ne_of_lt (hR.served language s hd.session))

end Roster.Each

/-- Whoever gave tokens is not starting. -/
theorem state_of_pairing? {p : Pairing} {uri : String} {version : Int} {c : Connection}
    (hsilent : h₀.roster.Silent) (hp : h₀.pairing? = some p) (hkind : p.kind = .tokens uri version)
    (hc : h₀.roster.connections[p.client]? = some c) : c.client.state ≠ .starting := by
  intro hstarting
  obtain ⟨c₀, n, hc₀, -, hwaits⟩ := Hub.waits_of_pairing? hp
  obtain rfl : c = c₀ := Option.some.inj (hc.symm.trans hc₀)
  have hstart := hsilent p.client c hc hstarting _ hwaits
  rw [hkind] at hstart
  cases hstart

/-- What stands everything holds of all documents after whatever happens. -/
theorem Shift.each (hbears : Bears h₀ moment Q) (hR : R.Orderly) (hsilent : R.Silent)
    (hshift : Shift h₀ moment R R') (h : R.Each Q) : R'.Each Q := by
  have heased : ∀ {connections : List Connection}, Eased R.connections connections →
      ({ R with connections } : Roster).Each Q := by
    intro connections heased language s uri d c' hd hc'
    obtain ⟨c, hc, heases⟩ := heased.some_left hc'
    exact hbears.eased heases (h language s uri d c ⟨hd.session, hd.document⟩ hc)
  cases hshift with
  | eased hconnections => exact heased hconnections
  | noted client hm =>
    exact h.modify client fun language s uri d c _ _ _ hbefore => hbears.told _ (hm uri) hbefore
  | asked hd hc hready =>
    refine h.modify _ fun language s' uri' d' c' hd' hc' hclient hbefore => ?_
    obtain ⟨rfl, rfl, heq⟩ := hR.has_eq hd hd' hclient.symm
    obtain rfl := Option.some.inj (hc.symm.trans hc')
    exact hbears.asked heq hbefore
  | announced name text hd houtdated =>
    refine h.tell hbears hR hd (.didOpen _ name text _) (fun uri' hne => if_neg hne.symm)
      fun c hc hbefore => ?_
    exact hbears.announced name text (fun number version => houtdated c number version hc) hbefore
  | changed changes hd =>
    exact h.tell hbears hR hd (.didChange _ _ changes) (fun uri' hne => if_neg hne.symm)
      fun c _ hbefore => hbears.changed changes hbefore
  | lost hd => exact h.alterDocument hbears hd fun c _ hbefore => hbears.lost hbefore
  | @colored connections language uri s d tokens number hroster hconnections hd hpaired hcolors =>
    refine (heased hconnections).alterDocument hbears ⟨hd.session, hd.document⟩
      fun c' hc' hbefore => hbears.colored (fun hstarting => ?_) hcolors hbefore
    obtain ⟨c, hc, heases⟩ := hconnections.some_left hc'
    have halive : c'.client.state.isAlive = true := by
      rw [hstarting]
      rfl
    rw [hroster] at hc hsilent
    exact state_of_pairing? hsilent hpaired rfl hc ((heases.state_eq halive).symm.trans hstarting)
  | labelled legend hs hc hstarting =>
    refine h.alter hs rfl fun uri d c' hd hc' => ?_
    obtain rfl := Option.some.inj (hc.symm.trans hc')
    exact hbears.labelled legend hstarting (h _ _ uri d _ ⟨hs, hd⟩ hc)
  | @readied language s c encoding hs hc hstarting =>
    intro other s' uri d c' hd hc'
    obtain ⟨c₀, hc₀, rfl⟩ := Roster.connection_of_modify hc'
    obtain ⟨s₀, hs₀, rfl⟩ := Roster.of_find?_alter hd.session
    have hfound := hd.document
    by_cases hother : other = language
    · subst hother
      obtain rfl : s = s₀ := Option.some.inj (hs.symm.trans hs₀)
      rw [if_pos rfl] at hc₀ hfound ⊢
      obtain rfl : c = c₀ := Option.some.inj (hc.symm.trans hc₀)
      rw [if_pos rfl]
      exact hbears.readied encoding hstarting (h other s uri d c ⟨hs, hfound⟩ hc)
    · rw [if_neg hother] at hc₀ hfound ⊢
      rw [if_neg]
      · exact h other s₀ uri d c₀ ⟨hs₀, hfound⟩ hc₀
      · exact fun hclient => hother (hR.apart language other s s₀ hs hs₀ hclient.symm)
  | @adopted id b s hs houtdated =>
    refine h.alter hs rfl fun uri d c hd hc => ?_
    by_cases huri : uri = Hub.uriOf b
    · subst huri
      rw [Table.find?_put_self] at hd
      obtain rfl := Option.some.inj hd
      exact hbears.adopted id fun number version => houtdated c number version hc
    · rw [Table.find?_put_of_ne _ _ huri] at hd
      exact hbears.session (s := s) rfl rfl rfl (h _ s uri d c ⟨hs, hd⟩ hc)
  | closed uri =>
    refine h.sessions hbears fun language s' uri' d hs' hd => ?_
    obtain ⟨s, hs, rfl⟩ := Option.map_eq_some_iff.1 ((Table.find?_map R.sessions
      (fun s => { s with documents := s.documents.erase uri }) language).symm.trans hs')
    exact ⟨s, ⟨hs, (Table.of_find?_erase hd).2⟩, rfl, rfl, rfl⟩
  | @joined language s c sessions hnewborn hclient hfind hdead hdocuments =>
    intro other s' uri d c' hd hc'
    have hs' := hd.session
    rw [hfind] at hs'
    split at hs'
    · next hother =>
      subst hother
      obtain rfl := Option.some.inj hs'
      rcases Roster.connection_of_concat hc' with hold | ⟨-, rfl⟩
      · rw [hclient, List.getElem?_eq_none (Nat.le_refl _)] at hold
        cases hold
      · exact hbears.joined hnewborn (hdocuments uri d hd.document).2
    · exact h.concat hR c other s' uri d c' ⟨hs', hd.document⟩ hc'
  | stillborn => exact h.concat hR _
  | ended hended =>
    refine h.sessions hbears fun language s uri d hs hd => ?_
    rcases hended language with hsame | ⟨hnone, -⟩
    · exact ⟨s, ⟨hsame.symm.trans hs, hd⟩, rfl, rfl, rfl⟩
    · rw [hs] at hnone
      cases hnone

theorem Passage.each (hbears : Bears h₀ moment Q) (hR : h₀.roster.Orderly)
    (hsilent : h₀.roster.Silent) (hpassage : Passage h₀ moment R) (h : h₀.roster.Each Q) :
    R.Each Q := by
  have hall : R.Orderly ∧ R.Each Q := by
    induction hpassage with
    | refl => exact ⟨hR, h⟩
    | tail hbefore hshift ih =>
      exact ⟨hshift.orderly ih.1, hshift.each hbears ih.1 (Passage.silent hsilent hbefore) ih.2⟩
  exact hall.2

namespace Hub

theorem orderly_of_tidy {h : Hub} (htidy : h.face.Tidy) : h.roster.Orderly where
  apart language other s s' hs hs' hclient := htidy.apart other language s' s hs' hs hclient
  served language s hs := by
    obtain ⟨l, hl, -⟩ := htidy.served language s hs
    obtain ⟨c, hc, -⟩ := Fleet.connection_of_line hl
    exact (List.getElem?_eq_some_iff.1 hc).1

/-- What is known of documents after a run, and stands each of its moments, holds of all documents
that are there in the end. -/
theorem each_after (hfresh : h₀.Fresh)
    {Q : List Moment → String → Session → String → TrackedDocument → Connection → Prop}
    (hbears : ∀ past moment, Bears (h₀.after past) moment (Q (past ++ [moment])))
    (hmono : ∀ past moment language s uri d c, Q past language s uri d c →
      Q (past ++ [moment]) language s uri d c) (moments : List Moment) :
    (h₀.after moments).roster.Each (Q moments) := by
  have htidy := tidy_fresh hfresh
  induction moments using List.reverseRecOn with
  | nil =>
    intro language s uri d c hd
    have hs := hd.session
    rw [show (h₀.after []).roster = ⟨[], []⟩ from roster_fresh hfresh] at hs
    cases hs
  | append_singleton past moment ih =>
    refine (passage_after hfresh past moment).each (hbears past moment)
      (orderly_of_tidy (tidy_after htidy past)) (silent_fresh hfresh past) ?_
    exact fun language s uri d c hd hc => hmono past moment _ _ _ _ _ (ih language s uri d c hd hc)

end Hub

end TextEditor.Server
