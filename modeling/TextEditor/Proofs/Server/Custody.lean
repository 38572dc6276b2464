import TextEditor.Proofs.Server.Passages

/-!
# Who keeps a server

A server that is alive belongs to a session, through every run and whichever starts fail in it.  Two
ways lead out of that: a restart drops a session that has no documents without stopping its server,
and a start that raises leaves its process behind.
-/

namespace TextEditor.Server

namespace Roster

/-- A session has the client. -/
def Owns (R : Roster) (client : Nat) : Prop :=
  ∃ language s, R.sessions.find? language = some s ∧ s.client = client

/-- Every client that is alive belongs to a session or was forsaken. -/
def Kept (R : Roster) (forsaken : Nat → Prop) : Prop :=
  ∀ (id : Nat) (c : Connection), R.connections[id]? = some c → c.client.state.isAlive = true →
    R.Owns id ∨ forsaken id

variable {R : Roster} {forsaken : Nat → Prop}

theorem Owns.alter {client : Nat} (h : R.Owns client) (language : String)
    {change : Session → Session} (hchange : ∀ s, (change s).client = s.client) :
    (R.alter language change).Owns client := by
  obtain ⟨other, s, hs, rfl⟩ := h
  refine ⟨other, if other = language then change s else s, ?_, ?_⟩
  · rw [find?_alter]
    split
    · next hother => rw [← hother, hs, Option.map_some]
    · exact hs
  · split
    · exact hchange s
    · rfl

namespace Kept

theorem alter (h : R.Kept forsaken) (language : String) {change : Session → Session}
    (hchange : ∀ s, (change s).client = s.client) : (R.alter language change).Kept forsaken :=
  fun id c hc halive => (h id c hc halive).imp_left fun howns => howns.alter language hchange

theorem alterDocument (h : R.Kept forsaken) (language uri : String)
    (change : TrackedDocument → TrackedDocument) :
    (R.alterDocument language uri change).Kept forsaken :=
  h.alter language fun _ => rfl

theorem eased (h : R.Kept forsaken) {connections : List Connection}
    (heased : Eased R.connections connections) :
    ({ R with connections } : Roster).Kept forsaken := by
  intro id c' hc' halive
  obtain ⟨c, hc, heases⟩ := heased.some_left hc'
  exact h id c hc (heases.alive halive)

/-- A connection changes, but comes to life in no way. -/
theorem modify (h : R.Kept forsaken) (client : Nat) {change : Connection → Connection}
    (hchange : ∀ c, (change c).client.state.isAlive = true → c.client.state.isAlive = true) :
    (R.modify client change).Kept forsaken := by
  intro id c' hc' halive
  obtain ⟨c, hc, rfl⟩ := connection_of_modify hc'
  refine h id c hc ?_
  split at halive
  · exact hchange c halive
  · exact halive

/-- Sessions come and go, and there may be one more connection. -/
theorem concat (h : R.Kept forsaken) {sessions : Table Session} {c : Connection}
    (hold : ∀ id c, R.connections[id]? = some c → c.client.state.isAlive = true → R.Owns id →
      (⟨sessions, R.connections ++ [c]⟩ : Roster).Owns id ∨ forsaken id)
    (hnew : c.client.state.isAlive = true →
      (⟨sessions, R.connections ++ [c]⟩ : Roster).Owns R.connections.length ∨
        forsaken R.connections.length) :
    Roster.Kept ⟨sessions, R.connections ++ [c]⟩ forsaken := by
  intro id c' hc' halive
  rcases connection_of_concat hc' with hc | ⟨rfl, rfl⟩
  · rcases h id c' hc halive with howns | hforsaken
    · exact hold id c' hc halive howns
    · exact .inr hforsaken
  · exact hnew halive

end Kept

end Roster

variable {h₀ : Hub} {moment : Moment} {R R' : Roster} {forsaken : Nat → Prop}

/-- Whatever is done at a moment, a client that is alive is kept, unless it is dropped or its start
raises. -/
theorem Shift.kept (hshift : Shift h₀ moment R R')
    (hforsaken : ∀ id, Hub.Drops id h₀ moment ∨ Hub.Raises id h₀ moment → forsaken id)
    (h : R.Kept forsaken) : R'.Kept forsaken := by
  cases hshift with
  | eased heased => exact h.eased heased
  | noted client hm => exact h.modify client fun _ => id
  | asked hd hc hready => exact h.modify _ fun _ => id
  | announced =>
    refine Roster.Kept.alterDocument ?_ _ _ _
    exact h.modify _ fun _ => id
  | changed => exact Roster.Kept.modify (h.alterDocument _ _ _) _ fun _ => id
  | lost hd => exact h.alterDocument _ _ _
  | colored hR heased => exact (h.eased heased).alterDocument _ _ _
  | labelled legend hs => exact h.alter _ fun _ => rfl
  | readied encoding hs hc hstarting =>
    refine Roster.Kept.modify ?_ _ fun c halive => ?_
    · exact h.alter _ fun _ => rfl
    rw [Client.markReady] at halive
    split at halive
    · next hstate =>
      rw [hstate]
      rfl
    · exact halive
  | adopted hs houtdated => exact h.alter _ fun _ => rfl
  | closed uri =>
    intro id c hc halive
    refine (h id c hc halive).imp_left ?_
    rintro ⟨language, s, hs, rfl⟩
    refine ⟨language, { s with documents := s.documents.erase uri }, ?_, rfl⟩
    have hfound := Table.find?_map R.sessions
      (fun s => { s with documents := s.documents.erase uri }) language
    rw [hs] at hfound
    exact hfound
  | @joined language s c sessions hnewborn hclient hfind hdead hdocuments =>
    refine h.concat (fun id c hc halive howns => .inl ?_) fun _ =>
      .inl ⟨language, s, (hfind language).trans (if_pos rfl), hclient⟩
    obtain ⟨other, s', hs', rfl⟩ := howns
    refine ⟨other, s', (hfind other).trans ?_, rfl⟩
    rw [if_neg]
    · exact hs'
    · rintro rfl
      rw [hdead s' hs' c hc] at halive
      cases halive
  | stillborn hnewborn hlost =>
    refine h.concat (fun _ _ _ _ howns => .inl howns) fun halive => .inr ?_
    rcases hlost with hdead | hraises
    · rw [hdead] at halive
      cases halive
    · exact hforsaken _ (.inr hraises)
  | ended hended =>
    intro id c hc halive
    rcases h id c hc halive with ⟨language, s, hs, rfl⟩ | hgone
    · rcases hended language with hsame | ⟨-, hlost⟩
      · exact .inl ⟨language, s, hsame.trans hs, rfl⟩
      · rcases hlost s hs with hdead | hdrops
        · rw [hdead c hc] at halive
          cases halive
        · exact .inr (hforsaken _ (.inl hdrops))
    · exact .inr hgone

theorem Passage.kept (hpassage : Passage h₀ moment R)
    (hforsaken : ∀ id, Hub.Drops id h₀ moment ∨ Hub.Raises id h₀ moment → forsaken id)
    (h : h₀.roster.Kept forsaken) : R.Kept forsaken := by
  induction hpassage with
  | refl => exact h
  | tail _ hshift ih => exact hshift.kept hforsaken ih

namespace Hub

/-- In a run a restart dropped the session of the client, which had no documents, or the start of
the client raised. -/
def Forsaken (h₀ : Hub) (moments : List Moment) (client : Nat) : Prop :=
  h₀.Once moments fun h moment => Drops client h moment ∨ Raises client h moment

/-- A shutdown forsakes no client. -/
theorem Forsaken.of_shutdown {moments : List Moment} {client : Nat}
    (h : Forsaken h₀ (moments ++ [.turn (.deed .shutdown) nofun]) client) :
    Forsaken h₀ moments client := by
  rcases h.of_append with hbefore | hdrops | hraises
  · exact hbefore
  · obtain ⟨language, s, ⟨hdrain, heq⟩, -⟩ := hdrops
    cases heq
  · obtain ⟨-, fault, -, ⟨id, ⟨hdrain, heq⟩, -⟩ | ⟨language, ⟨hdrain, heq⟩, -⟩⟩ := hraises
    · cases heq
    · cases heq

theorem kept_after (hfresh : h₀.Fresh) (moments : List Moment) :
    (h₀.after moments).roster.Kept (Forsaken h₀ moments) := by
  induction moments using List.reverseRecOn with
  | nil =>
    intro id c hc
    rw [show (h₀.after []).roster = ⟨[], []⟩ from roster_fresh hfresh] at hc
    cases hc
  | append_singleton past moment ih =>
    refine (passage_after hfresh past moment).kept (fun id hgone => once_last hgone) ?_
    exact fun id c hc halive => (ih id c hc halive).imp_right fun hgone => hgone.append _

/-- After every run, whichever starts and writes fail in it, a client that is alive belongs to a
session, unless it was forsaken; and a shutdown leaves none alive but those that were forsaken. -/
theorem owned_of_alive (hfresh : h₀.Fresh) (moments : List Moment) (client : Nat) :
    let h := h₀.after moments
    (∀ c, h.fleet.connections[client]? = some c → c.client.state.isAlive = true →
      h.roster.Owns client ∨ Forsaken h₀ moments client) ∧
    ∀ c, h.shutdown.fleet.connections[client]? = some c → c.client.state.isAlive = true →
      Forsaken h₀ moments client := by
  intro h
  refine ⟨kept_after hfresh moments client, fun c hc halive => ?_⟩
  have hkept := kept_after hfresh (moments ++ [.turn (.deed .shutdown) nofun]) client c
  rw [after_append] at hkept
  rcases hkept hc halive with ⟨language, s, hs, -⟩ | hgone
  · cases hs
  · exact hgone.of_shutdown

/-- Of two servers one is restarted when it has no documents any more: the other one has a session,
and the first outlives even a shutdown because it was forsaken. -/
theorem owned_of_alive_one_of_two :
    let h₀ : Hub := { settings := {}, root := none, fleet := { capacity := 4 } }
    let moments : List Moment :=
      [.turn (.deed (.create "/a.cpp" [] 24 80 {})) nofun,
        .turn (.deed (.create "/b.rs" [] 24 80 {})) nofun, .turn (.deed (.openDocument 0)) nofun,
        .turn (.deed (.openDocument 1)) nofun, .turn (.deed (.closeDocument 0)) nofun,
        .turn (.deed (.restart "cpp")) nofun]
    let h := h₀.after moments
    h₀.Fresh ∧ (h.roster.Owns 1 ∨ Forsaken h₀ moments 1) ∧ Forsaken h₀ moments 0 := by
  intro h₀ moments h
  have hfresh : h₀.Fresh := ⟨rfl, rfl, rfl⟩
  have hother : (h.fleet.connections[1]?.any (·.client.state.isAlive)) = true := by
    decide +kernel
  have hleft : (h.shutdown.fleet.connections[0]?.any (·.client.state.isAlive)) = true := by
    decide +kernel
  have howned := (owned_of_alive hfresh moments 1).1
  have hforsaken := (owned_of_alive hfresh moments 0).2
  have hrun : h = h₀.after moments := rfl
  rw [← hrun] at howned hforsaken
  clear_value h
  obtain ⟨c, hc, halive⟩ := (Option.any_eq_true _ _).1 hother
  obtain ⟨c', hc', halive'⟩ := (Option.any_eq_true _ _).1 hleft
  exact ⟨hfresh, howned c hc halive, hforsaken c' hc' halive'⟩

/-- A server whose last document was closed is dropped by a restart, and the pipe of another one
fails in an unforeseen way when it is started: each stays alive without a session, and a shutdown
does not stop it. -/
theorem alive_of_dropped :
    let dropped : Hub :=
      Hub.after { settings := {}, root := none, fleet := { capacity := 4 } }
        [.turn (.deed (.create "/a.cpp" [] 24 80 {})) nofun,
          .turn (.deed (.openDocument 0)) nofun, .turn (.deed (.closeDocument 0)) nofun,
          .turn (.deed (.restart "cpp")) nofun]
    let plan : SpawnPlan := { inputFault := some ⟨.other "RuntimeError", ""⟩ }
    let raised : Hub :=
      Hub.after { settings := {}, root := none, fleet := { plans := [plan], capacity := 4 } }
        [.turn (.deed (.create "/a.cpp" [] 24 80 {})) nofun,
          .turn (.deed (.openDocument 0)) nofun]
    ∀ h ∈ [dropped, raised, dropped.shutdown, raised.shutdown],
      h.sessions.isEmpty = true ∧
        h.fleet.connections.map (·.client.state) = [.starting] := by
  decide +kernel

end Hub

end TextEditor.Server
