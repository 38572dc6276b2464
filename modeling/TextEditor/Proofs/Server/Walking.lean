import TextEditor.Proofs.Server.Trials

/-!
# Deeds in strides

Every deed of the hub is a walk, whichever of its writes fail.  What was begun when a write raised
is left as it is: the documents that wait to be announced are skipped then.
-/

namespace TextEditor.Server

variable {h₀ : Hub} {deed : Deed} {agenda agenda' : List (String × String)} {F F' : Face}

/-- Lines stay, and their pipes are what they were. -/
theorem Stride.fault (hstride : Stride h₀ deed agenda F agenda' F') {i : Nat} {l : Line}
    (hl : F.lines[i]? = some l) : ∃ l', F'.lines[i]? = some l' ∧ l'.fault = l.fault := by
  have hmodify : ∀ (client : Nat) (change : Line → Line), (∀ l, (change l).fault = l.fault) →
      ∃ l', (F.lines.modify client change)[i]? = some l' ∧ l'.fault = l.fault := by
    intro client change hchange
    rw [List.getElem?_modify, hl]
    refine ⟨_, rfl, ?_⟩
    dsimp only
    split
    · exact hchange l
    · rfl
  cases hstride with
  | wane hwane =>
    obtain ⟨l', hl', hwanes⟩ := hwane.some_right hl
    exact ⟨l', hl', hwanes.fault⟩
  | neutral client hm => exact hmodify client _ fun _ => rfl
  | begun hbegun huntold =>
    exact ⟨l, (List.getElem?_append_left (List.getElem?_eq_some_iff.1 hl).1).trans hl, rfl⟩
  | announced hs hd hb hready => exact hmodify _ _ fun _ => rfl
  | changed hs hd hb hopened hready => exact hmodify _ _ fun _ => rfl
  | retired language => exact ⟨l, by rw [Face.lines_release]; exact hl, rfl⟩
  | released hs hdead => exact ⟨l, by rw [Face.lines_release]; exact hl, rfl⟩
  | initiated hs hl' hstate hstarts encoding => exact hmodify _ _ fun _ => rfl
  | _ => exact ⟨l, hl, rfl⟩

/-- The buffer keeps its place, its text and its view, and what waits to be told of it stays or is
dropped. -/
structure Spares (b b' : Buffer) : Prop where
  path : b'.path = b.path
  profile : b'.profile = b.profile
  document : b'.document = b.document
  viewport : b'.viewport = b.viewport
  caret : b'.caret = b.caret
  changes : b'.changes = [] ∨ b'.tracking = b.tracking ∧ b'.changes = b.changes

theorem Spares.refl (b : Buffer) : Spares b b :=
  ⟨rfl, rfl, rfl, rfl, rfl, .inr ⟨rfl, rfl⟩⟩

theorem Spares.trans {b b' b'' : Buffer} (h : Spares b b') (h' : Spares b' b'') :
    Spares b b'' where
  path := h'.path.trans h.path
  profile := h'.profile.trans h.profile
  document := h'.document.trans h.document
  viewport := h'.viewport.trans h.viewport
  caret := h'.caret.trans h.caret
  changes := by
    rcases h'.changes with hnone | ⟨htracking', hchanges'⟩
    · exact .inl hnone
    · rcases h.changes with hnone | ⟨htracking, hchanges⟩
      · exact .inl (hchanges'.trans hnone)
      · exact .inr ⟨htracking'.trans htracking, hchanges'.trans hchanges⟩

theorem Spares.rel_refl (x : Option Buffer) : Option.Rel Spares x x := by
  cases x with
  | none => exact .none
  | some b => exact .some (Spares.refl b)

theorem Spares.rel_trans {x y z : Option Buffer} (h : Option.Rel Spares x y)
    (h' : Option.Rel Spares y z) : Option.Rel Spares x z := by
  cases h with
  | none => exact h'
  | some h =>
    cases h' with
    | some h' => exact .some (h.trans h')

namespace Face

theorem spares_touch (F : Face) (id : Nat) {change : Buffer → Buffer}
    (hchange : ∀ b, Spares b (change b)) (i : Nat) :
    Option.Rel Spares F.buffers[i]? (F.touch id change).buffers[i]? := by
  rw [buffer_touch]
  cases F.buffers[i]? with
  | none => exact .none
  | some b =>
    refine .some ?_
    split
    · exact hchange b
    · exact Spares.refl b

theorem spares_release (F : Face) (documents : List TrackedDocument) (i : Nat) :
    Option.Rel Spares F.buffers[i]? (F.release documents).buffers[i]? := by
  rw [buffer_release]
  cases F.buffers[i]? with
  | none => exact .none
  | some b =>
    refine .some ?_
    split
    · exact ⟨rfl, rfl, rfl, rfl, rfl, .inl rfl⟩
    · exact Spares.refl b

end Face

/-- No stride does anything to the text of a buffer. -/
theorem Stride.spares (hstride : Stride h₀ deed agenda F agenda' F') (i : Nat) :
    Option.Rel Spares F.buffers[i]? F'.buffers[i]? := by
  have htouch : ∀ (id : Nat) (change : Buffer → Buffer), (∀ b, Spares b (change b)) →
      Option.Rel Spares F.buffers[i]? (F.touch id change).buffers[i]? :=
    fun id change hchange => F.spares_touch id hchange i
  cases hstride with
  | announced | muted | drained | changed | lost | adopted | closed =>
    exact htouch _ _ fun b => ⟨rfl, rfl, rfl, rfl, rfl, .inl rfl⟩
  | retired language =>
    exact Face.spares_release { F with sessions := F.sessions.erase language } _ i
  | released => exact F.spares_release _ i
  | colored => exact htouch _ _ fun b => ⟨rfl, rfl, rfl, rfl, rfl, .inr ⟨rfl, rfl⟩⟩
  | _ => exact Spares.rel_refl _

namespace Walk

theorem spares (hwalk : Walk h₀ deed agenda F) (i : Nat) :
    Option.Rel Spares h₀.face.buffers[i]? F.buffers[i]? := by
  induction hwalk with
  | start => exact Spares.rel_refl _
  | step _ hstride ih => exact Spares.rel_trans ih (hstride.spares i)

theorem spared (hwalk : Walk h₀ deed agenda F) {i : Nat} {b' : Buffer}
    (hb' : F.buffers[i]? = some b') : ∃ b, h₀.buffers[i]? = some b ∧ Spares b b' := by
  have hspares := hwalk.spares i
  rw [hb'] at hspares
  generalize hb : h₀.face.buffers[i]? = x at hspares
  cases hspares with
  | some hspares => exact ⟨_, hb, hspares⟩

/-- No buffer gets lost on a walk. -/
theorem length_buffers (hwalk : Walk h₀ deed agenda F) :
    h₀.buffers.length ≤ F.buffers.length := by
  by_contra hfewer
  have hspares := hwalk.spares F.buffers.length
  have hbefore : h₀.face.buffers[F.buffers.length]? = some _ :=
    List.getElem?_eq_getElem (Nat.lt_of_not_le hfewer)
  rw [hbefore, List.getElem?_eq_none (Nat.le_refl _)] at hspares
  cases hspares

theorem tidy (hwalk : Walk h₀ deed agenda F) (htidy : h₀.face.Tidy) : F.Tidy := by
  induction hwalk with
  | start => exact htidy
  | step _ hstride ih => exact ih.stride hstride

theorem fault (hwalk : Walk h₀ deed agenda F) {i : Nat} {l₀ : Line}
    (hl₀ : h₀.face.lines[i]? = some l₀) : ∃ l, F.lines[i]? = some l ∧ l.fault = l₀.fault := by
  induction hwalk with
  | start => exact ⟨l₀, hl₀, rfl⟩
  | step _ hstride ih =>
    obtain ⟨l, hl, hsame⟩ := ih
    obtain ⟨l', hl', hsame'⟩ := hstride.fault hl
    exact ⟨l', hl', hsame'.trans hsame⟩

/-- All that is on the agenda may be left for later. -/
theorem skipAll (hwalk : Walk h₀ deed agenda F) : Walk h₀ deed [] F := by
  induction agenda with
  | nil => exact hwalk
  | cons entry rest ih => exact ih (hwalk.step .skipped)

theorem follows (hwalk : Walk h₀ deed agenda F) {lines : List Line}
    (hlines : Follows F.lines lines) : Walk h₀ deed agenda { F with lines } := by
  obtain ⟨begun, hbegun, hwane⟩ := hlines
  suffices hall : Walk h₀ deed agenda { F with lines := F.lines ++ begun } from
    hall.step (.wane hwane)
  clear hwane
  induction begun generalizing F with
  | nil => rw [List.append_nil]; exact hwalk
  | cons l rest ih =>
    obtain ⟨hfirst, huntold⟩ := hbegun l List.mem_cons_self
    have hrest := ih (hwalk.step (.begun hfirst huntold)) fun l' hl' =>
      hbegun l' (List.mem_cons_of_mem _ hl')
    rw [List.append_assoc] at hrest
    exact hrest

end Walk

namespace Hub

variable {h h' : Hub} {s : Session} {language uri : String} {serving : Session → Prop}

/-- A walk of a deed led to the hub, and some sessions serve there. -/
structure Reached (h₀ : Hub) (deed : Deed) (serving : Session → Prop)
    (agenda : List (String × String)) (h : Hub) : Prop where
  walk : Walk h₀ deed agenda h.face
  tidy : h.face.Tidy
  serves : ∀ s, serving s → h.face.Serves s

/-- No session needs to serve. -/
def nobody : Session → Prop :=
  fun _ => False

namespace Reached

theorem start (htidy : h.face.Tidy) : Reached h deed nobody [] h :=
  ⟨.start, htidy, nofun⟩

theorem of_face (hreached : Reached h₀ deed serving agenda h) (hface : h'.face = h.face) :
    Reached h₀ deed serving agenda h' :=
  ⟨hface ▸ hreached.walk, hface ▸ hreached.tidy, fun s hs => hface ▸ hreached.serves s hs⟩

theorem stride (hreached : Reached h₀ deed serving agenda h)
    (hstride : Stride h₀ deed agenda h.face agenda' h'.face)
    (hserves : ∀ s, h.face.Serves s → h'.face.Serves s) :
    Reached h₀ deed serving agenda' h' where
  walk := hreached.walk.step hstride
  tidy := hreached.tidy.stride hstride
  serves s hs := hserves s (hreached.serves s hs)

theorem toNobody (hreached : Reached h₀ deed serving agenda h) :
    Reached h₀ deed nobody [] h :=
  ⟨hreached.walk.skipAll, hreached.tidy, nofun⟩

/-- A stride after which no session needs to serve. -/
theorem go (hreached : Reached h₀ deed serving agenda h)
    (hstride : Stride h₀ deed agenda h.face agenda' h'.face) :
    Reached h₀ deed nobody agenda' h' :=
  ⟨hreached.walk.step hstride, hreached.tidy.stride hstride, nofun⟩

theorem follows (hreached : Reached h₀ deed nobody agenda h)
    (hlines : Follows h.fleet.lines h'.fleet.lines) (hsessions : h'.sessions = h.sessions)
    (hbuffers : h'.buffers = h.buffers) : Reached h₀ deed nobody agenda h' := by
  have hface : h'.face = { h.face with lines := h'.fleet.lines } := by
    simp only [face, hsessions, hbuffers]
  have hwalk := hreached.walk.follows hlines
  rw [← hface] at hwalk
  refine ⟨hwalk, ?_, fun _ hs => hs.elim⟩
  obtain ⟨begun, hbegun, hwane⟩ := hlines
  rw [hface]
  refine hreached.tidy.withLines (fun i l hl => ?_) fun l' hl' => ?_
  · have hleft : (h.fleet.lines ++ begun)[i]? = some l :=
      (List.getElem?_append_left (List.getElem?_eq_some_iff.1 hl).1).trans hl
    obtain ⟨l', hl', hwanes⟩ := hwane.some_right hleft
    exact ⟨l', hl', hwanes.hasInput⟩
  · obtain ⟨i, hi⟩ := List.getElem?_of_mem hl'
    obtain ⟨l, hl, hwanes⟩ := hwane.some_left hi
    apply hwanes.settled
    rcases List.mem_append.1 (List.mem_of_getElem? hl) with hold | hnew
    · exact hreached.tidy.settled l hold
    · have hfirst := (hbegun l hnew).1
      exact ⟨hfirst.starts, fun hstate => absurd hfirst.state hstate⟩

theorem wane (hreached : Reached h₀ deed nobody agenda h)
    (hwane : Wane h.fleet.lines h'.fleet.lines) (hsessions : h'.sessions = h.sessions)
    (hbuffers : h'.buffers = h.buffers) : Reached h₀ deed nobody agenda h' :=
  hreached.follows ⟨[], by simp, by rw [List.append_nil]; exact hwane⟩ hsessions hbuffers

/-- The session and the buffer of a document that a session serves with. -/
theorem document (hreached : Reached h₀ deed serving agenda h) (hs : serving s)
    {d : TrackedDocument} (hd : h.document? s.language uri = some d) :
    ∃ s' b, h.face.sessions.find? s.language = some s' ∧ s'.client = s.client ∧
      s'.encoding = s.encoding ∧ s'.documents.find? uri = some d ∧
        h.face.buffers[d.buffer]? = some b ∧
          h.face.lines[s'.client]?.map Line.state = some .ready := by
  obtain ⟨⟨s', hs', hclient, hencoding⟩, hready⟩ := hreached.serves s hs
  obtain ⟨s₁, hs₁, hfound⟩ := document?_eq_some hd
  obtain rfl : s' = s₁ := Option.some.inj (hs'.symm.trans hs₁)
  obtain ⟨-, b, hb, -⟩ := hreached.tidy.placed s.language s' uri d hs' hfound
  exact ⟨s', b, hs', hclient, hencoding, hfound, hb, by rw [hclient]; exact hready⟩

end Reached

/-! ## Telling -/

theorem face_release (h : Hub) (documents : List TrackedDocument) :
    (h.release documents).face = h.face.release documents := by
  induction documents generalizing h with
  | nil => rfl
  | cons document rest ih => exact ih (h.alterBuffer document.buffer Buffer.untrack)

/-- A message that concerns no document. -/
theorem reached_guarded {step : Step Fleet Unit}
    (htries : Fleet.Tries step s.client Fleet.Neutral) :
    Step.Keeps (Reached h₀ deed serving agenda) (guarded s step) := by
  intro h hreached
  rcases guarded_cases htries h with
    ⟨m, h', hm, hstart, hface⟩ | ⟨outcome, h', hstart, -, hface, -⟩
  · rw [hstart]
    refine hreached.stride (hface ▸ .neutral s.client hm) fun s hserves => ?_
    rw [hface]
    exact hserves.sent _ m
  · rw [hstart]
    exact hreached.of_face hface

theorem reached_requestTokens (s : Session) (document : TrackedDocument) :
    Step.Keeps (Reached h₀ deed serving agenda) (requestTokens s document) :=
  Step.Keeps.bind (reached_guarded (Fleet.tries_tokensRequest _ _ _)) fun _ => Step.Keeps.pure _

/-- A server that serves is told of a document, or it cannot be told of it now. -/
theorem reached_tellOpening (hs : serving s)
    (hreached : Reached h₀ deed serving ((s.language, uri) :: agenda) h) {d : TrackedDocument}
    {b : Buffer} (hdocument : h.document? s.language uri = some d)
    (hb : h.buffers[d.buffer]? = some b) :
    Reached h₀ deed serving agenda
      ((tellOpening s uri d b).start (h.alterBuffer d.buffer Buffer.track)).2 := by
  obtain ⟨s', b', hs', hclient, -, hfound, hb', hready⟩ := hreached.document hs hdocument
  obtain rfl : b = b' := Option.some.inj (hb.symm.trans hb')
  rw [tellOpening, Step.start_bind]
  rcases guarded_cases (Fleet.tries_notification
      (.didOpen uri b.language b.text d.version) rfl s.client)
      (h.alterBuffer d.buffer Buffer.track) with
    ⟨m, h₁, rfl, hstart, hface⟩ | ⟨outcome, h₁, hstart, hfailed, hface, -⟩
  · change (guarded s (Fleet.sendDidOpen s.client uri b.language b.text d.version)).start _ = _
      at hstart
    rw [hstart]
    simp only [if_true]
    rw [Step.start_bind, Step.start_modify]
    dsimp only
    let change : TrackedDocument → TrackedDocument := fun d => { d with opened := true }
    have htold : (h₁.alterDocument s.language uri change).face =
        ((h.face.touch d.buffer Buffer.track).sent s'.client
          (.didOpen uri b.language b.text d.version)).alterDocument s.language uri change := by
      rw [face_alterDocument, hface, hclient]
      rfl
    refine reached_requestTokens s d _ (hreached.stride ?_ fun s₀ hserves => ?_)
    · rw [htold]
      exact .announced hs' hfound hb hready
    · rw [htold]
      have htouched : (h.face.touch d.buffer Buffer.track).Serves s₀ :=
        ⟨hserves.current, hserves.ready⟩
      exact (htouched.sent s'.client _).alter s.language fun s => ⟨rfl, rfl⟩
  · change (guarded s (Fleet.sendDidOpen s.client uri b.language b.text d.version)).start _ = _
      at hstart
    rw [hstart]
    have hmuted : Reached h₀ deed serving agenda h₁ :=
      hreached.stride (by rw [hface]; exact .muted hs' hfound) fun s₀ hserves => by
        rw [hface]
        exact ⟨hserves.current, hserves.ready⟩
    cases outcome with
    | error fault => exact hmuted
    | ok opened =>
      cases opened with
      | false => exact hmuted
      | true => exact absurd rfl hfailed

/-- Announcing takes a document off the agenda, whether its server can be told or not. -/
theorem reached_announce (hs : serving s)
    (hreached : Reached h₀ deed serving ((s.language, uri) :: agenda) h) :
    Reached h₀ deed serving agenda ((announce s uri).start h).2 := by
  cases hdocument : h.document? s.language uri with
  | none =>
    rw [start_announce_of_none hdocument]
    exact hreached.stride .skipped fun _ h => h
  | some d =>
    obtain ⟨-, b, -, -, -, -, hb, -⟩ := hreached.document hs hdocument
    rw [start_announce_of_some hdocument hb]
    exact reached_tellOpening hs hreached hdocument hb

theorem reached_announceAll (hs : serving s) {entries : List (String × TrackedDocument)}
    (hreached : Reached h₀ deed serving (entries.map fun entry => (s.language, entry.1)) h) :
    Reached h₀ deed nobody [] ((entries.forM fun entry => announce s entry.1).start h).2 := by
  induction entries generalizing h with
  | nil => exact hreached.toNobody
  | cons entry rest ih =>
    have hfirst := reached_announce hs hreached
    rw [List.forM, Step.start_bind]
    generalize (announce s entry.1).start h = result at hfirst ⊢
    obtain ⟨outcome, h'⟩ := result
    cases outcome with
    | error fault => exact Reached.toNobody hfirst
    | ok _ => exact ih hfirst

/-! ## Changes -/

/-- A server that serves and does not take a change has a pipe that was broken before the walk. -/
theorem Reached.broken (hreached : Reached h₀ deed serving agenda h) (hs : serving s)
    (hold : ∃ l, h₀.face.lines[s.client]? = some l) (hlines : h'.face.lines = h.face.lines)
    {version : Int} {changes : List Json} {fault : Fault}
    (hfailed : (Fleet.sendDidChange s.client uri version changes).start h'.fleet =
      (.error fault, h'.fleet)) :
    ∃ l, h₀.face.lines[s.client]? = some l ∧ l.fault ≠ none := by
  obtain ⟨l₀, hl₀⟩ := hold
  obtain ⟨l, hl, hsame⟩ := hreached.walk.fault hl₀
  obtain ⟨⟨s', hs', hclient, -⟩, hready⟩ := hreached.serves s hs
  obtain ⟨l', hl', hinput⟩ := hreached.tidy.served s.language s' hs'
  rw [hclient] at hl'
  obtain rfl : l = l' := Option.some.inj (hl.symm.trans hl')
  rw [hl, Option.map_some] at hready
  have halive : l.state.isAlive = true := by
    rw [Option.some.inj hready]
    rfl
  have hline : h'.fleet.lines[s.client]? = some l := (congrArg (·[s.client]?) hlines).trans hl
  have hbroken := fault_of_failed (Fleet.sends_didChange s.client uri version changes) hline halive
    hinput hfailed
  exact ⟨l₀, hl₀, hsame ▸ hbroken⟩

/-- The changes of a document are drained, and its server is told of them or they are lost. -/
theorem reached_tellChanges (hs : serving s) (hdeed : deed = .syncChanges)
    (hold : ∃ l, h₀.face.lines[s.client]? = some l) (hreached : Reached h₀ deed serving [] h)
    {d : TrackedDocument} {b : Buffer} (hdocument : h.document? s.language uri = some d)
    (hb : h.buffers[d.buffer]? = some b) (hopened : d.opened = true) :
    Reached h₀ deed serving [] ((tellChanges s uri d b.changes).start
      (h.alterBuffer d.buffer fun b => b.drainChanges.2)).2 := by
  obtain ⟨s', b', hs', hclient, hencoding, hfound, hb', hready⟩ := hreached.document hs hdocument
  obtain rfl : b = b' := Option.some.inj (hb.symm.trans hb')
  let change : TrackedDocument → TrackedDocument := fun d' => { d' with version := d.version + 1 }
  rw [tellChanges, Step.start_bind, Step.start_modify]
  dsimp only
  rw [Step.start_bind]
  generalize hbump : Hub.alterDocument _ s.language uri _ = bumped
  have hbumped : bumped.face =
      (h.face.touch d.buffer fun b => b.drainChanges.2).alterDocument s.language uri change := by
    rw [← hbump]
    exact face_alterDocument _ _ _ _
  have hserves : ∀ s₀, h.face.Serves s₀ → bumped.face.Serves s₀ := fun s₀ hserves => by
    rw [hbumped]
    have htouched : (h.face.touch d.buffer fun b => b.drainChanges.2).Serves s₀ :=
      ⟨hserves.current, hserves.ready⟩
    exact htouched.alter s.language fun s => ⟨rfl, rfl⟩
  rcases guarded_cases (Fleet.tries_notification (.didChange uri (d.version + 1)
      (b.changes.map (Message.rangeChange · s.encoding))) rfl s.client) bumped with
    ⟨m, h₁, rfl, hstart, hface⟩ | ⟨outcome, h₁, hstart, hfailed, hface, fault, hfault⟩
  · change (guarded s (Fleet.sendDidChange s.client uri (d.version + 1)
      (b.changes.map fun delta => Message.rangeChange delta s.encoding))).start _ = _ at hstart
    rw [hstart]
    simp only [if_true]
    have htold : h₁.face = ((h.face.touch d.buffer fun b => b.drainChanges.2).alterDocument
        s.language uri change).sent s'.client (.didChange uri (d.version + 1)
          (b.changes.map (Message.rangeChange · s'.encoding))) := by
      rw [hface, hbumped, hclient, hencoding]
    have hchanged : Reached h₀ deed serving [] h₁ :=
      hreached.stride (by rw [htold]; exact .changed hs' hfound hb hopened hready)
        fun s₀ hserves₀ => by
          rw [hface]
          exact (hserves s₀ hserves₀).sent _ _
    exact Step.Keeps.bind (reached_requestTokens s _) (fun _ => Step.Keeps.pure _) h₁ hchanged
  · change (guarded s (Fleet.sendDidChange s.client uri (d.version + 1)
      (b.changes.map fun delta => Message.rangeChange delta s.encoding))).start _ = _ at hstart
    rw [hstart]
    have hlines : bumped.face.lines = h.face.lines := by
      rw [hbumped]
      rfl
    obtain ⟨l, hl, hbroken⟩ := hreached.broken hs hold hlines hfault
    have hlost : Reached h₀ deed serving [] h₁ := by
      refine hreached.stride ?_ fun s₀ hserves₀ => hface ▸ hserves s₀ hserves₀
      rw [hface, hbumped]
      exact .lost hs' hfound hb hopened hdeed ⟨l, hclient ▸ hl, hbroken⟩
    cases outcome with
    | error fault => exact hlost
    | ok sent =>
      cases sent with
      | false => exact hlost
      | true => exact absurd rfl hfailed

/-- The changes of a document are drained, and its server is told of them if it can be. -/
theorem reached_syncDocument (hs : serving s) (hdeed : deed = .syncChanges)
    (hold : ∃ l, h₀.face.lines[s.client]? = some l) :
    Step.Keeps (Reached h₀ deed serving []) (syncDocument s uri) := by
  intro h hreached
  cases hdocument : h.document? s.language uri with
  | none =>
    rw [start_syncDocument_of_none hdocument]
    exact hreached
  | some d =>
  obtain ⟨s', b, hs', -, -, hfound, hb, -⟩ := hreached.document hs hdocument
  rw [start_syncDocument_of_some hdocument hb]
  by_cases hidle : (b.changes.isEmpty || !d.opened) = true
  · rw [if_pos hidle]
    refine hreached.stride ?_ fun s₀ hserves => ⟨hserves.current, hserves.ready⟩
    exact .drained hs' hfound hb (by simpa using hidle)
  · rw [if_neg hidle]
    simp only [Bool.or_eq_true, Bool.not_eq_true', not_or, Bool.not_eq_false] at hidle
    exact reached_tellChanges hs hdeed hold hreached hdocument hb hidle.2

theorem stateOf_of_tidy (htidy : h.face.Tidy) (hs : h.sessions.find? language = some s) :
    h.face.lines[s.client]?.map Line.state = some (h.stateOf s) := by
  obtain ⟨l, hl, -⟩ := htidy.served language s hs
  have hl' : h.fleet.lines[s.client]? = some l := hl
  rw [hl, stateOf, Fleet.stateOf_of_line hl', Option.map_some]

theorem walk_syncChanges (htidy : h.face.Tidy) :
    Reached h .syncChanges nobody [] (syncChanges.start h).2 := by
  let serving : Session → Prop := fun s => s ∈ h.sessions.values ∧ h.isReady s = true
  have hstart : Reached h .syncChanges serving [] h := by
    refine ⟨.start, htidy, fun s ⟨hmem, hready⟩ => ?_⟩
    have hs := htidy.regular.find?_of_mem_values hmem
    refine ⟨⟨s, hs, rfl, rfl⟩, (stateOf_of_tidy htidy hs).trans (congrArg some ?_)⟩
    exact of_decide_eq_true hready
  suffices hall : Reached h .syncChanges serving [] (syncChanges.start h).2 from hall.toNobody
  rw [syncChanges, Step.start_bind, Step.start_get]
  refine Step.Keeps.foldlM (fun total s hmem => ?_) 0 h hstart
  by_cases hready : h.isReady s = true
  · rw [if_pos hready]
    obtain ⟨l, hl, -⟩ := htidy.served s.language s (htidy.regular.find?_of_mem_values hmem)
    refine Step.Keeps.foldlM (fun total entry _ => ?_) total
    exact Step.Keeps.bind (reached_syncDocument ⟨hmem, hready⟩ rfl ⟨l, hl⟩) fun _ =>
      Step.Keeps.pure _
  · rw [if_neg hready]
    exact Step.Keeps.pure total

end Hub

end TextEditor.Server
