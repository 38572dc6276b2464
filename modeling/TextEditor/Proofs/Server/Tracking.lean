import Mathlib.Data.List.Induction
import TextEditor.Proofs.Server.Turns

/-!
# Buffers that are followed

A buffer queues its changes while it is followed, and the documents of the sessions are all that
takes them off the queue.  Whether a buffer is followed is kept with it, and its documents are kept
by uri, so that two buffers with one path contend for one document: opening or closing one of them
takes the document of the other away, which is followed all the same.  It is shown that this, and
the start of a successor that raises, are the only ways for a buffer to go astray.
-/

namespace TextEditor.Server

namespace Face

variable {F F' : Face} {i : Nat}

/-- The buffer queues its changes for a server. -/
def Followed (F : Face) (i : Nat) : Prop :=
  ∃ b, F.buffers[i]? = some b ∧ b.tracking = true

/-- A session has a document of the buffer. -/
def Holds (F : Face) (i : Nat) : Prop :=
  ∃ language s uri d, F.sessions.find? language = some s ∧ s.documents.find? uri = some d ∧
    d.buffer = i

/-- The buffer is followed, and no session has a document of it. -/
def Astray (F : Face) (i : Nat) : Prop :=
  F.Followed i ∧ ¬F.Holds i

theorem followed_touch {id : Nat} {change : Buffer → Buffer}
    (h : (F.touch id change).Followed i) :
    ∃ b, F.buffers[i]? = some b ∧ (if i = id then change b else b).tracking = true := by
  obtain ⟨b', hb', htracking⟩ := h
  obtain ⟨b, hb, rfl⟩ := buffer_of_touch hb'
  exact ⟨b, hb, htracking⟩

/-- A buffer that is followed after a change of one that sets it free was followed before. -/
theorem followed_of_touch {id : Nat} {change : Buffer → Buffer}
    (h : (F.touch id change).Followed i)
    (hchange : ∀ b, (change b).tracking = true → b.tracking = true) : F.Followed i := by
  obtain ⟨b, hb, htracking⟩ := followed_touch h
  refine ⟨b, hb, ?_⟩
  split at htracking
  · exact hchange b htracking
  · exact htracking

theorem followed_of_track {id : Nat} (h : (F.touch id Buffer.track).Followed i) :
    i = id ∨ F.Followed i := by
  obtain ⟨b, hb, htracking⟩ := followed_touch h
  split at htracking
  · next hi => exact .inl hi
  · exact .inr ⟨b, hb, htracking⟩

theorem not_followed_untrack (F : Face) (i : Nat) : ¬(F.touch i Buffer.untrack).Followed i := by
  intro h
  obtain ⟨b, -, htracking⟩ := followed_touch h
  rw [if_pos rfl] at htracking
  cases htracking

theorem followed_of_release {documents : List TrackedDocument}
    (h : (F.release documents).Followed i) :
    F.Followed i ∧ i ∉ documents.map TrackedDocument.buffer := by
  obtain ⟨b', hb', htracking⟩ := h
  rw [buffer_release] at hb'
  obtain ⟨b, hb, rfl⟩ := Option.map_eq_some_iff.1 hb'
  split at htracking
  · cases htracking
  · next hi => exact ⟨⟨b, hb, htracking⟩, hi⟩

/-- The documents stay, or others of the same buffers take their places. -/
theorem Holds.mono (h : F.Holds i)
    (hstay : ∀ language s uri d, F.sessions.find? language = some s →
      s.documents.find? uri = some d → ∃ s' d', F'.sessions.find? language = some s' ∧
        s'.documents.find? uri = some d' ∧ d'.buffer = d.buffer) : F'.Holds i := by
  obtain ⟨language, s, uri, d, hs, hd, hi⟩ := h
  obtain ⟨s', d', hs', hd', hsame⟩ := hstay language s uri d hs hd
  exact ⟨language, s', uri, d', hs', hd', hsame.trans hi⟩

theorem Holds.of_sessions (h : F.Holds i) (hsessions : F'.sessions = F.sessions) : F'.Holds i := by
  rw [Holds, hsessions]
  exact h

/-- A change of a session under which the documents keep their buffers. -/
theorem Holds.alter (h : F.Holds i) (language : String) {change : Session → Session}
    (hchange : ∀ s uri d, s.documents.find? uri = some d →
      ∃ d', (change s).documents.find? uri = some d' ∧ d'.buffer = d.buffer) :
    (F.alter language change).Holds i := by
  refine h.mono fun language' s uri d hs hd => ?_
  by_cases hlanguage : language' = language
  · subst hlanguage
    obtain ⟨d', hd', hsame⟩ := hchange s uri d hd
    exact ⟨change s, d', by rw [find?_alter, if_pos rfl, hs, Option.map_some], hd', hsame⟩
  · exact ⟨s, d, by rw [find?_alter, if_neg hlanguage, hs], hd, rfl⟩

theorem Holds.alterDocument (h : F.Holds i) (language uri : String)
    {change : TrackedDocument → TrackedDocument} (hchange : ∀ d, (change d).buffer = d.buffer) :
    (F.alterDocument language uri change).Holds i := by
  refine h.alter language fun s uri' d hd => ?_
  by_cases huri : uri' = uri
  · subst huri
    exact ⟨change d, by rw [Table.find?_alter, if_pos rfl, hd, Option.map_some], hchange d⟩
  · exact ⟨d, by rw [Table.find?_alter, if_neg huri, hd], rfl⟩

theorem holds_adopted (F : Face) {b : Buffer} {s : Session}
    (hs : F.sessions.find? b.language = some s) (id : Nat) :
    (F.alter b.language fun s => { s with
      documents := s.documents.put (Hub.uriOf b) { buffer := id, uri := Hub.uriOf b } }).Holds
        id := by
  refine ⟨b.language, { s with
    documents := s.documents.put (Hub.uriOf b) { buffer := id, uri := Hub.uriOf b } },
    Hub.uriOf b, { buffer := id, uri := Hub.uriOf b }, ?_, Table.find?_put_self _ _ _, rfl⟩
  rw [find?_alter, if_pos rfl, hs, Option.map_some]

/-- A buffer keeps its document beside a new one, or the new one is for the same place. -/
theorem Holds.adopted (h : F.Holds i) (htidy : F.Tidy) {b : Buffer} {s : Session}
    (hs : F.sessions.find? b.language = some s) (id : Nat) :
    (F.alter b.language fun s => { s with
      documents := s.documents.put (Hub.uriOf b) { buffer := id, uri := Hub.uriOf b } }).Holds i ∨
      id ≠ i ∧ ∃ b', F.buffers[i]? = some b' ∧ b'.language = b.language ∧
        Hub.uriOf b' = Hub.uriOf b := by
  obtain ⟨language, s', uri, d, hs', hd, rfl⟩ := h
  by_cases hid : id = d.buffer
  · exact .inl (hid ▸ F.holds_adopted hs id)
  by_cases hsame : language = b.language ∧ uri = Hub.uriOf b
  · obtain ⟨rfl, rfl⟩ := hsame
    obtain ⟨-, b', hb', huri, hlanguage⟩ := htidy.placed _ s' _ d hs' hd
    exact .inr ⟨hid, b', hb', hlanguage, huri⟩
  · refine .inl ?_
    by_cases hlanguage : language = b.language
    · subst hlanguage
      have huri : uri ≠ Hub.uriOf b := fun huri => hsame ⟨rfl, huri⟩
      refine ⟨b.language, { s' with
        documents := s'.documents.put (Hub.uriOf b) { buffer := id, uri := Hub.uriOf b } },
        uri, d, ?_, (Table.find?_put_of_ne _ _ huri).trans hd, rfl⟩
      exact (F.find?_alter _ _ _).trans (by rw [if_pos rfl, hs', Option.map_some])
    · exact ⟨language, s', uri, d,
        (F.find?_alter _ _ _).trans ((if_neg hlanguage).trans hs'), hd, rfl⟩

/-- A buffer keeps its document when those for a uri are closed, or it is one of them. -/
theorem Holds.closed (h : F.Holds i) (htidy : F.Tidy) (uri : String) :
    ({ F with sessions := F.sessions.map fun entry =>
        (entry.1, { entry.2 with documents := entry.2.documents.erase uri }) } : Face).Holds i ∨
      ∃ b, F.buffers[i]? = some b ∧ Hub.uriOf b = uri := by
  obtain ⟨language, s, uri', d, hs, hd, rfl⟩ := h
  by_cases huri : uri' = uri
  · subst huri
    obtain ⟨-, b, hb, huri, -⟩ := htidy.placed _ s _ d hs hd
    exact .inr ⟨b, hb, huri⟩
  · let change : Session → Session := fun s => { s with documents := s.documents.erase uri }
    have hmap := Table.find?_map F.sessions change language
    rw [hs, Option.map_some] at hmap
    exact .inl ⟨language, change s, uri', d, hmap, (Table.find?_erase_of_ne _ huri).trans hd, rfl⟩

end Face

/-- What can leave a followed buffer without a document: another buffer with its place is opened or
closed, or the start of a successor to a server raises. -/
inductive Hub.Deserts (h : Hub) (i : Nat) : Deed → Prop
  | replaced {j : Nat} {b b' : Buffer} (hne : j ≠ i) (hb : h.buffers[i]? = some b)
    (hb' : h.buffers[j]? = some b') (hlanguage : b'.language = b.language)
    (huri : Hub.uriOf b' = Hub.uriOf b) : Deserts h i (.openDocument j)
  | closed {j : Nat} {b b' : Buffer} (hne : j ≠ i) (hb : h.buffers[i]? = some b)
    (hb' : h.buffers[j]? = some b') (huri : Hub.uriOf b' = Hub.uriOf b) :
    Deserts h i (.closeDocument j)
  | raised {language : String} {fault : Fault}
    (hraised : ((Hub.restart language).start h).1 = .error fault) : Deserts h i (.restart language)

variable {h₀ : Hub} {deed : Deed} {agenda agenda' : List (String × String)} {F F' : Face} {i : Nat}

/-- A buffer that a stride begins to follow has a document then. -/
theorem Stride.followed (hstride : Stride h₀ deed agenda F agenda' F') (h : F'.Followed i) :
    F.Followed i ∨ F'.Holds i := by
  cases hstride with
  | @announced _ _ language uri s d b hs hd hb hready =>
    have hheld : F.Holds d.buffer := ⟨language, s, uri, d, hs, hd, rfl⟩
    rcases Face.followed_of_track (F := F) h with rfl | hold
    · exact .inr ((hheld.of_sessions rfl).alterDocument language uri fun _ => rfl)
    · exact .inl hold
  | @muted _ _ language uri s d hs hd =>
    rcases Face.followed_of_track h with rfl | hold
    · exact .inr ⟨language, s, uri, d, hs, hd, rfl⟩
    · exact .inl hold
  | @adopted _ id s b hdeed hs hb =>
    rcases Face.followed_of_track h with rfl | hold
    · exact .inr (F.holds_adopted hs i)
    · exact .inl hold
  | drained | changed | lost | colored =>
    exact .inl (Face.followed_of_touch (F := F) h fun b hb => hb)
  | closed => exact .inl (Face.followed_of_touch (F := F) h fun b hb => by cases hb)
  | retired | released => exact .inl (Face.followed_of_release h).1
  | _ => exact .inl h

/-- Buffers keep their places on the way. -/
theorem Walk.place (hwalk : Walk h₀ deed agenda F) {b : Buffer} (hb : F.buffers[i]? = some b) :
    ∃ b₀, h₀.buffers[i]? = some b₀ ∧ Hub.uriOf b₀ = Hub.uriOf b ∧ b₀.language = b.language := by
  obtain ⟨b₀, hb₀, hspares⟩ := hwalk.spared hb
  exact ⟨b₀, hb₀, (congrArg Uri.ofPath hspares.path).symm,
    (congrArg Profile.identifier hspares.profile).symm⟩

/-- A buffer whose document a stride takes away is not followed then, or it is left behind. -/
theorem Stride.holds (hwalk : Walk h₀ deed agenda F) (htidy : F.Tidy)
    (hstride : Stride h₀ deed agenda F agenda' F') (h : F.Holds i) :
    F'.Holds i ∨ ¬F'.Followed i ∨ h₀.Deserts i deed := by
  cases hstride with
  | announced => exact .inl ((h.of_sessions rfl).alterDocument _ _ fun _ => rfl)
  | @changed _ language uri s d b hs hd hb hopened hready =>
    have hbumped : (F.alterDocument language uri fun d' =>
        { d' with version := d.version + 1 }).Holds i := h.alterDocument _ _ fun _ => rfl
    exact .inl (hbumped.of_sessions rfl)
  | lost => exact .inl ((h.of_sessions rfl).alterDocument _ _ fun _ => rfl)
  | colored language uri tokens id =>
    have hcolored : (F.alterDocument language uri fun d =>
        { d with tokens, tokensVersion := d.version }).Holds i := h.alterDocument _ _ fun _ => rfl
    exact .inl (hcolored.of_sessions rfl)
  | labelled => exact .inl (h.alter _ fun s uri d hd => ⟨d, hd, rfl⟩)
  | @initiated _ language _ _ hs hl hstate hstarts encoding =>
    have haltered : (F.alter language fun s => { s with encoding }).Holds i :=
      h.alter _ fun s uri d hd => ⟨d, hd, rfl⟩
    exact .inl (haltered.of_sessions rfl)
  | released => exact .inl (h.of_sessions (F.sessions_release _))
  | @joined _ language _ s reset hreset hkeys hfind hlanguage huris hdocuments hline hnew =>
    refine .inl (h.mono fun other s' uri d hs' hd => ?_)
    by_cases hother : other = language
    · subst hother
      refine ⟨_, reset d, (hfind _).trans (if_pos rfl), ?_, (hreset d).1⟩
      rw [hdocuments, Face.documents_of_find? hs', hd, Option.map_some]
    · exact ⟨s', d, (hfind other).trans ((if_neg hother).trans hs'), hd, rfl⟩
  | @adopted _ id s b hdeed hs hb =>
    rcases h.adopted htidy hs id with hholds | ⟨hne, b', hb', hlanguage, huri⟩
    · exact .inl (hholds.of_sessions rfl)
    · obtain ⟨b₀, hb₀, huri₀, hlanguage₀⟩ := hwalk.place hb
      obtain ⟨b₁, hb₁, huri₁, hlanguage₁⟩ := hwalk.place hb'
      subst hdeed
      refine .inr (.inr (.replaced hne hb₁ hb₀ ?_ ?_))
      · rw [hlanguage₀, hlanguage₁, hlanguage]
      · rw [huri₀, huri₁, huri]
  | @closed _ id b hdeed hb =>
    rcases h.closed htidy (Hub.uriOf b) with hholds | ⟨b', hb', huri⟩
    · exact .inl (hholds.of_sessions rfl)
    · by_cases hid : id = i
      · exact .inr (.inl (hid ▸ Face.not_followed_untrack _ _))
      · obtain ⟨b₀, hb₀, huri₀, -⟩ := hwalk.place hb
        obtain ⟨b₁, hb₁, huri₁, -⟩ := hwalk.place hb'
        subst hdeed
        exact .inr (.inr (.closed hid hb₁ hb₀ (by rw [huri₀, huri₁, huri])))
  | retired language =>
    obtain ⟨other, s, uri, d, hs, hd, rfl⟩ := h
    by_cases hother : other = language
    · subst hother
      refine .inr (.inl fun hfollowed => (Face.followed_of_release hfollowed).2 ?_)
      rw [Face.documents_of_find? hs]
      exact List.mem_map.2 ⟨d, List.mem_map.2 ⟨(uri, d), Table.mem_of_find? hd, rfl⟩, rfl⟩
    · refine .inl ⟨other, s, uri, d, ?_, hd, rfl⟩
      rw [Face.sessions_release]
      exact (Table.find?_erase_of_ne _ hother).trans hs
  | dropped hdeed hraised =>
    obtain ⟨fault, hraised⟩ := hraised
    subst hdeed
    exact .inr (.inr (.raised hraised))
  | _ => exact .inl (h.of_sessions rfl)

/-- A buffer goes astray on the way only if it is left behind. -/
theorem Walk.astray (htidy : h₀.face.Tidy) (hwalk : Walk h₀ deed agenda F) (h : F.Astray i) :
    h₀.face.Astray i ∨ h₀.Deserts i deed := by
  induction hwalk with
  | start => exact .inl h
  | @step agenda agenda' F F' hwalk hstride ih =>
    obtain ⟨hfollowed, hnot⟩ := h
    rcases hstride.followed hfollowed with hold | hholds
    · by_cases hheld : F.Holds i
      · rcases hstride.holds hwalk (hwalk.tidy htidy) hheld with hholds | hfree | hdeserts
        · exact absurd hholds hnot
        · exact absurd hfollowed hfree
        · exact .inr hdeserts
      · exact ih ⟨hold, hheld⟩
    · exact absurd hholds hnot

namespace Hub

variable {t : Turn}

theorem tracking_create (path : String) (text : Text) (rows columns : Int)
    (settings : Settings) : (Buffer.create path text rows columns settings).tracking = false :=
  (Buffer.quiet_reconcile _).tracking

/-- A turn leads a buffer astray only if it leaves it behind. -/
theorem astray_turn (htidy : h₀.face.Tidy) (h : (h₀.turn t).face.Astray i) :
    h₀.face.Astray i ∨ ∃ deed, t = .deed deed ∧ h₀.Deserts i deed := by
  have hround := round_turn htidy t
  generalize (h₀.turn t).face = F at h hround
  obtain ⟨hfollowed, hnot⟩ := h
  cases hround with
  | @walked deed F hwalk =>
    exact (hwalk.astray htidy ⟨hfollowed, hnot⟩).imp_right fun hdeserts => ⟨deed, rfl, hdeserts⟩
  | created path text rows columns settings =>
    refine .inl ⟨?_, hnot⟩
    obtain ⟨b, hb, htracking⟩ := hfollowed
    rcases Face.buffer_of_concat hb with hold | rfl
    · exact ⟨b, hold, htracking⟩
    · rw [tracking_create] at htracking
      cases htracking
  | operated id host operation =>
    refine .inl ⟨Face.followed_of_touch hfollowed fun b hb => ?_, hnot⟩
    exact (Desk.relays_operate ⟨b, host⟩ operation).tracking.symm.trans hb
  | rested id hrests =>
    refine .inl ⟨Face.followed_of_touch hfollowed fun b hb => ?_, hnot⟩
    exact (hrests b).tracking.symm.trans hb
  | piped client fault => exact .inl ⟨hfollowed, hnot⟩

/-- A buffer that is not followed queues nothing. -/
def Hushed (h : Hub) : Prop :=
  ∀ (i : Nat) (b : Buffer), h.buffers[i]? = some b → b.tracking = false → b.changes = []

theorem hushed_turn (htidy : h₀.face.Tidy) (h : h₀.Hushed) : (h₀.turn t).Hushed := by
  intro i b' hb' hquiet
  rcases (round_turn htidy t).buffer hb' with
    ⟨b, hb, hspares | hrelays⟩ | ⟨path, text, rows, columns, settings, rfl⟩
  · rcases hspares.changes with hnone | ⟨htracking, hchanges⟩
    · exact hnone
    · exact hchanges.trans (h i b hb (htracking.symm.trans hquiet))
  · have hquiet₀ := hrelays.tracking.symm.trans hquiet
    exact (hrelays.still hquiet₀).trans (h i b hb hquiet₀)
  · exact (Buffer.quiet_reconcile _).changes

theorem hushed_foldl_turn (htidy : h₀.face.Tidy) (h : h₀.Hushed) (turns : List Turn) :
    (turns.foldl turn h₀).Hushed := by
  induction turns generalizing h₀ with
  | nil => exact h
  | cons t rest ih => exact ih ((round_turn htidy t).tidy htidy) (hushed_turn htidy h)

/-- At some turn of a run the buffer was left behind, and it went astray for good. -/
def Deserted (h₀ : Hub) (turns : List Turn) (i : Nat) : Prop :=
  ∃ past deed future, turns = past ++ .deed deed :: future ∧
    (past.foldl turn h₀).Deserts i deed ∧
      ∀ more, more <+: future →
        ((past ++ .deed deed :: more).foldl turn h₀).face.Astray i

theorem Deserted.append {turns : List Turn} (h : Deserted h₀ turns i)
    (hastray : ((turns ++ [t]).foldl turn h₀).face.Astray i) : Deserted h₀ (turns ++ [t]) i := by
  obtain ⟨past, deed, future, rfl, hdeserts, hsince⟩ := h
  refine ⟨past, deed, future ++ [t], by simp, hdeserts, fun more hmore => ?_⟩
  rcases List.prefix_concat_iff.1 hmore with rfl | hmore
  · simpa using hastray
  · exact hsince more hmore

theorem deserted_of_astray (htidy : h₀.face.Tidy) (hstart : ¬h₀.face.Astray i) (turns : List Turn)
    (h : (turns.foldl turn h₀).face.Astray i) : Deserted h₀ turns i := by
  induction turns using List.reverseRecOn with
  | nil => exact absurd h hstart
  | append_singleton past t ih =>
    have hnow := h
    rw [List.foldl_append, List.foldl_cons, List.foldl_nil] at h
    rcases astray_turn (tidy_foldl_turn htidy past) h with hbefore | ⟨deed, rfl, hdeserts⟩
    · exact (ih hbefore).append hnow
    · refine ⟨past, deed, [], rfl, hdeserts, fun more hmore => ?_⟩
      rw [List.prefix_nil.1 hmore]
      exact hnow

/-- After every run, whichever writes fail in it, a buffer that is not followed queues nothing; and
one that is followed has a document in a session, unless it was left behind: another buffer with
its place was opened or closed, or the successor to a server raised when it was started. -/
theorem holds_of_followed (hfresh : h₀.Fresh) (turns : List Turn) (i : Nat) :
    let h := turns.foldl turn h₀
    (∀ b, h.buffers[i]? = some b → b.tracking = false → b.changes = []) ∧
      (h.face.Followed i → h.face.Holds i ∨ Deserted h₀ turns i) := by
  have htidy := tidy_fresh hfresh
  have hnone : h₀.face.buffers = [] := hfresh.buffers
  refine ⟨hushed_foldl_turn htidy (fun i b hb => ?_) turns i, fun hfollowed => ?_⟩
  · rw [show h₀.buffers = [] from hnone] at hb
    cases hb
  · by_cases hholds : (turns.foldl turn h₀).face.Holds i
    · exact .inl hholds
    · refine .inr (deserted_of_astray htidy ?_ turns ⟨hfollowed, hholds⟩)
      rintro ⟨⟨b, hb, -⟩, -⟩
      rw [hnone] at hb
      cases hb

/-- A buffer that was opened is followed for the document that its session has, though a change of
it was lost on the way. -/
theorem holds_of_followed_lost :
    let h₀ : Hub := { settings := {}, root := none, fleet := { capacity := 4 } }
    let answer := Utf8.encode "\x7b\"id\":0,\"result\":null\x7d".toList
    let turns : List Turn :=
      [.deed (.create "/a.rs" ['x'] 24 80 {}), .deed (.openDocument 0),
        .deed (.post (.response "rust-analyzer" answer)), .deed .drain,
        .deed (.edit 0 {} (.perform (.insertText ['y']))),
        .deed (.breakPipe 0 ⟨.system "BrokenPipeError", "Broken pipe"⟩), .deed .syncChanges,
        .mendPipe 0, .deed (.edit 0 {} (.perform (.insertText ['z'])))]
    let h := turns.foldl turn h₀
    h₀.Fresh ∧ h.face.Followed 0 ∧ h.face.Holds 0 ∧
      (∀ b, h.buffers[0]? = some b → b.tracking = false → b.changes = []) ∧
      (h.face.Followed 0 → h.face.Holds 0 ∨ Deserted h₀ turns 0) := by
  intro h₀ answer turns h
  have hfresh : h₀.Fresh := ⟨rfl, rfl, rfl⟩
  have hfollowed : (h.buffers[0]?.any fun b => b.tracking) = true := by decide +kernel
  have hheld : ((h.sessions.find? "rust").any fun s =>
      (s.documents.find? "file:///a.rs").any fun d => d.buffer = 0) = true := by decide +kernel
  have hholds : (∀ b, h.buffers[0]? = some b → b.tracking = false → b.changes = []) ∧
      (h.face.Followed 0 → h.face.Holds 0 ∨ Deserted h₀ turns 0) :=
    holds_of_followed hfresh turns 0
  clear_value h
  refine ⟨hfresh, ?_, ?_, hholds⟩
  · obtain ⟨b, hb, htracking⟩ := (Option.any_eq_true _ _).1 hfollowed
    exact ⟨b, hb, htracking⟩
  · obtain ⟨s, hs, hdocument⟩ := (Option.any_eq_true _ _).1 hheld
    obtain ⟨d, hd, hbuffer⟩ := (Option.any_eq_true _ _).1 hdocument
    exact ⟨"rust", s, "file:///a.rs", d, hs, hd, of_decide_eq_true hbuffer⟩

/-- Of two buffers with one path the second that is opened takes the document of the first, whose
server is ready: the first is followed all the same, and what it queues is left by the next sync. -/
theorem astray_of_second_opening :
    let h₀ : Hub := { settings := {}, root := none, fleet := { capacity := 4 } }
    let answer := Utf8.encode "\x7b\"id\":0,\"result\":null\x7d".toList
    let turns : List Turn :=
      [.deed (.create "/a.rs" ['x'] 24 80 {}), .deed (.create "/a.rs" ['x'] 24 80 {}),
        .deed (.openDocument 0), .deed (.post (.response "rust-analyzer" answer)), .deed .drain,
        .deed (.openDocument 1), .deed (.edit 0 {} (.perform (.insertText ['y']))),
        .deed .syncChanges]
    let h := turns.foldl turn h₀
    h₀.Fresh ∧ h.face.Astray 0 ∧ ∃ b, h.buffers[0]? = some b ∧ b.changes ≠ [] := by
  intro h₀ answer turns h
  have hbuffer : (h.buffers[0]?.any fun b => b.tracking && !b.changes.isEmpty) = true := by
    decide +kernel
  have hother : ∀ entry ∈ h.sessions, ∀ place ∈ entry.2.documents, place.2.buffer ≠ 0 := by
    decide +kernel
  clear_value h
  obtain ⟨b, hb, htracking⟩ := (Option.any_eq_true _ _).1 hbuffer
  obtain ⟨htracking, hchanges⟩ := Bool.and_eq_true_iff.1 htracking
  refine ⟨⟨rfl, rfl, rfl⟩, ⟨⟨b, hb, htracking⟩, ?_⟩, b, hb, by simpa using hchanges⟩
  rintro ⟨language, s, uri, d, hs, hd, hzero⟩
  exact hother _ (Table.mem_of_find? hs) _ (Table.mem_of_find? hd) hzero

end Hub

end TextEditor.Server
