import TextEditor.Proofs.Server.Deeds

/-!
# Turns

Beside the deeds a pipe may be mended, so that writes that failed for a while succeed again.  A turn
is a deed or such a mending, and a run of turns may lose any writes.  What a turn does to sessions,
buffers and lines is a walk, or it concerns one buffer or one pipe alone.
-/

namespace TextEditor.Server

/-- A deed, or the mending of a pipe. -/
inductive Turn where
  | deed (deed : Deed)
  /-- Writing to a server does not fail any more from now on. -/
  | mendPipe (client : Nat)

/-- The hub after a turn, whether it fails or not. -/
def Hub.turn (h : Hub) : Turn → Hub
  | .deed deed => h.act deed
  | .mendPipe client =>
    { h with fleet := h.fleet.modifyProcess client fun p => { p with inputFault := none } }

/-- What a turn does to sessions, buffers and lines. -/
inductive Round (h : Hub) : Turn → Face → Prop
  /-- A deed goes its way in strides. -/
  | walked {deed : Deed} {F : Face} (hwalk : Walk h deed [] F) : Round h (.deed deed) F
  /-- There is a new buffer. -/
  | created (path : String) (text : Text) (rows columns : Int) (settings : Settings) :
    Round h (.deed (.create path text rows columns settings))
      { h.face with
        buffers := h.face.buffers ++ [Buffer.create path text rows columns settings] }
  /-- A buffer is operated on. -/
  | operated (id : Nat) (host : Host) (operation : Operation) :
    Round h (.deed (.edit id host operation))
      (h.face.touch id fun b => (Desk.operate ⟨b, host⟩ operation).buffer)
  /-- A transaction of a buffer begins or ends. -/
  | rested {turn : Turn} (id : Nat) {change : Buffer → Buffer}
    (hrests : ∀ b : Buffer, b.Rests (change b)) : Round h turn (h.face.touch id change)
  /-- A pipe breaks or is mended. -/
  | piped {turn : Turn} (client : Nat) (fault : Option PipeFault) :
    Round h turn { h.face with lines := h.face.lines.modify client fun l => { l with fault } }

variable {h : Hub}

/-- Every turn leaves sessions and documents tidy. -/
theorem Round.tidy {t : Turn} {F : Face} (hround : Round h t F) (htidy : h.face.Tidy) :
    F.Tidy := by
  have htouch : ∀ (id : Nat) (change : Buffer → Buffer), (∀ b : Buffer, b.Relays (change b)) →
      (h.face.touch id change).Tidy := fun id change hrelays =>
    htidy.touch id fun b => ⟨(hrelays b).path, (hrelays b).profile⟩
  cases hround with
  | walked hwalk => exact hwalk.tidy htidy
  | created path text rows columns settings => exact htidy.concat _
  | operated id host operation =>
    exact htouch id _ fun b => Desk.relays_operate ⟨b, host⟩ operation
  | rested id hrests => exact htouch id _ fun b => (hrests b).relays
  | piped client fault =>
    exact htidy.modifyLine client _ fun l hl =>
      ⟨rfl, htidy.settled l (List.mem_of_getElem? hl)⟩

/-- A buffer that is there after a turn was there before, or it is new. -/
theorem Round.buffer {t : Turn} {F : Face} (hround : Round h t F) {i : Nat} {b' : Buffer}
    (hb' : F.buffers[i]? = some b') :
    (∃ b, h.buffers[i]? = some b ∧ (Spares b b' ∨ b.Relays b')) ∨
      ∃ path text rows columns settings, b' = Buffer.create path text rows columns settings := by
  have htouch : ∀ (id : Nat) (change : Buffer → Buffer), (∀ b : Buffer, b.Relays (change b)) →
      (h.face.touch id change).buffers[i]? = some b' →
        ∃ b, h.buffers[i]? = some b ∧ (Spares b b' ∨ b.Relays b') := by
    intro id change hrelays hb'
    obtain ⟨b, hb, rfl⟩ := Face.buffer_of_touch hb'
    refine ⟨b, hb, .inr ?_⟩
    split
    · exact hrelays b
    · exact .refl b
  cases hround with
  | walked hwalk =>
    obtain ⟨b, hb, hspares⟩ := hwalk.spared hb'
    exact .inl ⟨b, hb, .inl hspares⟩
  | created path text rows columns settings =>
    rcases Face.buffer_of_concat hb' with hb | rfl
    · exact .inl ⟨b', hb, .inr (.refl b')⟩
    · exact .inr ⟨path, text, rows, columns, settings, rfl⟩
  | operated id host operation =>
    exact .inl (htouch id _ (fun b => Desk.relays_operate ⟨b, host⟩ operation) hb')
  | rested id hrests => exact .inl (htouch id _ (fun b => (hrests b).relays) hb')
  | piped client fault => exact .inl ⟨b', hb', .inr (.refl b')⟩

namespace Hub

theorem round_of_face {deed : Deed} (hface : (h.act deed).face = h.face) :
    Round h (.deed deed) (h.turn (.deed deed)).face := by
  rw [turn, hface]
  exact .walked .start

theorem face_modifyProcess (h : Hub) (client : Nat) {change : Subprocess → Subprocess}
    (hchange : ∀ p, (change p).hasInput = p.hasInput ∧ (change p).inputFault = p.inputFault ∧
      (change p).received = p.received) :
    ({ h with fleet := h.fleet.modifyProcess client change } : Hub).face = h.face := by
  simp only [face, Fleet.lines_modifyProcess _ _ _ hchange]

theorem face_inputFault (h : Hub) (client : Nat) (fault : Option PipeFault) :
    ({ h with fleet := h.fleet.modifyProcess client fun p => { p with inputFault := fault } } :
      Hub).face =
      { h.face with lines := h.face.lines.modify client fun l => { l with fault } } := by
  have hlines : (h.fleet.modifyProcess client fun p => { p with inputFault := fault }).lines =
      h.fleet.lines.modify client fun l => { l with fault } :=
    Fleet.lines_alter fun _ _ => rfl
  simp only [face, hlines]

/-- Every turn is of one of these kinds. -/
theorem round_turn (htidy : h.face.Tidy) (t : Turn) : Round h t (h.turn t).face := by
  cases t with
  | mendPipe client =>
    rw [turn, face_inputFault]
    exact .piped client none
  | deed deed =>
  cases deed with
  | create path text rows columns settings => exact .created path text rows columns settings
  | openDocument id => exact .walked (walk_openDocument htidy id).walk
  | closeDocument id => exact .walked (walk_closeDocument htidy id).walk
  | edit id host operation => exact .operated id host operation
  | enter id label =>
    refine .rested id fun b => ?_
    split
    · exact (Buffer.Quiet.refl b).toRests
    · exact Buffer.rests_beginGroup b label
  | leave id failure =>
    cases failure with
    | none => exact .rested id Buffer.rests_endGroup
    | some reason => exact .rested id (Buffer.rests_abandonGroup · reason)
  | syncChanges => exact .walked (walk_syncChanges htidy).walk
  | drain => exact .walked (walk_drain htidy).walk
  | restart language => exact .walked (walk_restart htidy language).walk
  | shutdown => exact .walked (walk_shutdown htidy).walk
  | emit client bytes =>
    exact round_of_face (face_modifyProcess h client fun p => ⟨rfl, rfl, rfl⟩)
  | finish client ending =>
    exact round_of_face (face_modifyProcess h client fun p => ⟨rfl, rfl, rfl⟩)
  | read client =>
    cases hstep : h.fleet.readStep? client with
    | none =>
      refine round_of_face ?_
      rw [act, hstep]
      rfl
    | some f =>
      have hface : (h.turn (.deed (.read client))).face = { h.face with lines := f.lines } := by
        rw [turn, act, hstep]
        rfl
      rw [hface]
      exact .walked (Walk.start.step (.wane (Fleet.wane_readStep? hstep)))
  | post event => exact round_of_face rfl
  | breakPipe client fault =>
    rw [turn, act, face_inputFault]
    exact .piped client (some fault)

theorem tidy_fresh (hfresh : h.Fresh) : h.face.Tidy := by
  have hface : h.face = ⟨[], [], []⟩ := by
    simp [face, Fleet.lines, hfresh.sessions, hfresh.buffers, hfresh.connections]
  rw [hface]
  exact
    { keys := List.nodup_nil
      named := fun _ _ hs => by cases hs
      apart := fun _ _ _ _ hs => by cases hs
      served := fun _ _ hs => by cases hs
      uris := fun _ _ hs => by cases hs
      placed := fun _ _ _ _ hs => by cases hs
      settled := fun _ hl => by cases hl }

/-- Sessions and documents are tidy after every run. -/
theorem tidy_foldl_turn (htidy : h.face.Tidy) (turns : List Turn) :
    (turns.foldl turn h).face.Tidy := by
  induction turns generalizing h with
  | nil => exact htidy
  | cons t rest ih => exact ih ((round_turn htidy t).tidy htidy)

end Hub

end TextEditor.Server
