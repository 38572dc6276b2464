import TextEditor.Proofs.Buffer.Calls
import TextEditor.Proofs.Server.Turns
import TextEditor.Workspace.Input

/-!
# Runs of a workspace

Whatever a workspace is put through, by its user, its host or its language servers, every buffer it
has ever opened keeps its view framed and its caret within the document.  The buffers are changed by
commands, which leave them so, and by sizes given to them, which settle them; servers only come to
follow them or to leave them alone.
-/

namespace TextEditor

/-! ## Buffers among servers -/

namespace Server.Hub

/-- Sessions and documents are tidy, and every buffer is as its calls leave it. -/
structure Kept (h : Hub) : Prop where
  tidy : h.face.Tidy
  buffers : ∀ b ∈ h.buffers, b.Kept

/-- The hub is kept, and it has every buffer that another one has. -/
structure Retains (h h' : Hub) : Prop where
  kept : h'.Kept
  buffers : h.buffers.length ≤ h'.buffers.length

variable {h h' h'' : Hub}

theorem Retains.trans (hretains : h.Retains h') (hretains' : h'.Retains h'') : h.Retains h'' :=
  ⟨hretains'.kept, Nat.le_trans hretains.buffers hretains'.buffers⟩

theorem kept_fresh (hfresh : h.Fresh) : h.Kept :=
  ⟨tidy_fresh hfresh, by simp [hfresh.buffers]⟩

namespace Kept

theorem retains (hkept : h.Kept) : h.Retains h :=
  ⟨hkept, Nat.le_refl _⟩

theorem of_face (hkept : h.Kept) (hface : h'.face = h.face) : h.Retains h' := by
  have hbuffers : h'.buffers = h.buffers := congrArg Face.buffers hface
  refine ⟨⟨hface ▸ hkept.tidy, hbuffers ▸ hkept.buffers⟩, ?_⟩
  rw [hbuffers]

theorem buffer (hkept : h.Kept) {id : Nat} {b : Buffer} (hb : h.buffers[id]? = some b) : b.Kept :=
  hkept.buffers b (List.mem_of_getElem? hb)

/-- A walk leaves the views of all buffers alone. -/
theorem of_walk (hkept : h.Kept) {deed : Deed} (hwalk : Walk h deed [] h'.face) :
    h.Retains h' := by
  refine ⟨⟨hwalk.tidy hkept.tidy, fun b' hb' => ?_⟩, hwalk.length_buffers⟩
  obtain ⟨i, hi⟩ := List.mem_iff_getElem?.1 hb'
  obtain ⟨b, hb, hspares⟩ := hwalk.spared hi
  exact (hkept.buffer hb).of_eq hspares.document hspares.viewport hspares.caret

theorem alterBuffer (hkept : h.Kept) (id : Nat) {change : Buffer → Buffer}
    (hplace : ∀ b, (change b).path = b.path ∧ (change b).profile = b.profile)
    (hchange : ∀ b : Buffer, b.Kept → (change b).Kept) : h.Retains (h.alterBuffer id change) := by
  refine ⟨⟨hkept.tidy.touch id hplace, fun b' hb' => ?_⟩, ?_⟩
  · obtain ⟨i, hi⟩ := List.mem_iff_getElem?.1 hb'
    obtain ⟨b, hb, rfl⟩ := Face.buffer_of_touch (F := h.face) hi
    have hbuffer : b.Kept := hkept.buffer hb
    split
    · exact hchange b hbuffer
    · exact hbuffer
  · exact Nat.le_of_eq (List.length_modify _ _ _).symm

/-- A buffer may be put in the place of one that has its path and its language. -/
theorem putBuffer (hkept : h.Kept) {id : Nat} {b b' : Buffer} (hb : h.buffers[id]? = some b)
    (hb' : b'.Kept) (hpath : b'.path = b.path) (hprofile : b'.profile = b.profile) :
    h.Retains (h.alterBuffer id fun _ => b') := by
  have hsame : h.alterBuffer id (fun _ => b') =
      h.alterBuffer id fun c => { b' with path := c.path, profile := c.profile } := by
    rw [Hub.alterBuffer, Hub.alterBuffer]
    congr 1
    ext1 i
    rw [List.getElem?_modify, List.getElem?_modify]
    by_cases hi : id = i
    · subst hi
      simp only [hb, Option.map_eq_map, Option.map_some, if_true, ← hpath, ← hprofile]
    · simp only [if_neg hi]
  rw [hsame]
  exact hkept.alterBuffer id (fun _ => ⟨rfl, rfl⟩) fun _ _ => hb'.of_eq rfl rfl rfl

theorem concat (hkept : h.Kept) {b : Buffer} (hb : b.Kept) :
    h.Retains { h with buffers := h.buffers ++ [b] } := by
  refine ⟨⟨hkept.tidy.concat b, fun b' hb' => ?_⟩, ?_⟩
  · rcases List.mem_append.1 hb' with hold | hnew
    · exact hkept.buffers b' hold
    · exact List.mem_singleton.1 hnew ▸ hb
  · rw [List.length_append]
    exact Nat.le_add_right _ _

theorem openDocument (hkept : h.Kept) (id : Nat) : h.Retains ((openDocument id).start h).2 :=
  hkept.of_walk (walk_openDocument hkept.tidy id).walk

theorem closeDocument (hkept : h.Kept) (id : Nat) : h.Retains (h.closeDocument id) :=
  hkept.of_walk (walk_closeDocument hkept.tidy id).walk

theorem syncChanges (hkept : h.Kept) : h.Retains (syncChanges.start h).2 :=
  hkept.of_walk (walk_syncChanges hkept.tidy).walk

theorem drain (hkept : h.Kept) : h.Retains (drain.start h).2 :=
  hkept.of_walk (walk_drain hkept.tidy).walk

theorem restart (hkept : h.Kept) (language : String) :
    h.Retains ((restart language).start h).2 :=
  hkept.of_walk (walk_restart hkept.tidy language).walk

theorem shutdown (hkept : h.Kept) : h.Retains h.shutdown :=
  hkept.of_walk (walk_shutdown hkept.tidy).walk

/-- A call that neither moves the buffer to another place nor gives it another language. -/
theorem call (hkept : h.Kept) (id : Nat) (c : Call)
    (hplace : ∀ b : Buffer, (Desk.call ⟨b, {}⟩ c).buffer.path = b.path ∧
      (Desk.call ⟨b, {}⟩ c).buffer.profile = b.profile) :
    h.Retains (h.alterBuffer id fun b => (Desk.call ⟨b, {}⟩ c).buffer) :=
  hkept.alterBuffer id hplace fun _ hb => Desk.kept_call hb c

/-- What is done to sessions, buffers and processes leaves the buffers kept, whether it fails or
not. -/
theorem turn (hkept : h.Kept) (t : Turn) : h.Retains (h.turn t) := by
  have htidy := (round_turn hkept.tidy t).tidy hkept.tidy
  cases t with
  | mendPipe client => exact ⟨⟨htidy, hkept.buffers⟩, Nat.le_refl _⟩
  | deed deed =>
  cases deed with
  | create path text rows columns settings =>
    exact hkept.concat (Buffer.settled_create path text rows columns settings).toKept
  | openDocument id => exact hkept.openDocument id
  | closeDocument id => exact hkept.closeDocument id
  | syncChanges => exact hkept.syncChanges
  | drain => exact hkept.drain
  | restart language => exact hkept.restart language
  | shutdown => exact hkept.shutdown
  | edit id host operation =>
    refine hkept.alterBuffer id (fun b => ?_) fun b hb => ?_
    · have hrelays := Desk.relays_operate ⟨b, host⟩ operation
      exact ⟨hrelays.path, hrelays.profile⟩
    · obtain ⟨calls, hcalls⟩ := Desk.exists_calls_operate operation ⟨b, host⟩
      rw [hcalls]
      exact Desk.kept_foldl_call hb calls
  | enter id label =>
    refine hkept.call id (.enter label) fun b => ?_
    simp only [Desk.call, Desk.onBuffer]
    split <;> exact ⟨rfl, rfl⟩
  | leave id failure =>
    cases failure with
    | none =>
      exact hkept.call id .leave fun b =>
        ⟨(Buffer.rests_endGroup b).path, (Buffer.rests_endGroup b).profile⟩
    | some reason =>
      exact hkept.call id (.abandon reason) fun b =>
        ⟨(Buffer.rests_abandonGroup b reason).path, (Buffer.rests_abandonGroup b reason).profile⟩
  | emit | finish | breakPipe | post | read => exact ⟨⟨htidy, hkept.buffers⟩, Nat.le_refl _⟩

end Kept

end Server.Hub

/-! ## What a workspace does -/

namespace Workspace

open Server (Hub Turn)

/-- Every buffer of the workspace is as its calls leave it, open or not. -/
def Kept (w : Workspace) : Prop :=
  w.hub.Kept

/-- The hub of another workspace goes on with all its buffers; the same ones are open, and the same
one is active. -/
structure Stays (w₀ w : Workspace) : Prop where
  hub : w₀.hub.Retains w.hub
  opened : w.opened = w₀.opened
  active : w.active = w₀.active

variable {w₀ w w' : Workspace}

theorem Kept.stays (hw : w.Kept) : w.Stays w :=
  ⟨hw.retains, rfl, rfl⟩

theorem Stays.kept (hw : w₀.Stays w) : w.Kept :=
  hw.hub.kept

theorem Stays.trans (hw : w₀.Stays w) (hw' : w.Stays w') : w₀.Stays w' :=
  ⟨hw.hub.trans hw'.hub, hw'.opened.trans hw.opened, hw'.active.trans hw.active⟩

/-- A workspace with the same buffers and sessions, whatever else is new. -/
theorem Stays.of_face (hw : w₀.Stays w) (hface : w'.hub.face = w.hub.face)
    (hopened : w'.opened = w.opened) (hactive : w'.active = w.active) : w₀.Stays w' :=
  hw.trans ⟨hw.kept.of_face hface, hopened, hactive⟩

/-- A command on a buffer, and where it leaves buffer and host. -/
theorem start_performOn {id : Nat} {b : Buffer}
    (hb : w.hub.buffers[id]? = some b) (command : Command) :
    let performed := Desk.perform ⟨b, w.host⟩ command
    (performOn id command).start w =
      (performed.1.mapError .coordinate,
        ({ w with
          hub := w.hub.alterBuffer id fun _ => { performed.2.buffer with journal := [] }
          host := performed.2.host } : Workspace).collect performed.2.buffer.journal) := by
  simp only [performOn, onBuffer, Desk.commanded, Step.start_ofRun, hb]

theorem keeps_performOn (id : Nat) (command : Command) :
    Step.Keeps (Stays w₀) (performOn id command) := by
  intro w hw
  cases hb : w.hub.buffers[id]? with
  | none =>
    rw [performOn, onBuffer, Step.start_ofRun, hb]
    exact hw
  | some b =>
    have hrelays := Desk.relays_perform ⟨b, w.host⟩ command
    have hkept := Desk.kept_perform (d := ⟨b, w.host⟩) (hw.kept.buffer hb) command
    rw [start_performOn hb]
    generalize Desk.perform ⟨b, w.host⟩ command = performed at hrelays hkept ⊢
    have hput : Buffer.Kept { performed.2.buffer with journal := [] } := hkept.of_eq rfl rfl rfl
    have hretains := hw.kept.putBuffer hb hput hrelays.path hrelays.profile
    exact hw.trans ⟨hretains.trans (hretains.kept.of_face rfl), rfl, rfl⟩

theorem keeps_onHub {α : Type} {step : Step Hub α}
    (hstep : ∀ h : Hub, h.Kept → h.Retains (step.start h).2) :
    Step.Keeps (Stays w₀) (onHub step) := by
  intro w hw
  have hretains := hstep w.hub hw.kept
  rw [onHub, Step.start_zoom]
  exact hw.trans ⟨hretains.trans (hretains.kept.of_face rfl), rfl, rfl⟩

/-- Reports that are collected are no business of what a step keeps. -/
theorem keeps_reportedAs {α : Type} {P : Workspace → Prop}
    (hcollect : ∀ w entries, P w → P (w.collect entries)) (activity : Activity)
    {step : Step Workspace α} (hstep : Step.Keeps P step) :
    Step.Keeps P (reportedAs activity step) := by
  intro w hw
  have hstarted := hstep (w.collect [.started activity]) (hcollect _ _ hw)
  rw [reportedAs, Step.start_ofRun]
  generalize step.start (w.collect [.started activity]) = result at hstarted ⊢
  obtain ⟨outcome, w'⟩ := result
  cases outcome <;> exact hcollect _ _ hstarted

theorem Stays.collect (w : Workspace) (entries : Journal) (hw : w₀.Stays w) :
    w₀.Stays (w.collect entries) :=
  hw.of_face rfl rfl rfl

theorem keeps_resetBlink : Step.Keeps (Stays w₀) (modify resetBlink : Step Workspace PUnit) :=
  Step.Keeps.modify fun _ h => h.of_face rfl rfl rfl

/-- The workspace with a buffer of its hub behind the open ones, the active one now, before servers
hear of it. -/
def enlist (w : Workspace) (id : Nat) : Workspace :=
  { w with
    hub := w.hub.alterBuffer id (·.resize w.rows w.columns)
    opened := w.opened ++ [id]
    active := w.opened.length }

/-- Open a buffer that was opened before, and may be open still, as `addBuffer` opens a new one. -/
def addAgain (id : Nat) : Step Workspace Nat := do
  let w ← get
  set (w.enlist id)
  let _ ← onHub (Hub.openDocument id)
  modify resetBlink
  return id

/-- The workspace with one more buffer in its hub, which is not open. -/
def house (w : Workspace) (b : Buffer) : Workspace :=
  { w with hub := { w.hub with buffers := w.hub.buffers ++ [b] } }

/-- To open a new buffer is to open it again once it is there. -/
theorem start_addBuffer (w : Workspace) (b : Buffer) :
    (addBuffer b).start w = (addAgain w.hub.buffers.length).start (w.house b) := by
  have hresize : (w.hub.buffers ++ [b]).modify w.hub.buffers.length (·.resize w.rows w.columns) =
      w.hub.buffers ++ [b.resize w.rows w.columns] :=
    List.modifyTailIdx_add _ 0 _ _
  simp only [addBuffer, addAgain, Step.start_bind, Step.start_get, Step.start_set, enlist, house,
    Hub.alterBuffer, hresize]

theorem stays_house (hw : w.Kept) {b : Buffer} (hb : b.Kept) : w.Stays (w.house b) :=
  ⟨hw.concat hb, rfl, rfl⟩

theorem retains_enlist (hw : w.Kept) (id : Nat) : w.hub.Retains (w.enlist id).hub :=
  hw.alterBuffer id (fun _ => ⟨rfl, rfl⟩) fun _ hb => (Buffer.settled_resize hb _ _).toKept

/-- Whatever comes of telling a server, the buffer is the active one. -/
theorem stays_addAgain (hw : w.Kept) (id : Nat) :
    (w.enlist id).Stays ((addAgain id).start w).2 := by
  rw [addAgain, Step.start_bind, Step.start_get]
  refine Step.Keeps.after (Kept.stays (retains_enlist hw id).kept) fun _ => ?_
  refine Step.Keeps.bind (keeps_onHub fun _ hh => hh.openDocument _) fun _ => ?_
  exact Step.Keeps.bind keeps_resetBlink fun _ => Step.Keeps.pure _

theorem keeps_addBuffer {b : Buffer} (hb : b.Kept) : Step.Keeps Kept (addBuffer b) := by
  intro w hw
  rw [start_addBuffer]
  exact (stays_addAgain (stays_house hw hb).kept _).kept

/-- A file that is opened is loaded into a new buffer, if it can be. -/
theorem keeps_openFile {P : Workspace → Prop}
    (hcollect : ∀ w entries, P w → P (w.collect entries))
    (hadd : ∀ b : Buffer, b.Kept → Step.Keeps P (addBuffer b)) (path : String) :
    Step.Keeps P (openFile path) := by
  refine keeps_reportedAs hcollect _ (Step.Keeps.get_bind fun w hw => ?_)
  exact Step.Keeps.bind (Step.Keeps.ofExcept _ _) (fun text =>
    hadd _ (Buffer.settled_create path text w.rows w.columns w.settings).toKept) w hw

theorem retains_closeFile (hw : w.Kept) (index : Option Int) :
    w.hub.Retains (w.closeFile index).2.hub := by
  simp only [closeFile]
  split
  · exact hw.retains
  · split
    · exact hw.retains
    · exact hw.closeDocument _

theorem retains_focus (hw : w.Kept) (index : Int) : w.hub.Retains (w.focus index).hub := by
  unfold focus
  split
  · exact hw.retains
  · split
    · exact hw.retains
    · exact hw.alterBuffer _ (fun _ => ⟨rfl, rfl⟩) fun _ hb => hb.of_eq rfl rfl rfl

theorem stays_resize (hw : w.Kept) (rows columns : Int) : w.Stays (w.resize rows columns) := by
  have hall : ∀ (ids : List Nat) (h : Hub), h.Kept →
      h.Retains (ids.foldl
        (fun hub id => hub.alterBuffer id (·.resize (max 1 rows) (max 1 columns))) h) := by
    intro ids
    induction ids with
    | nil => exact fun _ hh => hh.retains
    | cons id rest ih =>
      intro h hh
      have hfirst : h.Retains (h.alterBuffer id (·.resize (max 1 rows) (max 1 columns))) :=
        hh.alterBuffer id (fun _ => ⟨rfl, rfl⟩) fun _ hb => (Buffer.settled_resize hb _ _).toKept
      exact hfirst.trans (ih _ hfirst.kept)
  exact ⟨hall w.opened w.hub hw, rfl, rfl⟩

theorem stays_blink (hw : w₀.Stays w) (now interval : Float) :
    w₀.Stays (w.blink now interval).2 := by
  unfold blink
  split
  · exact hw.of_face rfl rfl rfl
  · split
    · exact hw.of_face rfl rfl rfl
    · exact hw

theorem keeps_tick (now : Option Float) : Step.Keeps (Stays w₀) (tick now) := by
  refine Step.Keeps.get_bind fun w hw => ?_
  refine Step.Keeps.after (Step.Keeps.ofExcept .coordinate w.blinkInterval w hw) fun interval => ?_
  have hblink := stays_blink hw (now.getD w.clock) interval
  dsimp only
  generalize w.blink (now.getD w.clock) interval = blinked at hblink ⊢
  obtain ⟨repaint, w'⟩ := blinked
  refine fun _ _ => Step.Keeps.after hblink fun _ => ?_
  refine Step.Keeps.bind (keeps_onHub fun _ hh => hh.drain) fun _ => ?_
  refine Step.Keeps.bind (keeps_onHub fun _ hh => hh.syncChanges) fun _ => ?_
  exact Step.Keeps.get_bind fun _ h => h

theorem keeps_restartServer (language : Option String) :
    Step.Keeps (Stays w₀) (restartServer language) := by
  refine Step.Keeps.get_bind fun w hw => ?_
  split
  · exact hw
  · exact keeps_onHub (fun _ hh => hh.restart _) w hw

theorem keeps_renderSnapshot : Step.Keeps (Stays w₀) renderSnapshot := by
  refine Step.Keeps.get_bind fun w hw => ?_
  split
  · refine Step.Keeps.bind (Step.Keeps.modify fun _ h => h.of_face rfl rfl rfl) (fun _ => ?_) w hw
    refine Step.Keeps.bind (Step.Keeps.ofExcept _ _) fun semantic => ?_
    refine Step.Keeps.bind (Step.Keeps.modify fun w h => h.trans ⟨?_, rfl, rfl⟩) fun _ =>
      Step.Keeps.pure _
    exact h.kept.alterBuffer _ (fun _ => ⟨rfl, rfl⟩) fun _ hb => hb.of_eq rfl rfl rfl
  · exact hw

/-! ## Input -/

theorem keeps_typeChar (id : Nat) (t : Text) : Step.Keeps (Stays w₀) (typeChar id t) := by
  unfold typeChar
  split
  · exact Step.Keeps.bind (keeps_performOn id _) fun _ => Step.Keeps.pure _
  · exact Step.Keeps.pure _

theorem keeps_performActive (command : Command) :
    Step.Keeps (Stays w₀) (performActive command) := by
  refine Step.Keeps.get_bind fun w hw => ?_
  split
  · exact hw
  · next id _ =>
    exact Step.Keeps.bind (keeps_performOn id command) (fun _ => Step.Keeps.pure _) w hw

theorem keeps_handleKey (stroke : Stroke) : Step.Keeps (Stays w₀) (handleKey stroke) := by
  refine Step.Keeps.get_bind fun w hw => ?_
  split
  · next action _ =>
    refine Step.Keeps.bind (keeps_reportedAs Stays.collect _ ?_) (fun _ => ?_) w hw
    · split
      · next command _ => exact keeps_performActive command
      · exact Step.Keeps.pure _
    · exact Step.Keeps.bind keeps_resetBlink fun _ => Step.Keeps.pure _
  · split
    · next id text _ _ =>
      split
      · refine Step.Keeps.bind (Step.Keeps.forM fun c => ?_) (fun _ => ?_) w hw
        · exact Step.Keeps.bind (keeps_typeChar id [c]) fun _ => Step.Keeps.pure _
        · exact Step.Keeps.bind keeps_resetBlink fun _ => Step.Keeps.pure _
      · exact hw
    · exact hw

theorem keeps_handledBy (id : Nat) (command : Command) :
    Step.Keeps (Stays w₀) (handledBy id command) :=
  Step.Keeps.bind (keeps_performOn id command) fun _ => Step.Keeps.pure _

theorem keeps_applyInput (id : Nat) (input : Input) (data : InputData) :
    Step.Keeps (Stays w₀) (applyInput id input data) := by
  refine Step.Keeps.get_bind fun w hw => ?_
  dsimp only
  split
  iterate 6 exact keeps_handledBy id _ w hw
  · exact keeps_typeChar id _ w hw
  · exact keeps_handleKey _ w hw
  · exact hw

theorem keeps_execute (input : Input) (data : InputData) :
    Step.Keeps (Stays w₀) (execute input data) := by
  refine Step.Keeps.get_bind fun w hw => ?_
  split
  · exact hw
  · next id _ =>
    refine Step.Keeps.bind (keeps_applyInput id input data) (fun handled => ?_) w hw
    split
    · exact Step.Keeps.bind keeps_resetBlink fun _ => Step.Keeps.pure _
    · exact Step.Keeps.pure _

/-! ## Runs -/

/-- What happens to a workspace. -/
inductive Act where
  /-- Something is done to its buffers and sessions directly, or by a server or a reader. -/
  | turn (turn : Turn)
  /-- A buffer is opened that was used before. -/
  | add (path : String) (text : Text) (rows columns : Int) (settings : Settings) (host : Host)
    (calls : List Call)
  | openFile (path : String)
  | closeFile (index : Option Int)
  | focus (index : Int)
  | execute (input : Input) (data : InputData)
  | resize (rows columns : Int)
  | tick (now : Option Float)
  | restartServer (language : Option String)
  | shutdown
  | renderSnapshot
  /-- What is around the buffers changes: layout and clipboard, keys, status line, clock, files,
  and the reports that wait to be fetched. -/
  | surround (host : Host) (keymap : Registry) (status : String) (clock : Float) (folder : Folder)
    (journal : Journal)

/-- The workspace after an act, whether it fails or not. -/
def act (w : Workspace) : Act → Workspace
  | .turn turn => { w with hub := w.hub.turn turn }
  | .add path text rows columns settings host calls =>
    let d := calls.foldl Desk.call ⟨Buffer.create path text rows columns settings, host⟩
    ((addBuffer d.buffer).start w).2
  | .openFile path => ((openFile path).start w).2
  | .closeFile index => (w.closeFile index).2
  | .focus index => w.focus index
  | .execute input data => ((execute input data).start w).2
  | .resize rows columns => w.resize rows columns
  | .tick now => ((tick now).start w).2
  | .restartServer language => ((restartServer language).start w).2
  | .shutdown => w.shutdown
  | .renderSnapshot => (Workspace.renderSnapshot.start w).2
  | .surround host keymap status clock folder journal =>
    { w with
      hub := { w.hub with fleet := { w.hub.fleet with journal } }
      host, keymap, status, clock, folder }

/-- The acts that open and close buffers and change between them. -/
def Act.Switches : Act → Prop
  | .add .. | .openFile _ | .closeFile _ | .focus _ => True
  | _ => False

/-- No other act has to do with which buffers are open and which one is active. -/
theorem stays_act (hw : w.Kept) {a : Act} (ha : ¬ a.Switches) : w.Stays (w.act a) := by
  cases a with
  | add | openFile | closeFile | focus => exact absurd trivial ha
  | turn turn => exact ⟨Hub.Kept.turn hw turn, rfl, rfl⟩
  | execute input data => exact keeps_execute input data w hw.stays
  | resize rows columns => exact stays_resize hw rows columns
  | tick now => exact keeps_tick now w hw.stays
  | restartServer language => exact keeps_restartServer language w hw.stays
  | shutdown => exact ⟨Hub.Kept.shutdown hw, rfl, rfl⟩
  | renderSnapshot => exact keeps_renderSnapshot w hw.stays
  | surround => exact hw.stays.of_face rfl rfl rfl

/-- The buffer that an act adds was used by calls alone. -/
theorem kept_added (path : String) (text : Text) (rows columns : Int) (settings : Settings)
    (host : Host) (calls : List Call) :
    (calls.foldl Desk.call ⟨Buffer.create path text rows columns settings, host⟩).buffer.Kept :=
  Desk.kept_foldl_call (Buffer.settled_create path text rows columns settings).toKept calls

theorem kept_act (hw : w.Kept) (a : Act) : (w.act a).Kept := by
  by_cases ha : a.Switches
  · cases a with
    | add path text rows columns settings host calls =>
      exact keeps_addBuffer (kept_added path text rows columns settings host calls) w hw
    | openFile path =>
      exact keeps_openFile (fun _ _ h => (h.stays.collect _ _).kept)
        (fun _ => keeps_addBuffer) path w hw
    | closeFile index => exact (retains_closeFile hw index).kept
    | focus index => exact (retains_focus hw index).kept
    | _ => exact ha.elim
  · exact (stays_act hw ha).kept

theorem kept_foldl_act (hw : w.Kept) (acts : List Act) :
    (acts.foldl act w).Kept := by
  induction acts generalizing w with
  | nil => exact hw
  | cons a rest ih => exact ih (kept_act hw a)

end Workspace

end TextEditor
