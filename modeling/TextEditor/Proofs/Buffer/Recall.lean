import TextEditor.Proofs.Buffer.Caret

/-!
# Undo and redo

The history of a buffer is compared with what somebody who only watches the buffer remembers: what
each operation that changed the document began with, and the text it left.  The entries of the
history lead from one text to the next, the text of the buffer is the one between the entries done
and those undone, and undo and redo lead to what is remembered.
-/

namespace TextEditor

/-- What undo brings back. -/
structure Scene where
  text : Text
  caret : Int
  anchor : Int
  deriving DecidableEq, Repr

def Buffer.scene (b : Buffer) : Scene :=
  ⟨b.text, b.caret.absolute, b.caret.anchor⟩

/-- Caret and anchor are offsets of the text. -/
def Scene.Sound (s : Scene) : Prop :=
  (Document.ofText s.text).Within s.caret ∧ (Document.ofText s.text).Within s.anchor

/-- What an operation began with, and the text it left. -/
structure Passage where
  before : Scene
  after : Text
  deriving DecidableEq, Repr

/-- What somebody who watches a buffer remembers: the operations that undo would take back, the
latest first, and those that redo would do again, the next one first. -/
structure Recall where
  past : List Passage := []
  future : List Passage := []
  deriving DecidableEq, Repr

namespace Recall

/-- What is remembered of a buffer and an operation on it: undo and redo step through what is
remembered, and any other operation that edits the document is remembered in place of what was
undone. -/
def follow (r : Recall) (d : Desk) (operation : Operation) : Recall :=
  match operation, r.past, r.future with
  | .perform .undo, [], _ => r
  | .perform .undo, p :: past, future => ⟨past, p :: future⟩
  | .perform .redo, _, [] => r
  | .perform .redo, past, p :: future => ⟨p :: past, future⟩
  | _, past, _ =>
    let b := (d.operate operation).buffer
    if b.document.version = d.buffer.document.version then r
    else ⟨(⟨d.buffer.scene, b.text⟩ :: past).take 1000, []⟩

theorem follow_of_isReplay_eq_false {r : Recall} {d : Desk} {operation : Operation}
    (h : operation.isReplay = false) :
    r.follow d operation =
      if (d.operate operation).buffer.document.version = d.buffer.document.version then r
      else ⟨(⟨d.buffer.scene, (d.operate operation).buffer.text⟩ :: r.past).take 1000, []⟩ := by
  cases operation with
  | rehost | transaction => rfl
  | perform command =>
    cases command <;> first | rfl | simp [Operation.isReplay, Command.isReplay] at h

end Recall

/-- A buffer and what is remembered of it, after an operation. -/
def Desk.watch (state : Desk × Recall) (operation : Operation) : Desk × Recall :=
  (state.1.operate operation, state.2.follow state.1 operation)

/-! ## The history as a chain of texts -/

/-- Each entry leads from one text of the chain to the next. -/
def UndoEntry.Chain : List UndoEntry → List Text → Prop
  | [], texts => ∃ t, texts = [t]
  | entry :: entries, texts =>
    ∃ before after rest, texts = before :: after :: rest ∧
      Edit.Leads entry.edits before after ∧ Chain entries (after :: rest)

/-- The entry takes a remembered passage back and does it again. -/
structure UndoEntry.Fits (entry : UndoEntry) (p : Passage) : Prop where
  leads : Edit.Leads entry.edits p.before.text p.after
  caret : entry.caretBefore = p.before.caret
  anchor : entry.anchorBefore = p.before.anchor
  sound : p.before.Sound

/-- Entries and passages that lead up to a text, the latest first. -/
inductive LeadsUp : List UndoEntry → List Passage → Text → Prop
  | nil (t : Text) : LeadsUp [] [] t
  | cons {entry : UndoEntry} {p : Passage} {entries : List UndoEntry} {passages : List Passage}
      (hfits : entry.Fits p) (hrest : LeadsUp entries passages p.before.text) :
      LeadsUp (entry :: entries) (p :: passages) p.after

/-- Entries and passages that lead on from a text. -/
inductive LeadsOn : List UndoEntry → List Passage → Text → Prop
  | nil (t : Text) : LeadsOn [] [] t
  | cons {entry : UndoEntry} {p : Passage} {entries : List UndoEntry} {passages : List Passage}
      (hfits : entry.Fits p) (hrest : LeadsOn entries passages p.after) :
      LeadsOn (entry :: entries) (p :: passages) p.before.text

theorem LeadsUp.take {entries : List UndoEntry} {passages : List Passage} {t : Text}
    (h : LeadsUp entries passages t) (n : Nat) :
    LeadsUp (entries.take n) (passages.take n) t := by
  induction h generalizing n with
  | nil t => simpa using LeadsUp.nil t
  | cons hfits _ ih =>
    cases n with
    | zero => exact .nil _
    | succ n => exact .cons hfits (ih n)

theorem LeadsUp.length_eq {entries : List UndoEntry} {passages : List Passage} {t : Text}
    (h : LeadsUp entries passages t) : passages.length = entries.length := by
  induction h with
  | nil => rfl
  | cons _ _ ih => rw [List.length_cons, List.length_cons, ih]

theorem LeadsOn.length_eq {entries : List UndoEntry} {passages : List Passage} {t : Text}
    (h : LeadsOn entries passages t) : passages.length = entries.length := by
  induction h with
  | nil => rfl
  | cons _ _ ih => rw [List.length_cons, List.length_cons, ih]

theorem LeadsOn.chain {entries : List UndoEntry} {passages : List Passage} {t : Text}
    (h : LeadsOn entries passages t) : ∃ texts, UndoEntry.Chain entries (t :: texts) := by
  induction h with
  | nil t => exact ⟨[], t, rfl⟩
  | @cons entry p entries passages hfits _ ih =>
    obtain ⟨texts, hchain⟩ := ih
    exact ⟨p.after :: texts, p.before.text, p.after, texts, rfl, hfits.leads, hchain⟩

/-- A chain behind a text goes on in front of it with the entries that lead up to it. -/
theorem LeadsUp.chain {entries undone : List UndoEntry} {passages : List Passage} {t : Text}
    (h : LeadsUp entries passages t) {texts : List Text}
    (hchain : UndoEntry.Chain undone (t :: texts)) :
    ∃ texts', UndoEntry.Chain (entries.reverse ++ undone) texts' ∧
      texts'.drop entries.length = t :: texts := by
  induction h generalizing undone texts with
  | nil t => exact ⟨t :: texts, hchain, rfl⟩
  | @cons entry p entries passages hfits _ ih =>
    have hentry : UndoEntry.Chain (entry :: undone) (p.before.text :: p.after :: texts) :=
      ⟨_, _, _, rfl, hfits.leads, hchain⟩
    obtain ⟨texts', hchain', hdrop⟩ := ih hentry
    refine ⟨texts', ?_, ?_⟩
    · rw [List.reverse_cons, List.append_assoc]
      exact hchain'
    · rw [List.length_cons, ← List.drop_drop, hdrop]
      rfl

namespace Buffer

/-! ## Splicing back and forth -/

/-- What no single step changes is as before after all of them. -/
theorem field_foldl {α : Type} (field : Buffer → α) (step : Buffer → Edit → Buffer)
    (hstep : ∀ (b : Buffer) (edit : Edit), field (step b edit) = field b) (edits : List Edit)
    (b : Buffer) : field (edits.foldl step b) = field b := by
  induction edits generalizing b with
  | nil => rfl
  | cons edit rest ih => rw [List.foldl_cons, ih, hstep]

theorem text_revertEdit {b : Buffer} {edit : Edit} {before : Text}
    (h : edit.Turns before b.text) : (b.revertEdit edit).text = before := by
  obtain ⟨front, back, hoffset, rfl, hafter⟩ := h
  exact text_splice_turns (by rw [hoffset]) rfl "undo" hafter

theorem text_repeatEdit {b : Buffer} {edit : Edit} {after : Text}
    (h : edit.Turns b.text after) : (b.repeatEdit edit).text = after := by
  obtain ⟨front, back, hoffset, hbefore, rfl⟩ := h
  exact text_splice_turns (by rw [hoffset]) rfl "redo" hbefore

/-- Edits taken back from the last one on lead to the text before them. -/
theorem text_foldl_revertEdit {edits : List Edit} {before : Text} {b : Buffer}
    (h : Edit.Leads edits before b.text) : (edits.reverse.foldl revertEdit b).text = before := by
  induction edits generalizing before with
  | nil => exact h
  | cons edit rest ih =>
    obtain ⟨middle, hturns, hrest⟩ := h
    rw [List.reverse_cons, List.foldl_append, List.foldl_cons, List.foldl_nil]
    have hmiddle := ih hrest
    rw [← hmiddle] at hturns
    exact text_revertEdit hturns

/-- Edits done again lead to the text after them. -/
theorem text_foldl_repeatEdit {edits : List Edit} {after : Text} {b : Buffer}
    (h : Edit.Leads edits b.text after) : (edits.foldl repeatEdit b).text = after := by
  induction edits generalizing b with
  | nil => exact h.symm
  | cons edit rest ih =>
    obtain ⟨middle, hturns, hrest⟩ := h
    rw [List.foldl_cons]
    rw [← text_repeatEdit hturns] at hrest
    exact ih hrest

/-- A caret put within the text is found there after `reconcile`. -/
theorem scene_reconcile_putCaret {b : Buffer} {caret anchor : Int} (entries : Journal)
    (hcaret : b.document.Within caret) (hanchor : b.document.Within anchor) :
    ((b.putCaret caret anchor).report entries).reconcile.scene = ⟨b.text, caret, anchor⟩ := by
  have habsolute : (b.putCaret caret anchor).caret.absolute = caret := by
    simp [putCaret, collapse, Caret.collapse, Caret.absolute]
  have hinside : ((b.putCaret caret anchor).report entries).Inside :=
    ⟨hanchor, hcaret, habsolute.symm ▸ hcaret⟩
  rw [scene, text, (quiet_reconcile _).document, caret_reconcile hinside]
  change Scene.mk b.text (b.putCaret caret anchor).caret.absolute anchor = _
  rw [habsolute]

/-- Undo brings back the scene before the latest entry. -/
theorem undo_of_fits {b : Buffer} {entry : UndoEntry} {timeline : Timeline}
    (htimeline : b.timeline.undo? = some (entry, timeline)) {p : Passage} (hfits : entry.Fits p)
    (htext : b.text = p.after) :
    b.undo.2 = true ∧ b.undo.1.scene = p.before ∧ b.undo.1.timeline = timeline ∧
      b.undo.1.grouping = b.grouping := by
  have hleads : Edit.Leads entry.edits p.before.text b.text := htext ▸ hfits.leads
  have hreverted : (b.reverted entry timeline).text = p.before.text :=
    text_foldl_revertEdit hleads
  have htimeline' : (b.reverted entry timeline).timeline = timeline :=
    field_foldl Buffer.timeline revertEdit (fun _ _ => rfl) _ _
  have hgrouping : (b.reverted entry timeline).grouping = b.grouping :=
    field_foldl Buffer.grouping revertEdit (fun _ _ => rfl) _ _
  rw [undo_eq htimeline]
  generalize b.reverted entry timeline = c at hreverted htimeline' hgrouping ⊢
  have hquiet : c.Quiet ((c.putCaret entry.caretBefore entry.anchorBefore).report
      [.ended (replayActivity "undo" entry)]).reconcile :=
    ((quiet_putCaret c _ _).trans (quiet_report _ _)).trans (quiet_reconcile _)
  refine ⟨rfl, ?_, hquiet.timeline.trans htimeline', hquiet.grouping.trans hgrouping⟩
  obtain ⟨hcaret, hanchor⟩ := hfits.sound
  rw [← hreverted, ← hfits.caret] at hcaret
  rw [← hreverted, ← hfits.anchor] at hanchor
  have hscene := scene_reconcile_putCaret [.ended (replayActivity "undo" entry)] hcaret hanchor
  apply hscene.trans
  rw [hreverted, hfits.caret, hfits.anchor]

/-- Redo brings back the text after the next entry. -/
theorem redo_of_fits {b : Buffer} {entry : UndoEntry} {timeline : Timeline}
    (htimeline : b.timeline.redo? = some (entry, timeline)) {p : Passage} (hfits : entry.Fits p)
    (htext : b.text = p.before.text) :
    b.redo.2 = true ∧ b.redo.1.text = p.after ∧ b.redo.1.timeline = timeline ∧
      b.redo.1.grouping = b.grouping := by
  have hleads : Edit.Leads entry.edits b.text p.after := htext ▸ hfits.leads
  have hrepeated : (b.repeated entry timeline).text = p.after := text_foldl_repeatEdit hleads
  have htimeline' : (b.repeated entry timeline).timeline = timeline :=
    field_foldl Buffer.timeline repeatEdit (fun _ _ => rfl) _ _
  have hgrouping : (b.repeated entry timeline).grouping = b.grouping :=
    field_foldl Buffer.grouping repeatEdit (fun _ _ => rfl) _ _
  rw [redo_eq htimeline]
  generalize b.repeated entry timeline = c at hrepeated htimeline' hgrouping ⊢
  have hquiet : c.Quiet ((c.collapse entry.caretAfter).report
      [.ended (replayActivity "redo" entry)]).reconcile :=
    ((quiet_collapse c _).trans (quiet_report _ _)).trans (quiet_reconcile _)
  refine ⟨rfl, ?_, hquiet.timeline.trans htimeline', hquiet.grouping.trans hgrouping⟩
  exact (congrArg Document.text hquiet.document).trans hrepeated

end Buffer

/-! ## What is remembered fits the history -/

/-- The history of a buffer on which no group is going on fits what is remembered of it. -/
structure Recalls (b : Buffer) (r : Recall) : Prop where
  idle : b.grouping = none
  inside : b.Inside
  limit : b.timeline.limit = 1000
  past : LeadsUp b.timeline.done r.past b.text
  future : LeadsOn b.timeline.undone r.future b.text
  length : b.timeline.length ≤ 1000

namespace Recalls

variable {b : Buffer} {d : Desk} {r : Recall} {operation : Operation}

theorem create (path : String) (t : Text) (rows columns : Int) (settings : Settings) :
    Recalls (Buffer.create path t rows columns settings) {} :=
  ⟨rfl, Buffer.inside_create path t rows columns settings, rfl, .nil _, .nil _, Nat.zero_le _⟩

theorem undo_nil (h : Recalls b r) (hpast : r.past = []) :
    b.timeline.done = [] ∧ b.undo = (b, false) := by
  have hlength := h.past.length_eq
  rw [hpast] at hlength
  have hdone := List.eq_nil_of_length_eq_zero hlength.symm
  exact ⟨hdone, by simp [Buffer.undo, Timeline.undo?, hdone]⟩

theorem redo_nil (h : Recalls b r) (hfuture : r.future = []) :
    b.timeline.undone = [] ∧ b.redo = (b, false) := by
  have hlength := h.future.length_eq
  rw [hfuture] at hlength
  have hundone := List.eq_nil_of_length_eq_zero hlength.symm
  exact ⟨hundone, by simp [Buffer.redo, Timeline.redo?, hundone]⟩

theorem undo_cons (h : Recalls b r) {p : Passage} {past : List Passage}
    (hpast : r.past = p :: past) :
    b.timeline.done ≠ [] ∧ b.undo.2 = true ∧ b.undo.1.scene = p.before ∧
      Recalls b.undo.1 ⟨past, p :: r.future⟩ := by
  have hleads := h.past
  rw [hpast] at hleads
  generalize hdone : b.timeline.done = done at hleads
  generalize htext : b.text = t at hleads
  cases hleads with
  | @cons entry _ entries _ hfits hrest =>
    have htimeline : b.timeline.undo? = some (entry,
        { b.timeline with done := entries, undone := entry :: b.timeline.undone }) := by
      simp [Timeline.undo?, hdone]
    obtain ⟨hdid, hscene, htimeline', hgrouping⟩ := Buffer.undo_of_fits htimeline hfits htext
    have hafter : b.undo.1.text = p.before.text := congrArg Scene.text hscene
    have hlength := h.length
    refine ⟨List.cons_ne_nil _ _, hdid, hscene, hgrouping.trans h.idle, Buffer.inside_undo h.inside,
      ?_, ?_, ?_, ?_⟩ <;> rw [htimeline']
    · exact h.limit
    · rw [hafter]
      exact hrest
    · rw [hafter]
      exact .cons hfits (htext ▸ h.future)
    · simp only [Timeline.length, hdone, List.length_cons] at hlength ⊢
      omega

theorem redo_cons (h : Recalls b r) {p : Passage} {future : List Passage}
    (hfuture : r.future = p :: future) :
    b.timeline.undone ≠ [] ∧ b.redo.2 = true ∧ b.redo.1.text = p.after ∧
      Recalls b.redo.1 ⟨p :: r.past, future⟩ := by
  have hleads := h.future
  rw [hfuture] at hleads
  generalize hundone : b.timeline.undone = undone at hleads
  generalize htext : b.text = t at hleads
  cases hleads with
  | @cons entry _ entries _ hfits hrest =>
    have htimeline : b.timeline.redo? = some (entry,
        { b.timeline with done := entry :: b.timeline.done, undone := entries }) := by
      simp [Timeline.redo?, hundone]
    obtain ⟨hdid, hafter, htimeline', hgrouping⟩ := Buffer.redo_of_fits htimeline hfits htext
    have hlength := h.length
    refine ⟨List.cons_ne_nil _ _, hdid, hafter, hgrouping.trans h.idle, Buffer.inside_redo h.inside,
      ?_, ?_, ?_, ?_⟩ <;> rw [htimeline']
    · exact h.limit
    · rw [hafter]
      exact .cons hfits (htext ▸ h.past)
    · rw [hafter]
      exact hrest
    · simp only [Timeline.length, hundone, List.length_cons] at hlength ⊢
      omega

/-- An operation without edits leaves text and history alone. -/
theorem operate_same (h : Recalls d.buffer r) (hsteady : operation.Steady)
    (hreplay : operation.isReplay = false)
    (hversion : (d.operate operation).buffer.document.version = d.buffer.document.version) :
    (d.operate operation).buffer.text = d.buffer.text ∧
      (d.operate operation).buffer.timeline = d.buffer.timeline ∧
      Recalls (d.operate operation).buffer r := by
  obtain ⟨edits, hedits, hwritten⟩ := Desk.undoable_operate hsteady hreplay d
  obtain rfl := hedits.version_eq_iff.1 hversion
  have htext : (d.operate operation).buffer.text = d.buffer.text :=
    congrArg Document.text (hedits.rests rfl)
  rw [h.idle] at hwritten
  obtain ⟨hidle, htimeline⟩ := hwritten
  simp only [List.isEmpty_nil, if_true] at htimeline
  refine ⟨htext, htimeline, hidle, Desk.inside_operate h.inside operation, ?_, ?_, ?_, ?_⟩ <;>
    rw [htimeline]
  · exact h.limit
  · rw [htext]
    exact h.past
  · rw [htext]
    exact h.future
  · exact h.length

/-- An operation with edits becomes one entry in place of those undone, and beyond the limit of the
oldest one. -/
theorem operate_edit (h : Recalls d.buffer r) (hsteady : operation.Steady)
    (hreplay : operation.isReplay = false)
    (hversion : (d.operate operation).buffer.document.version ≠ d.buffer.document.version) :
    ∃ entry : UndoEntry,
      Edit.Leads entry.edits d.buffer.text (d.operate operation).buffer.text ∧
      (d.operate operation).buffer.timeline =
        { d.buffer.timeline with done := entry :: d.buffer.timeline.done.take 999, undone := [] } ∧
      Recalls (d.operate operation).buffer
        ⟨(⟨d.buffer.scene, (d.operate operation).buffer.text⟩ :: r.past).take 1000, []⟩ := by
  obtain ⟨edits, hedits, hwritten⟩ := Desk.undoable_operate hsteady hreplay d
  have hne : edits ≠ [] := fun hnil => hversion (hedits.version_eq_iff.2 hnil)
  rw [h.idle] at hwritten
  obtain ⟨hidle, hpushed⟩ := hwritten
  rw [if_neg (by simpa using hne)] at hpushed
  obtain ⟨label, caretAfter, hpushed⟩ := hpushed
  let entry : UndoEntry :=
    ⟨label, edits, d.buffer.caret.absolute, d.buffer.caret.anchor, caretAfter⟩
  have hfits : entry.Fits ⟨d.buffer.scene, (d.operate operation).buffer.text⟩ :=
    ⟨hedits.leads, rfl, rfl, h.inside.absolute, h.inside.anchor⟩
  have htimeline : (d.operate operation).buffer.timeline =
      { d.buffer.timeline with
        done := entry :: d.buffer.timeline.done.take 999
        undone := [] } := by
    have htake : (entry :: d.buffer.timeline.done).take d.buffer.timeline.limit =
        entry :: d.buffer.timeline.done.take 999 := by
      rw [h.limit]
      rfl
    rw [hpushed, Timeline.push, htake]
  refine ⟨entry, hedits.leads, htimeline, hidle, Desk.inside_operate h.inside operation,
    ?_, ?_, ?_, ?_⟩ <;> rw [htimeline]
  · exact h.limit
  · have htaken := h.past.take 999
    exact .cons hfits htaken
  · exact .nil _
  · simp only [Timeline.length, List.length_cons, List.length_nil, List.length_take]
    omega

/-- What is remembered goes along with every steady operation. -/
theorem follow (h : Recalls d.buffer r) (hsteady : operation.Steady) :
    Recalls (d.operate operation).buffer (r.follow d operation) := by
  cases hreplay : operation.isReplay with
  | true =>
    obtain ⟨past, future⟩ := r
    cases operation with
    | rehost | transaction => simp [Operation.isReplay] at hreplay
    | perform command =>
      cases command <;>
        simp only [Operation.isReplay, Command.isReplay, Bool.false_eq_true] at hreplay
      · rw [Desk.operate_perform]
        cases past with
        | nil =>
          obtain ⟨-, hundo⟩ := h.undo_nil rfl
          change Recalls d.buffer.undo.1 _
          rw [hundo]
          exact h
        | cons p past => exact (h.undo_cons rfl).2.2.2
      · rw [Desk.operate_perform]
        cases future with
        | nil =>
          obtain ⟨-, hredo⟩ := h.redo_nil rfl
          change Recalls d.buffer.redo.1 _
          rw [hredo]
          exact h
        | cons p future => exact (h.redo_cons rfl).2.2.2
  | false =>
    rw [Recall.follow_of_isReplay_eq_false hreplay]
    split
    · next hversion => exact (h.operate_same hsteady hreplay hversion).2.2
    · next hversion =>
      obtain ⟨-, -, -, hrecalls⟩ := h.operate_edit hsteady hreplay hversion
      exact hrecalls

theorem foldl_watch {operations : List Operation} (hsteady : ∀ o ∈ operations, o.Steady)
    {state : Desk × Recall} (h : Recalls state.1.buffer state.2) :
    Recalls (operations.foldl Desk.watch state).1.buffer (operations.foldl Desk.watch state).2 := by
  induction operations generalizing state with
  | nil => exact h
  | cons operation rest ih =>
    obtain ⟨hfirst, hrest⟩ := List.forall_mem_cons.1 hsteady
    exact ih hrest (h.follow hfirst)

end Recalls

/-! ## What the history is good for -/

/-- The history of a buffer is the one that somebody who watched the buffer would write: a chain of
texts on which undo and redo go to and fro between what is remembered. -/
structure Faithful (d : Desk) (r : Recall) : Prop where
  /-- The entries lead from text to text, and the text of the buffer is the one between the entries
  done and those undone. -/
  chain : ∃ texts,
    UndoEntry.Chain (d.buffer.timeline.done.reverse ++ d.buffer.timeline.undone) texts ∧
      texts[d.buffer.timeline.done.length]? = some d.buffer.text
  length_le : d.buffer.timeline.length ≤ 1000
  length_past : r.past.length = d.buffer.timeline.done.length
  length_future : r.future.length = d.buffer.timeline.undone.length
  undo_eq_false : d.buffer.undo.2 = false ↔ d.buffer.timeline.done = []
  undo_scene : ∀ p past, r.past = p :: past → d.buffer.undo.1.scene = p.before
  redo_eq_false : d.buffer.redo.2 = false ↔ d.buffer.timeline.undone = []
  redo_text : ∀ p future, r.future = p :: future → d.buffer.redo.1.text = p.after
  /-- Any other operation leaves text and history alone, or becomes one entry in place of those
  undone; no entry is forgotten but the oldest of a thousand. -/
  edit : ∀ operation : Operation, operation.Steady → operation.isReplay = false →
    let b := (d.operate operation).buffer
    if b.document.version = d.buffer.document.version then
      b.text = d.buffer.text ∧ b.timeline = d.buffer.timeline
    else
      ∃ entry : UndoEntry, Edit.Leads entry.edits d.buffer.text b.text ∧
        b.timeline =
          { d.buffer.timeline with done := entry :: d.buffer.timeline.done.take 999, undone := [] }

theorem Recalls.faithful {d : Desk} {r : Recall} (h : Recalls d.buffer r) : Faithful d r where
  chain := by
    obtain ⟨texts, hchain⟩ := h.future.chain
    obtain ⟨texts', hchain', hdrop⟩ := h.past.chain hchain
    have hhead := congrArg List.head? hdrop
    rw [List.head?_drop] at hhead
    exact ⟨texts', hchain', hhead⟩
  length_le := h.length
  length_past := h.past.length_eq
  length_future := h.future.length_eq
  undo_eq_false := by
    cases hpast : r.past with
    | nil =>
      obtain ⟨hdone, hundo⟩ := h.undo_nil hpast
      rw [hundo]
      exact iff_of_true rfl hdone
    | cons p past =>
      obtain ⟨hdone, hundo, -, -⟩ := h.undo_cons hpast
      rw [hundo]
      exact iff_of_false Bool.noConfusion hdone
  undo_scene := fun p past hpast => (h.undo_cons hpast).2.2.1
  redo_eq_false := by
    cases hfuture : r.future with
    | nil =>
      obtain ⟨hundone, hredo⟩ := h.redo_nil hfuture
      rw [hredo]
      exact iff_of_true rfl hundone
    | cons p future =>
      obtain ⟨hundone, hredo, -, -⟩ := h.redo_cons hfuture
      rw [hredo]
      exact iff_of_false Bool.noConfusion hundone
  redo_text := fun p future hfuture => (h.redo_cons hfuture).2.2.1
  edit := by
    intro operation hsteady hreplay b
    split
    · next hversion =>
      obtain ⟨htext, htimeline, -⟩ := h.operate_same hsteady hreplay hversion
      exact ⟨htext, htimeline⟩
    · next hversion =>
      obtain ⟨entry, hleads, htimeline, -⟩ := h.operate_edit hsteady hreplay hversion
      exact ⟨entry, hleads, htimeline⟩

/-- After any steady operations the history is faithful to what somebody who watched them
remembers. -/
theorem faithful_foldl_watch (path : String) (t : Text) (rows columns : Int) (settings : Settings)
    (host : Host) (operations : List Operation) (hsteady : ∀ o ∈ operations, o.Steady) :
    let state := operations.foldl Desk.watch
      (⟨Buffer.create path t rows columns settings, host⟩, {})
    Faithful state.1 state.2 :=
  (Recalls.foldl_watch hsteady (Recalls.create path t rows columns settings)).faithful

/-- Two deletions in one transaction, taken back and followed by another edit. -/
theorem faithful_foldl_watch_transaction :
    let operations : List Operation :=
      [.transaction "twice" (.perform .deleteRight (.perform .deleteRight .done)), .perform .undo,
        .perform (.insertText ['c'])]
    let state := operations.foldl Desk.watch
      (⟨Buffer.create "a.txt" ['a', 'b'] 24 80 {}, {}⟩, {})
    (∀ o ∈ operations, o.Steady) ∧ Faithful state.1 state.2 :=
  have hsteady : ∀ o ∈ [Operation.transaction "twice"
      (.perform .deleteRight (.perform .deleteRight .done)), .perform .undo,
      .perform (.insertText ['c'])], o.Steady := by
    simp [Operation.Steady, Routine.Steady, Command.isReplay]
  ⟨hsteady, faithful_foldl_watch "a.txt" ['a', 'b'] 24 80 {} {} _ hsteady⟩

end TextEditor
