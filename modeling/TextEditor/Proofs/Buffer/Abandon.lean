import TextEditor.Proofs.Buffer.Resume

/-!
# Transactions given up

A transaction that raises is given up: its edits stay in the text, and the history does not hear of
them.  The entries made before it, those undone among them, hold offsets of a text that is gone, so
undo and redo can no longer be relied on to find there what an entry says.  They can for the entries
made since, and for all of them if the transaction did nothing to the text.
-/

namespace TextEditor

namespace Operation

/-- Inside the transaction, if it is one, nothing is undone or redone. -/
def calm : Operation → Bool
  | .rehost _ | .perform _ => true
  | .transaction _ body => body.calm

end Operation

namespace Desk

/-- Whether the operation is done without raising anything. -/
def finishes (d : Desk) (operation : Operation) : Bool :=
  (operation.step.start d).1.isOk

end Desk

namespace Recall

/-- What may be relied on of what is remembered, after an operation.  An edit in a transaction that
was given up, or one that undid and redid itself, leaves nothing to rely on, and neither does a step
beyond what is remembered. -/
def trust (r : Recall) (d : Desk) (operation : Operation) : Recall :=
  match operation, r.past, r.future with
  | .perform .undo, [], _ => if d.buffer.undo.2 then {} else r
  | .perform .undo, p :: past, future => ⟨past, p :: future⟩
  | .perform .redo, _, [] => if d.buffer.redo.2 then {} else r
  | .perform .redo, past, p :: future => ⟨p :: past, future⟩
  | _, past, _ =>
    let b := (d.operate operation).buffer
    if !operation.calm then {}
    else if b.document.version = d.buffer.document.version then r
    else if d.finishes operation then ⟨(⟨d.buffer.scene, b.text⟩ :: past).take 1000, []⟩
    else {}

theorem trust_of_isReplay_eq_false {r : Recall} {d : Desk} {operation : Operation}
    (h : operation.isReplay = false) :
    r.trust d operation =
      if !operation.calm then {}
      else if (d.operate operation).buffer.document.version = d.buffer.document.version then r
      else if d.finishes operation then
        ⟨(⟨d.buffer.scene, (d.operate operation).buffer.text⟩ :: r.past).take 1000, []⟩
      else {} := by
  cases operation with
  | rehost | transaction => rfl
  | perform command =>
    cases command <;> first | rfl | simp [Operation.isReplay, Command.isReplay] at h

end Recall

/-- A buffer and what may be relied on of it, after an operation. -/
def Desk.attend (state : Desk × Recall) (operation : Operation) : Desk × Recall :=
  (state.1.operate operation, state.2.trust state.1 operation)

/-! ## Groups that end -/

namespace Buffer

theorem grouping_endGroup (b : Buffer) : b.endGroup.grouping = none := by
  unfold endGroup
  split
  · assumption
  · rfl

theorem grouping_abandonGroup (b : Buffer) (reason : String) :
    (b.abandonGroup reason).grouping = none := by
  unfold abandonGroup
  split
  · assumption
  · rfl

theorem timeline_abandonGroup (b : Buffer) (reason : String) :
    (b.abandonGroup reason).timeline = b.timeline := by
  unfold abandonGroup
  split <;> rfl

theorem undo_eq_self {b : Buffer} (h : b.undo.2 = false) : b.undo.1 = b := by
  unfold undo at h ⊢
  split at h
  · rfl
  · cases h

theorem redo_eq_self {b : Buffer} (h : b.redo.2 = false) : b.redo.1 = b := by
  unfold redo at h ⊢
  split at h
  · rfl
  · cases h

end Buffer

namespace Desk

variable {d : Desk}

/-- No group goes on after an operation that began outside one. -/
theorem idle_operate (h : d.buffer.grouping = none) (operation : Operation) :
    (d.operate operation).buffer.grouping = none := by
  cases operation with
  | rehost host => exact h
  | perform command =>
    rw [operate_perform]
    cases hreplay : command.isReplay with
    | false =>
      obtain ⟨edits, -, hwritten⟩ := undoable_perform d hreplay
      rw [h] at hwritten
      exact hwritten.1
    | true =>
      cases command <;> simp only [Command.isReplay, Bool.false_eq_true] at hreplay
      · exact (Buffer.frame_undo d.buffer).1.trans h
      · exact (Buffer.frame_redo d.buffer).1.trans h
  | transaction label body =>
    rw [operate, Operation.step, start_transaction, h]
    simp only [Option.isSome_none, Bool.false_eq_true, if_false]
    generalize body.step.start (d.onBuffer (·.beginGroup label)) = result
    obtain ⟨outcome, d'⟩ := result
    cases outcome with
    | ok => exact Buffer.grouping_endGroup _
    | error fault => exact Buffer.grouping_abandonGroup _ _

theorem limit_operate (d : Desk) (operation : Operation) :
    (d.operate operation).buffer.timeline.limit = d.buffer.timeline.limit := by
  obtain ⟨calls, hcalls⟩ := exists_calls_operate operation d
  rw [hcalls, limit_foldl_call]

/-- A calm transaction that is given up amends the text, and leaves the history alone. -/
theorem amends_abandoned {label : String} {body : Routine} (hcalm : body.calm = true)
    (hidle : d.buffer.grouping = none)
    (hfailed : d.finishes (.transaction label body) = false) :
    let b := (d.operate (.transaction label body)).buffer
    (∃ edits, Buffer.Amends edits d.buffer b) ∧ b.timeline = d.buffer.timeline := by
  have hbegin := Buffer.rests_beginGroup d.buffer label
  obtain ⟨edits, hedits, hwritten⟩ :=
    undoable_routine hcalm (d := d.onBuffer (·.beginGroup label)) rfl
  have htimeline : (body.step.start (d.onBuffer (·.beginGroup label))).2.buffer.timeline =
      d.buffer.timeline := hwritten.1
  rw [finishes, Operation.step, start_transaction, hidle] at hfailed
  simp only [operate, Operation.step, start_transaction, hidle, Option.isSome_none,
    Bool.false_eq_true, if_false] at hfailed ⊢
  generalize body.step.start (d.onBuffer (·.beginGroup label)) = result
    at hedits htimeline hfailed ⊢
  obtain ⟨outcome, d'⟩ := result
  cases outcome with
  | ok => cases hfailed
  | error fault =>
    have hend := Buffer.rests_abandonGroup d'.buffer fault.reported
    have hamends := (hbegin.amends.trans hedits).trans hend.amends
    rw [List.nil_append, List.append_nil] at hamends
    exact ⟨⟨edits, hamends⟩, (Buffer.timeline_abandonGroup _ _).trans htimeline⟩

/-- A calm operation can be taken back, or is a transaction that was given up. -/
theorem undoable_or_abandoned {operation : Operation} (hcalm : operation.calm = true)
    (hreplay : operation.isReplay = false) (hidle : d.buffer.grouping = none) :
    let b := (d.operate operation).buffer
    d.buffer.Undoable b ∨ d.finishes operation = false ∧
      (∃ edits, Buffer.Amends edits d.buffer b) ∧ b.timeline = d.buffer.timeline := by
  cases operation with
  | rehost host => exact .inl (Buffer.Quiet.refl _).undoable
  | perform command =>
    rw [operate_perform]
    exact .inl (undoable_perform d hreplay)
  | transaction label body =>
    cases hfinishes : d.finishes (.transaction label body) with
    | false => exact .inr ⟨rfl, amends_abandoned hcalm hidle hfinishes⟩
    | true =>
      refine .inl (undoable_transaction label hcalm ?_)
      change ((transaction label body.step).start d).1.isOk = true at hfinishes
      generalize ((transaction label body.step).start d).1 = outcome at hfinishes ⊢
      cases outcome with
      | ok => rfl
      | error fault => cases hfinishes

end Desk

/-! ## The latest entries fit what may be relied on -/

theorem LeadsUp.uncons {done : List UndoEntry} {p : Passage} {past : List Passage} {t : Text}
    (h : LeadsUp (done.take (p :: past).length) (p :: past) t) :
    ∃ entry older, done = entry :: older ∧ entry.Fits p ∧ t = p.after ∧
      LeadsUp (older.take past.length) past p.before.text := by
  cases done with
  | nil => cases h
  | cons entry older =>
    rw [List.length_cons, List.take_succ_cons] at h
    cases h with
    | cons hfits hrest => exact ⟨entry, older, rfl, hfits, rfl, hrest⟩

theorem LeadsOn.uncons {undone : List UndoEntry} {p : Passage} {future : List Passage} {t : Text}
    (h : LeadsOn (undone.take (p :: future).length) (p :: future) t) :
    ∃ entry later, undone = entry :: later ∧ entry.Fits p ∧ t = p.before.text ∧
      LeadsOn (later.take future.length) future p.after := by
  cases undone with
  | nil => cases h
  | cons entry later =>
    rw [List.length_cons, List.take_succ_cons] at h
    cases h with
    | cons hfits hrest => exact ⟨entry, later, rfl, hfits, rfl, hrest⟩

/-- The latest entries of the history of a buffer fit what may be relied on.  Nothing is said of the
entries behind them. -/
structure Trusts (b : Buffer) (r : Recall) : Prop where
  idle : b.grouping = none
  inside : b.Inside
  limit : b.timeline.limit = 1000
  past : LeadsUp (b.timeline.done.take r.past.length) r.past b.text
  future : LeadsOn (b.timeline.undone.take r.future.length) r.future b.text

namespace Trusts

variable {b c : Buffer} {d : Desk} {r : Recall}

theorem nothing (hidle : b.grouping = none) (hinside : b.Inside)
    (hlimit : b.timeline.limit = 1000) : Trusts b {} :=
  ⟨hidle, hinside, hlimit, .nil _, .nil _⟩

theorem undo_cons (h : Trusts b r) {p : Passage} {past : List Passage}
    (hpast : r.past = p :: past) :
    b.undo.2 = true ∧ b.undo.1.scene = p.before ∧ Trusts b.undo.1 ⟨past, p :: r.future⟩ := by
  have hleads := h.past
  rw [hpast] at hleads
  obtain ⟨entry, older, hdone, hfits, htext, hrest⟩ := hleads.uncons
  have hundo : b.timeline.undo? = some (entry,
      { b.timeline with done := older, undone := entry :: b.timeline.undone }) := by
    rw [Timeline.undo?, hdone]
  obtain ⟨hundone, hscene, htimeline, hgrouping⟩ := Buffer.undo_of_fits hundo hfits htext
  have hbefore : b.undo.1.text = p.before.text := congrArg Scene.text hscene
  refine ⟨hundone, hscene, hgrouping.trans h.idle, Buffer.inside_undo h.inside, ?_, ?_, ?_⟩ <;>
    rw [htimeline]
  · exact h.limit
  · rw [hbefore]
    exact hrest
  · rw [hbefore]
    exact .cons hfits (htext ▸ h.future)

theorem redo_cons (h : Trusts b r) {p : Passage} {future : List Passage}
    (hfuture : r.future = p :: future) :
    b.redo.2 = true ∧ b.redo.1.text = p.after ∧ Trusts b.redo.1 ⟨p :: r.past, future⟩ := by
  have hleads := h.future
  rw [hfuture] at hleads
  obtain ⟨entry, later, hundone, hfits, htext, hrest⟩ := hleads.uncons
  have hredo : b.timeline.redo? = some (entry,
      { b.timeline with done := entry :: b.timeline.done, undone := later }) := by
    rw [Timeline.redo?, hundone]
  obtain ⟨hredone, hafter, htimeline, hgrouping⟩ := Buffer.redo_of_fits hredo hfits htext
  refine ⟨hredone, hafter, hgrouping.trans h.idle, Buffer.inside_redo h.inside, ?_, ?_, ?_⟩ <;>
    rw [htimeline]
  · exact h.limit
  · rw [hafter]
    exact .cons hfits (htext ▸ h.past)
  · rw [hafter]
    exact hrest

/-- Where neither text nor history changed, all that was relied on may be. -/
theorem same (h : Trusts b r) (hidle : c.grouping = none) (hinside : c.Inside)
    (htext : c.text = b.text) (htimeline : c.timeline = b.timeline) : Trusts c r := by
  refine ⟨hidle, hinside, ?_, ?_, ?_⟩ <;> rw [htimeline]
  · exact h.limit
  · rw [htext]
    exact h.past
  · rw [htext]
    exact h.future

/-- A new entry stands in front of those that were relied on, and forgets the undone ones. -/
theorem push (h : Trusts b r) (hidle : c.grouping = none) (hinside : c.Inside) {entry : UndoEntry}
    (hfits : entry.Fits ⟨b.scene, c.text⟩) (htimeline : c.timeline = b.timeline.push entry) :
    Trusts c ⟨(⟨b.scene, c.text⟩ :: r.past).take 1000, []⟩ := by
  have hleads : LeadsUp ((entry :: b.timeline.done).take (r.past.length + 1))
      (⟨b.scene, c.text⟩ :: r.past) c.text := by
    rw [List.take_succ_cons]
    exact .cons hfits h.past
  have htaken := hleads.take 1000
  rw [List.take_take] at htaken
  refine ⟨hidle, hinside, ?_, ?_, ?_⟩ <;> rw [htimeline]
  · exact h.limit
  · simp only [Timeline.push, h.limit, List.take_take, List.length_take, List.length_cons]
    rwa [Nat.min_assoc, Nat.min_comm _ 1000, ← Nat.min_assoc, Nat.min_self]
  · exact .nil _

theorem nothing_operate (h : Trusts d.buffer r) (operation : Operation) :
    Trusts (d.operate operation).buffer {} :=
  nothing (Desk.idle_operate h.idle operation) (Desk.inside_operate h.inside operation)
    ((Desk.limit_operate d operation).trans h.limit)

theorem trust_undo (h : Trusts d.buffer r) :
    Trusts (d.operate (.perform .undo)).buffer (r.trust d (.perform .undo)) := by
  have hnothing := h.nothing_operate (.perform .undo)
  obtain ⟨past, future⟩ := r
  rw [Desk.operate_perform] at hnothing ⊢
  cases past with
  | cons p past => exact (h.undo_cons rfl).2.2
  | nil =>
    simp only [Recall.trust]
    split
    · exact hnothing
    · next hundone =>
      change Trusts d.buffer.undo.1 _
      rw [Buffer.undo_eq_self (Bool.eq_false_of_not_eq_true hundone)]
      exact h

theorem trust_redo (h : Trusts d.buffer r) :
    Trusts (d.operate (.perform .redo)).buffer (r.trust d (.perform .redo)) := by
  have hnothing := h.nothing_operate (.perform .redo)
  obtain ⟨past, future⟩ := r
  rw [Desk.operate_perform] at hnothing ⊢
  cases future with
  | cons p future => exact (h.redo_cons rfl).2.2
  | nil =>
    simp only [Recall.trust]
    split
    · exact hnothing
    · next hredone =>
      change Trusts d.buffer.redo.1 _
      rw [Buffer.redo_eq_self (Bool.eq_false_of_not_eq_true hredone)]
      exact h

/-- An operation that edits is written down, or it is given up. -/
theorem trust_edit (h : Trusts d.buffer r) {operation : Operation}
    (hreplay : operation.isReplay = false) :
    Trusts (d.operate operation).buffer (r.trust d operation) := by
  have hidle := Desk.idle_operate h.idle operation
  have hinside := Desk.inside_operate h.inside operation
  have hnothing := h.nothing_operate operation
  rw [Recall.trust_of_isReplay_eq_false hreplay]
  cases hcalm : operation.calm with
  | false => exact hnothing
  | true =>
    simp only [Bool.not_true, Bool.false_eq_true, if_false]
    rcases Desk.undoable_or_abandoned hcalm hreplay h.idle with
      ⟨edits, hedits, hwritten⟩ | ⟨hfailed, ⟨edits, hedits⟩, htimeline⟩
    · rw [h.idle] at hwritten
      obtain ⟨-, hwritten⟩ := hwritten
      by_cases hnil : edits = []
      · have htext := congrArg Document.text (hedits.rests hnil)
        rw [if_pos (hedits.version_eq_iff.2 hnil)]
        rw [if_pos (by simpa using hnil)] at hwritten
        exact h.same hidle hinside htext hwritten
      · rw [if_neg fun hversion => hnil (hedits.version_eq_iff.1 hversion)]
        rw [if_neg (by simpa using hnil)] at hwritten
        obtain ⟨label, caretAfter, hpushed⟩ := hwritten
        split
        · exact h.push hidle hinside
            ⟨hedits.leads, rfl, rfl, h.inside.absolute, h.inside.anchor⟩ hpushed
        · exact hnothing
    · split
      · next hversion =>
        have hdocument := hedits.rests (hedits.version_eq_iff.1 hversion)
        exact h.same hidle hinside (congrArg Document.text hdocument) htimeline
      · rw [hfailed]
        exact hnothing

/-- What may be relied on goes along with every operation. -/
theorem trust (h : Trusts d.buffer r) (operation : Operation) :
    Trusts (d.operate operation).buffer (r.trust d operation) := by
  cases hreplay : operation.isReplay with
  | false => exact h.trust_edit hreplay
  | true =>
    cases operation with
    | rehost | transaction => cases hreplay
    | perform command =>
      cases command with
      | undo => exact h.trust_undo
      | redo => exact h.trust_redo
      | _ => cases hreplay

theorem foldl_attend {state : Desk × Recall} (h : Trusts state.1.buffer state.2)
    (operations : List Operation) :
    Trusts (operations.foldl Desk.attend state).1.buffer
      (operations.foldl Desk.attend state).2 := by
  induction operations generalizing state with
  | nil => exact h
  | cons operation rest ih => exact ih (h.trust operation)

end Trusts

/-! ## What may be relied on -/

/-- What undo and redo do as far as what is remembered may be relied on. -/
structure Dependable (d : Desk) (r : Recall) : Prop where
  /-- Each of the latest entries inserted, into the text before it, what stands there after it. -/
  past : LeadsUp (d.buffer.timeline.done.take r.past.length) r.past d.buffer.text
  /-- So will each of the next entries to be done again. -/
  future : LeadsOn (d.buffer.timeline.undone.take r.future.length) r.future d.buffer.text
  undo_scene : ∀ p past, r.past = p :: past →
    d.buffer.undo.2 = true ∧ d.buffer.undo.1.scene = p.before
  redo_text : ∀ p future, r.future = p :: future →
    d.buffer.redo.2 = true ∧ d.buffer.redo.1.text = p.after
  /-- The history does not hear of a transaction that is given up, whatever it did to the text. -/
  abandoned : ∀ (label : String) (body : Routine), body.calm = true →
    d.finishes (.transaction label body) = false →
      (d.operate (.transaction label body)).buffer.timeline = d.buffer.timeline

/-- After any operations, also transactions that raise, undo and redo lead to what is remembered
since the last edit that was given up. -/
theorem dependable_foldl_attend (path : String) (t : Text) (rows columns : Int)
    (settings : Settings) (host : Host) (operations : List Operation) :
    let state := operations.foldl Desk.attend
      (⟨Buffer.create path t rows columns settings, host⟩, {})
    Dependable state.1 state.2 := by
  intro state
  have hcreate : Trusts (Buffer.create path t rows columns settings) {} :=
    .nothing rfl (Buffer.inside_create path t rows columns settings) rfl
  have h : Trusts state.1.buffer state.2 := Trusts.foldl_attend hcreate operations
  exact {
    past := h.past
    future := h.future
    undo_scene := fun p past hpast =>
      ⟨(h.undo_cons hpast).1, (h.undo_cons hpast).2.1⟩
    redo_text := fun p future hfuture =>
      ⟨(h.redo_cons hfuture).1, (h.redo_cons hfuture).2.1⟩
    abandoned := fun label body hcalm hfailed =>
      (Desk.amends_abandoned hcalm h.idle hfailed).2 }

/-- Three characters with a fourth one typed behind them. -/
def typed : Desk :=
  [Operation.perform (.move .right 3 false), .perform (.insertText ['X'])].foldl Desk.operate
    ⟨Buffer.create "" ['a', 'b', 'c'] 24 80 .usual, {}⟩

/-- A transaction that inserts two characters at the start, and is then given up. -/
def stray : Operation :=
  .transaction "stray" (.perform (.move .left 4 false)
    (.perform (.insertText ['Y', 'Y']) (.raise (.raised "stray"))))

/-- Undo then takes out a character of the original text, where the typed one was. -/
theorem typed_stray_undo :
    let b := (typed.operate stray).buffer
    typed.finishes stray = false ∧ b.text = ['Y', 'Y', 'a', 'b', 'c', 'X'] ∧
      b.timeline.done.map UndoEntry.edits = [[⟨3, [], ['X']⟩]] ∧
        b.undo.2 = true ∧ b.undo.1.text = ['Y', 'Y', 'a', 'c', 'X'] := by
  decide +kernel

end TextEditor
