import TextEditor.Proofs.Buffer.View

/-!
# The view after every call

A caller uses a buffer by single calls: commands, the two ends of a transaction, changes of the
clipboard and of the layout of the screen, and the requests of a hub that follows the buffer.  The
view is framed after each of them.  It shows the line of the caret after each that comes to
`reconcile`; a scroll does not, and neither does a call that finds nothing to do.

The column of the caret is another matter.  The view is scrolled to it beside the margin that it had
before it was scrolled to the line, and a line further down can have a wider margin.
-/

namespace TextEditor

/-- A single call on a buffer, or something that the host does. -/
inductive Call where
  | perform (command : Command)
  /-- The clipboard changed, or the layout of the screen. -/
  | rehost (host : Host)
  /-- A transaction begins; one within another does nothing of its own at either end. -/
  | enter (label : String)
  | leave
  /-- A transaction is given up for a reason. -/
  | abandon (reason : String)
  | follow
  | unfollow
  | drain

def Command.isScroll : Command → Bool
  | .scrollUp _ | .scrollDown _ | .scrollLeft _ | .scrollRight _ => true
  | _ => false

namespace Desk

/-- Buffer and host after a call. -/
def call (d : Desk) : Call → Desk
  | .perform command => (d.perform command).2
  | .rehost host => { d with host }
  | .enter label => d.onBuffer fun b => if b.grouping.isSome then b else b.beginGroup label
  | .leave => d.onBuffer Buffer.endGroup
  | .abandon reason => d.onBuffer (·.abandonGroup reason)
  | .follow => d.onBuffer Buffer.track
  | .unfollow => d.onBuffer Buffer.untrack
  | .drain => d.onBuffer fun b => b.drainChanges.2

/-! ## Operations as calls -/

theorem exists_calls_transaction (label : String) {body : Step Desk Unit}
    (hbody : ∀ d : Desk, ∃ calls : List Call, (body.start d).2 = calls.foldl call d) (d : Desk) :
    ∃ calls : List Call, ((transaction label body).start d).2 = calls.foldl call d := by
  rw [start_transaction]
  split
  · exact hbody d
  · next hgroup =>
    obtain ⟨calls, hcalls⟩ := hbody (d.onBuffer (·.beginGroup label))
    have henter : d.call (.enter label) = d.onBuffer (·.beginGroup label) := by
      simp only [call, onBuffer, if_neg hgroup]
    generalize body.start (d.onBuffer (·.beginGroup label)) = result at hcalls ⊢
    obtain ⟨outcome, d'⟩ := result
    obtain rfl : d' = calls.foldl call (d.onBuffer (·.beginGroup label)) := hcalls
    -- The calls of the body stand between the two ends of the transaction.
    have hbetween : ∀ last : Call, (.enter label :: calls ++ [last]).foldl call d =
        (calls.foldl call (d.onBuffer (·.beginGroup label))).call last := by
      intro last
      rw [List.cons_append, List.foldl_cons, henter, List.foldl_append]
      rfl
    cases outcome with
    | ok =>
      refine ⟨.enter label :: calls ++ [.leave], ?_⟩
      rw [hbetween]
      rfl
    | error fault =>
      refine ⟨.enter label :: calls ++ [.abandon fault.reported], ?_⟩
      rw [hbetween]
      rfl

theorem exists_calls_routine (routine : Routine) (d : Desk) :
    ∃ calls : List Call, (routine.step.start d).2 = calls.foldl call d := by
  induction routine generalizing d with
  | done | raise => exact ⟨[], rfl⟩
  | rehost host next ih =>
    obtain ⟨calls, hcalls⟩ := ih { d with host }
    exact ⟨.rehost host :: calls, hcalls⟩
  | perform command next ih =>
    obtain ⟨calls, hcalls⟩ := ih (d.perform command).2
    rw [start_perform]
    exact ⟨.perform command :: calls, hcalls⟩
  | transaction label body next ihbody ihnext =>
    obtain ⟨first, hfirst⟩ := exists_calls_transaction label ihbody d
    obtain ⟨second, hsecond⟩ := ihnext ((transaction label body.step).start d).2
    rw [start_nested]
    refine ⟨first ++ second, ?_⟩
    rw [hsecond, hfirst, List.foldl_append]

/-- Every operation is a list of calls. -/
theorem exists_calls_operate (operation : Operation) (d : Desk) :
    ∃ calls : List Call, d.operate operation = calls.foldl call d := by
  cases operation with
  | rehost host => exact ⟨[.rehost host], rfl⟩
  | perform command => exact ⟨[.perform command], operate_perform d command⟩
  | transaction label body => exact exists_calls_transaction label (exists_calls_routine body) d

/-! ## Which calls reconcile -/

/-- Whether the layout of the screen has an answer for a point. -/
def hits (d : Desk) (x y : Float) : Bool :=
  (d.host.layout.hit d.buffer.viewText x y d.buffer.viewport.columnOffset).1.isOk

/-- Whether the clipboard holds a text to insert. -/
def pastes (d : Desk) : Bool :=
  match d.host.clipboard.bind Clipboard.content with
  | none | some [] => false
  | some bytes =>
    match Utf8.decode bytes with
    | .error _ => false
    | .ok t => !t.isEmpty

/-- Whether the command comes to `reconcile`, unlike a scroll, a copy, the release of the button
and whatever finds nothing to do. -/
def reconciles (d : Desk) : Command → Bool
  | .scrollUp _ | .scrollDown _ | .scrollLeft _ | .scrollRight _ | .copy | .release => false
  | .insertText t | .insertTyped t => !t.isEmpty
  | .paste => d.pastes
  | .undo => d.buffer.undo.2
  | .redo => d.buffer.redo.2
  | .click x y _ | .doubleClick x y => d.hits x y
  | .drag x y => d.buffer.selecting && d.hits x y
  | _ => true

theorem settled_withHit {d : Desk} {x y : Float} (hhits : d.hits x y = true)
    {f : Hit → Buffer → Buffer} (hf : ∀ hit, (f hit d.buffer).Settled) :
    (d.withHit x y f).2.buffer.Settled := by
  simp only [hits] at hhits
  simp only [withHit]
  split
  · next fault hfault =>
    rw [hfault] at hhits
    cases hhits
  · exact hf _

theorem buffer_withHit {d : Desk} {x y : Float} (hhits : d.hits x y = false)
    (f : Hit → Buffer → Buffer) : (d.withHit x y f).2.buffer = d.buffer := by
  simp only [hits] at hhits
  simp only [withHit]
  split
  · rfl
  · next hit hhit =>
    rw [hhit] at hhits
    cases hhits

theorem viewport_putOnClipboard (d : Desk) (t : Text) :
    (d.putOnClipboard t).buffer.viewport = d.buffer.viewport := by
  unfold putOnClipboard
  split
  · rfl
  · split
    · rfl
    · split <;> rfl

theorem kept_putOnClipboard {d : Desk} (h : d.buffer.Kept) (t : Text) :
    (d.putOnClipboard t).buffer.Kept :=
  h.of_eq (quiet_putOnClipboard d t).document (viewport_putOnClipboard d t)
    (caret_putOnClipboard d t)

theorem settled_paste {d : Desk} (h : d.buffer.Kept) (hpastes : d.pastes = true) :
    d.paste.buffer.Settled := by
  cases hcontent : d.host.clipboard.bind Clipboard.content with
  | none => simp [pastes, hcontent] at hpastes
  | some bytes =>
    cases bytes with
    | nil => simp [pastes, hcontent] at hpastes
    | cons first rest =>
      cases ht : Utf8.decode (first :: rest) with
      | error defect => simp [pastes, hcontent, ht] at hpastes
      | ok t =>
        have hne : t.isEmpty = false := by simpa [pastes, hcontent, ht] using hpastes
        simp only [paste, hcontent, onBuffer, ht]
        exact Buffer.settled_insertPasted h hne

/-- A command that comes to `reconcile` settles the buffer. -/
theorem settled_perform {d : Desk} (h : d.buffer.Kept) {command : Command}
    (hreconciles : d.reconciles command = true) : (d.perform command).2.buffer.Settled := by
  cases command with
  | scrollUp | scrollDown | scrollLeft | scrollRight | copy | release => cases hreconciles
  | move motion count extending => exact Buffer.settled_move h motion count extending
  | page motion extending => exact Buffer.settled_move h motion _ extending
  | insertText t =>
    exact Buffer.settled_insertText h.toSound (by simpa [reconciles] using hreconciles)
  | insertTyped t => exact Buffer.settled_insertTyped h (by simpa [reconciles] using hreconciles)
  | insertNewline => exact Buffer.settled_insertNewline h.toSound
  | deleteLeft => exact Buffer.settled_deleteLeft h
  | deleteRight => exact Buffer.settled_deleteRight h
  | deleteWordLeft | deleteWordRight => exact Buffer.settled_deleteWord h _ _
  | deleteSelection => exact Buffer.settled_deleteSelection h
  | cut => exact Buffer.settled_removeCopied (kept_putOnClipboard h _)
  | paste => exact settled_paste h hreconciles
  | undo => exact Buffer.settled_undo h hreconciles
  | redo => exact Buffer.settled_redo h hreconciles
  | click x y extending =>
    exact settled_withHit hreconciles (f := fun hit b => b.click hit extending) fun hit =>
      Buffer.settled_click h hit extending
  | doubleClick x y =>
    exact settled_withHit hreconciles (f := fun hit b => b.selectRun hit) fun hit =>
      Buffer.settled_selectRun h hit
  | drag x y =>
    obtain ⟨hselecting, hhits⟩ := Bool.and_eq_true_iff.1 hreconciles
    simp only [perform, if_pos hselecting]
    exact settled_withHit hhits (f := fun hit b => b.drag hit) fun hit =>
      Buffer.settled_drag h hselecting hit
  | resize rows columns => exact Buffer.settled_resize h rows columns
  | reconcile => exact Buffer.settled_reconcile h.toSound h.inside.landed

/-- Neither text, view nor caret were changed. -/
def Still (d d' : Desk) : Prop :=
  d'.buffer.document = d.buffer.document ∧ d'.buffer.viewport = d.buffer.viewport ∧
    d'.buffer.caret = d.buffer.caret

theorem still_of_buffer {d d' : Desk} (h : d'.buffer = d.buffer) : d.Still d' := by
  rw [Still, h]
  exact ⟨rfl, rfl, rfl⟩

theorem still_putOnClipboard (d : Desk) (t : Text) : d.Still (d.putOnClipboard t) :=
  ⟨(quiet_putOnClipboard d t).document, viewport_putOnClipboard d t, caret_putOnClipboard d t⟩

theorem still_paste {d : Desk} (hpastes : d.pastes = false) : d.Still d.paste := by
  cases hcontent : d.host.clipboard.bind Clipboard.content with
  | none => exact still_of_buffer (by simp only [paste, hcontent])
  | some bytes =>
    cases bytes with
    | nil => exact still_of_buffer (by simp only [paste, hcontent])
    | cons first rest =>
      cases ht : Utf8.decode (first :: rest) with
      | error defect =>
        simp only [paste, hcontent, onBuffer, ht]
        exact ⟨rfl, rfl, rfl⟩
      | ok t =>
        have hempty : t.isEmpty = true := by simpa [pastes, hcontent, ht] using hpastes
        have hsame : ∀ b : Buffer, b.insertText t = b := by
          intro b
          rw [Buffer.insertText, if_pos hempty]
        simp only [paste, hcontent, onBuffer, ht, Buffer.insertPasted, Buffer.grouped, hsame]
        split
        · exact ⟨rfl, rfl, rfl⟩
        · exact ⟨rfl, rfl, rfl⟩

/-- A command that finds nothing to do leaves text, view and caret alone. -/
theorem still_perform {d : Desk} {command : Command} (hreconciles : d.reconciles command = false)
    (hscroll : command.isScroll = false) : d.Still (d.perform command).2 := by
  cases command with
  | scrollUp | scrollDown | scrollLeft | scrollRight => cases hscroll
  | copy => exact still_putOnClipboard d _
  | release => exact ⟨rfl, rfl, rfl⟩
  | insertText t =>
    have hempty : t.isEmpty = true := by simpa [reconciles] using hreconciles
    apply still_of_buffer
    simp only [perform, onBuffer, Buffer.insertText, if_pos hempty]
  | insertTyped t =>
    have hempty : t.isEmpty = true := by simpa [reconciles] using hreconciles
    apply still_of_buffer
    simp only [perform, onBuffer, Buffer.insertTyped, if_pos hempty]
  | paste => exact still_paste hreconciles
  | undo =>
    cases hentry : d.buffer.timeline.undo? with
    | none => exact still_of_buffer (by simp only [perform, Buffer.undo, hentry])
    | some next => simp [reconciles, Buffer.undo, hentry] at hreconciles
  | redo =>
    cases hentry : d.buffer.timeline.redo? with
    | none => exact still_of_buffer (by simp only [perform, Buffer.redo, hentry])
    | some next => simp [reconciles, Buffer.redo, hentry] at hreconciles
  | click x y extending => exact still_of_buffer (buffer_withHit hreconciles _)
  | doubleClick x y => exact still_of_buffer (buffer_withHit hreconciles _)
  | drag x y =>
    apply still_of_buffer
    simp only [perform]
    split
    · next hselecting =>
      exact buffer_withHit (by simpa [reconciles, hselecting] using hreconciles) _
    · rfl
  | _ => cases hreconciles

theorem kept_perform {d : Desk} (h : d.buffer.Kept) (command : Command) :
    (d.perform command).2.buffer.Kept := by
  cases hreconciles : d.reconciles command with
  | true => exact (settled_perform h hreconciles).toKept
  | false =>
    cases hscroll : command.isScroll with
    | false =>
      obtain ⟨hdocument, hviewport, hcaret⟩ := still_perform hreconciles hscroll
      exact h.of_eq hdocument hviewport hcaret
    | true =>
      cases command with
      | scrollUp lines | scrollDown lines => exact Buffer.kept_scrollToLine h _
      | scrollLeft columns | scrollRight columns =>
        exact Buffer.kept_scrollToColumn h (Int.le_max_left 0 _)
      | _ => cases hscroll

theorem kept_call {d : Desk} (h : d.buffer.Kept) (c : Call) : (d.call c).buffer.Kept := by
  cases c with
  | perform command => exact kept_perform h command
  | rehost host => exact h
  | enter label =>
    simp only [call, onBuffer]
    split
    · exact h
    · exact h.of_eq rfl rfl rfl
  | leave =>
    exact h.of_eq (Buffer.rests_endGroup _).document (Buffer.viewport_endGroup _)
      (Buffer.caret_endGroup _)
  | abandon reason =>
    exact h.of_eq (Buffer.rests_abandonGroup _ _).document (Buffer.viewport_abandonGroup _ _)
      (Buffer.caret_abandonGroup _ _)
  | follow | unfollow | drain => exact h.of_eq rfl rfl rfl

theorem kept_foldl_call {d : Desk} (h : d.buffer.Kept) (calls : List Call) :
    (calls.foldl call d).buffer.Kept := by
  induction calls generalizing d with
  | nil => exact h
  | cons c rest ih => exact ih (kept_call h c)

/-! ## The view after a run -/

/-- However a buffer was made and whatever was called, the view is framed and anchor and caret are
offsets of the document.  The view shows the line of the caret from the start and after every
command that comes to `reconcile`; any other that is no scroll leaves text, view and caret alone. -/
theorem shows_of_calls (path : String) (t : Text) (rows columns : Int) (settings : Settings)
    (host : Host) (calls : List Call) :
    (Buffer.create path t rows columns settings).Shows ∧
      let d := calls.foldl call ⟨Buffer.create path t rows columns settings, host⟩
      d.buffer.Kept ∧ ∀ command : Command,
        if d.reconciles command then (d.perform command).2.buffer.Shows
        else command.isScroll = true ∨ d.Still (d.perform command).2 := by
  have hcreate := Buffer.settled_create path t rows columns settings
  refine ⟨hcreate.shows, ?_⟩
  intro d
  have hkept : d.buffer.Kept := kept_foldl_call (d := ⟨_, host⟩) hcreate.toKept calls
  refine ⟨hkept, ?_⟩
  intro command
  split
  · next hreconciles => exact (settled_perform hkept hreconciles).shows
  · next hreconciles =>
    cases hscroll : command.isScroll with
    | true => exact .inl rfl
    | false => exact .inr (still_perform (Bool.eq_false_of_not_eq_true hreconciles) hscroll)

/-- After every command that comes to `reconcile` the caret stands in a column that is left beside
the narrowest margin of the document, that of a view from its first line.  Beside the margin of the
view itself it stands only after the buffer was reconciled once more. -/
theorem reaches_of_calls (path : String) (t : Text) (rows columns : Int) (settings : Settings)
    (host : Host) (calls : List Call) (command : Command) :
    let d := calls.foldl call ⟨Buffer.create path t rows columns settings, host⟩
    let b := (d.perform command).2.buffer
    d.reconciles command = true →
      b.Reaches (b.marginAt 0) ∧ b.reconcile.Reaches b.reconcile.viewport.marginWidth := by
  intro d b hreconciles
  have hcreate := Buffer.settled_create path t rows columns settings
  have hkept : d.buffer.Kept := kept_foldl_call (d := ⟨_, host⟩) hcreate.toKept calls
  have hsettled : b.Settled := settled_perform hkept hreconciles
  obtain ⟨line, hline, -, hreaches⟩ := hsettled.reaches
  exact ⟨hreaches.mono (b.marginAt_le hline),
    Buffer.reaches_reconcile hsettled.toKept hsettled.shows⟩

/-- An empty buffer with a view of one row and five columns. -/
def narrow : Desk :=
  ⟨Buffer.create "" [] 1 5 .usual, {}⟩

/-- Nine empty lines, and a tenth of three characters. -/
def tenLines : Command :=
  .insertText "\n\n\n\n\n\n\n\n\nxyz".toList

theorem reaches_of_tenLines :
    narrow.reconciles tenLines = true ∧
      let b := (narrow.perform tenLines).2.buffer
      b.Reaches (b.marginAt 0) ∧ b.reconcile.Reaches b.reconcile.viewport.marginWidth := by
  have hreconciles : narrow.reconciles tenLines = true := by decide +kernel
  exact ⟨hreconciles, reaches_of_calls "" [] 1 5 .usual {} [] tenLines hreconciles⟩

/-- The view is scrolled to the last column beside a margin of two, and then gets a margin of
three. -/
theorem tenLines_hide_caret :
    narrow.reconciles tenLines = true ∧
      let b := (narrow.perform tenLines).2.buffer
      b.viewport.marginWidth = 3 ∧ b.Reaches 2 ∧ ¬ b.Reaches b.viewport.marginWidth := by
  unfold Buffer.Reaches
  decide +kernel

end Desk
end TextEditor
