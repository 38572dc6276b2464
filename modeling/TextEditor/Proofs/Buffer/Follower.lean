import TextEditor.Proofs.Buffer.Operation

/-!
# Following a buffer

Whoever follows a buffer knows its text at one moment and receives the deltas that were queued
since.  That is enough to know the text: each delta says which range of the text before it was
replaced, by positions that the follower looks up in its own copy.  The index of the buffer has to
be right for this, and it is, whatever happened to the buffer since it was opened.
-/

namespace TextEditor.Desk

/-- What happens to a buffer in its time. -/
inductive Event where
  | operate (operation : Operation)
  | follow
  | unfollow
  | drain

/-- Buffer and host after an event. -/
def pass (d : Desk) : Event → Desk
  | .operate operation => d.operate operation
  | .follow => d.onBuffer Buffer.track
  | .unfollow => d.onBuffer Buffer.untrack
  | .drain => d.onBuffer fun b => b.drainChanges.2

theorem indexed_create (path : String) (t : Text) (rows columns : Int) (settings : Settings) :
    (Buffer.create path t rows columns settings).document.Indexed :=
  (Buffer.quiet_reconcile _).toRests.relays.indexed (Document.indexed_ofText t)

theorem indexed_pass {d : Desk} (h : d.buffer.document.Indexed) (event : Event) :
    (d.pass event).buffer.document.Indexed := by
  cases event with
  | operate operation => exact (relays_operate d operation).indexed h
  | follow | unfollow | drain => exact h

theorem indexed_foldl_pass {d : Desk} (h : d.buffer.document.Indexed) (events : List Event) :
    (events.foldl pass d).buffer.document.Indexed := by
  induction events generalizing d with
  | nil => exact h
  | cons event rest ih => exact ih (indexed_pass h event)

theorem relays_foldl_operate (operations : List Operation) (d : Desk) :
    d.buffer.Relays (operations.foldl operate d).buffer := by
  induction operations generalizing d with
  | nil => exact Buffer.Relays.refl _
  | cons operation rest ih => exact (relays_operate d operation).trans (ih _)

/-- The deltas that a followed buffer has queued after any operations make of the text before these
the text after them, whichever way their columns are counted. -/
theorem replay_drainChanges (path : String) (t : Text) (rows columns : Int) (settings : Settings)
    (host : Host) (events : List Event) (operations : List Operation) (e : Encoding) :
    let before := events.foldl pass ⟨Buffer.create path t rows columns settings, host⟩
    let drained := (operations.foldl operate before).buffer.drainChanges
    before.buffer.tracking = true → before.buffer.changes = [] →
      Delta.replay e before.buffer.text drained.1 = drained.2.text := by
  intro before drained htracking hchanges
  have hindexed : before.buffer.document.Indexed :=
    indexed_foldl_pass (indexed_create path t rows columns settings) events
  obtain ⟨deltas, hdeltas, hreplay⟩ := (relays_foldl_operate operations before).changes
  rw [hchanges, List.nil_append] at hdeltas
  change Delta.replay e before.buffer.text (operations.foldl operate before).buffer.changes =
    (operations.foldl operate before).buffer.text
  rw [hdeltas]
  exact hreplay hindexed htracking e

/-- A typed character completes a pair behind an astral character, and undo takes it back. -/
theorem replay_drainChanges_pair :
    let before := [Event.follow].foldl pass
      ⟨Buffer.create "a.txt" ['😀', '\n'] 24 80 {}, {}⟩
    let drained := ([.perform (.move .right 1 false), .perform (.insertText ['\r']),
      .perform .undo].foldl operate before).buffer.drainChanges
    (before.buffer.tracking = true ∧ before.buffer.changes = []) ∧
      Delta.replay .utf16 before.buffer.text drained.1 = drained.2.text :=
  have htracking := rfl
  have hchanges := rfl
  ⟨⟨htracking, hchanges⟩,
    replay_drainChanges "a.txt" ['😀', '\n'] 24 80 {} {} [.follow]
      [.perform (.move .right 1 false), .perform (.insertText ['\r']), .perform .undo] .utf16
      htracking hchanges⟩

end TextEditor.Desk
