import TextEditor.Proofs.Buffer.Follower
import TextEditor.Proofs.Document.Receiver
import TextEditor.Server.Message

/-!
# What a receiver makes of the changes

A receiver starts from a text of the buffer and applies the changes that are built from the queued
deltas, one after the other, looking up their ends by its own lines.  It holds the text of the
buffer as long as it knows all line breaks before the ends and no end is inside a pair; the editor
heeds neither, and a receiver can be led astray by a break it does not know and by taking back a
line feed that was typed behind a carriage return.
-/

namespace TextEditor

namespace Receiver

open Server Text

/-- The line and the column of a position in a message. -/
def position? (j : Json) : Option Position :=
  match j.field? "line", j.field? "character" with
  | some (.int line), some (.int character) => some ⟨line, character⟩
  | _, _ => none

/-- The text after a change, of a range if it names one. -/
def change? (e : Encoding) (t : Text) (change : Json) : Option Text :=
  match change.field? "text", change.field? "range" with
  | some (.str (.whole new)), none => some new.toList
  | some (.str (.whole new)), some range =>
    match (range.field? "start").bind position?, (range.field? "end").bind position? with
    | some start, some stop => some (t.take (offset e start t) ++ new.toList ++
        t.drop (offset e stop t))
    | _, _ => none
  | _, _ => none

/-- The text after changes of which each applies to the result of the one before. -/
def receive (e : Encoding) (t : Text) (changes : List Json) : Option Text :=
  changes.foldlM (change? e) t

theorem change?_rangeChange (e : Encoding) (t : Text) (delta : Delta) :
    change? e t (Message.rangeChange delta e) =
      some (t.take (offset e (delta.range e).1 t) ++ delta.text ++
        t.drop (offset e (delta.range e).2 t)) := by
  rw [Message.rangeChange]
  generalize delta.range e = range
  obtain ⟨start, stop⟩ := range
  change some (t.take (offset e start t) ++ (String.ofList delta.text).toList ++
    t.drop (offset e stop t)) = _
  rw [String.toList_ofList]

/-- The offset in a text that a position stands for by its own lines. -/
def place (e : Encoding) (t : Text) (p : Position) : Nat :=
  (Document.ofText t).clamp ((Document.ofText t).offsetAt e p)

/-- A receiver knows all the breaks before the ends of the range of a delta, and none of the ends is
inside a pair. -/
def Clear (e : Encoding) (t : Text) (delta : Delta) : Prop :=
  let start := place e t (delta.range e).1
  let stop := place e t (delta.range e).2
  Plain (t.take stop) ∧ ¬ CutsPair (t.take start) (t.drop start) ∧
    ¬ CutsPair (t.take stop) (t.drop stop)

instance (e : Encoding) (t : Text) (delta : Delta) : Decidable (Clear e t delta) :=
  inferInstanceAs (Decidable (_ ∧ _ ∧ _))

/-- Deltas are clear, each in the text before it. -/
def AllClear (e : Encoding) : Text → List Delta → Prop
  | _, [] => True
  | t, delta :: rest => Clear e t delta ∧ AllClear e (delta.applyTo e t) rest

instance decidableAllClear (e : Encoding) : (t : Text) → (deltas : List Delta) →
    Decidable (AllClear e t deltas)
  | _, [] => inferInstanceAs (Decidable True)
  | t, delta :: rest =>
    have := decidableAllClear e (delta.applyTo e t) rest
    inferInstanceAs (Decidable (_ ∧ _))

/-- A receiver does with clear deltas what they do to the text. -/
theorem receive_of_traces {e : Encoding} {deltas : List Delta} {t u : Text}
    (htraces : Delta.Traces t deltas u) (hclear : AllClear e t deltas) :
    receive e t (deltas.map (Message.rangeChange · e)) = some u := by
  induction htraces with
  | nil t => rfl
  | @cons t u delta rest start stop hle hrange _ ih =>
    obtain ⟨⟨hplain, hstart, hstop⟩, hrest⟩ := hclear
    have hindexed := Document.indexed_ofText t
    have hplace : ∀ o, place e t ((Document.ofText t).positionIn e o) =
        (Document.ofText t).clamp o :=
      Document.clamp_offsetAt_positionIn hindexed e
    rw [hrange, hplace] at hplain hstart hstop
    have hbefore : (Document.ofText t).clamp start ≤ (Document.ofText t).clamp stop := by
      simp only [Document.clamp]
      omega
    have hfirst : offset e ((Document.ofText t).positionIn e start) t = _ :=
      offset_positionIn hindexed e
        (hplain.mono (List.take_prefix_take_left hbefore).subset) hstart
    have hlast : offset e ((Document.ofText t).positionIn e stop) t = _ :=
      offset_positionIn hindexed e hplain hstop
    rw [List.map_cons, receive, List.foldlM_cons, change?_rangeChange, hrange]
    dsimp only
    rw [hfirst, hlast]
    rw [Delta.applyTo_of_range (hrange e)] at hrest
    exact ih hrest

end Receiver

namespace Desk

open Receiver Server

/-- A receiver that has the text of a followed buffer, and then the changes built from the deltas
that the buffer queued after any operations, holds the text of the buffer, if each delta is clear
in the text it applies to. -/
theorem receive_drainChanges (path : String) (t : Text) (rows columns : Int) (settings : Settings)
    (host : Host) (events : List Event) (operations : List Operation) (e : Encoding) :
    let before := events.foldl pass ⟨Buffer.create path t rows columns settings, host⟩
    let drained := (operations.foldl operate before).buffer.drainChanges
    before.buffer.tracking = true → before.buffer.changes = [] →
      AllClear e before.buffer.text drained.1 →
      receive e before.buffer.text (drained.1.map (Message.rangeChange · e)) =
        some drained.2.text := by
  intro before drained htracking hchanges hclear
  have hindexed : before.buffer.document.Indexed :=
    indexed_foldl_pass (indexed_create path t rows columns settings) events
  obtain ⟨deltas, hdeltas, htraces⟩ := (relays_foldl_operate operations before).traced
  rw [hchanges, List.nil_append] at hdeltas
  obtain rfl : drained.1 = deltas := hdeltas
  exact receive_of_traces (htraces hindexed htracking) hclear

/-- Behind a pair and an astral character, with columns in units: typing, and taking it back. -/
theorem receive_drainChanges_pair :
    let before := [Event.follow].foldl pass
      ⟨Buffer.create "a.txt" ['a', '\r', '\n', '😀'] 24 80 {}, {}⟩
    let drained := ([.perform (.move .right 3 false), .perform (.insertText ['\n', 'b']),
      .perform .undo].foldl operate before).buffer.drainChanges
    (before.buffer.tracking = true ∧ before.buffer.changes = [] ∧
      AllClear .utf16 before.buffer.text drained.1) ∧
      receive .utf16 before.buffer.text (drained.1.map (Message.rangeChange · .utf16)) =
        some drained.2.text := by
  refine ⟨⟨?_, ?_, ?_⟩, receive_drainChanges "a.txt" ['a', '\r', '\n', '😀'] 24 80 {} {} [.follow]
    [.perform (.move .right 3 false), .perform (.insertText ['\n', 'b']), .perform .undo] .utf16
    ?_ ?_ ?_⟩ <;> decide +kernel

/-- A receiver is led astray where the buffer breaks a line at a line separator, and where a line
feed typed behind a carriage return is taken back. -/
theorem receive_astray :
    (let before := [Event.follow].foldl pass
      ⟨Buffer.create "a.rs" ['a', '\u2028', 'b', '\n', 'c'] 5 40 {}, {}⟩
    let drained := ([.perform (.move .right 2 false), .perform (.insertText ['X'])].foldl
      operate before).buffer.drainChanges
    before.buffer.tracking = true ∧ before.buffer.changes = [] ∧
      drained.2.text = ['a', '\u2028', 'X', 'b', '\n', 'c'] ∧
      receive .utf16 before.buffer.text (drained.1.map (Message.rangeChange · .utf16)) =
        some ['a', '\u2028', 'b', '\n', 'X', 'c']) ∧
    (let before := [Event.follow].foldl pass
      ⟨Buffer.create "a.rs" ['a', '\r'] 5 40 {}, {}⟩
    let drained := ([.perform (.move .right 2 false), .perform (.insertText ['\n']),
      .perform .undo].foldl operate before).buffer.drainChanges
    before.buffer.tracking = true ∧ before.buffer.changes = [] ∧
      drained.2.text = ['a', '\r'] ∧
      receive .utf16 before.buffer.text (drained.1.map (Message.rangeChange · .utf16)) =
        some ['a']) := by
  decide +kernel

end Desk

end TextEditor
