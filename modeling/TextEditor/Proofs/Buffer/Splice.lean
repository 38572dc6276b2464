import TextEditor.Buffer.Edit
import TextEditor.Proofs.Document.Position

/-!
# Splices

Every change of the text of a buffer is a splice.  A splice says of itself enough for two readers:
the edit that a group writes down leads from the text before to the text after and back, and the
delta that a follower receives does the same to a copy of the text.  What lies between two states
of a buffer is described by `Relays`, which concerns the follower, and `Amends`, which also names
the edits.
-/

namespace TextEditor

/-! ## Edits and deltas on a text -/

namespace Edit

/-- The edit takes the first text to the second. -/
def Turns (edit : Edit) (before after : Text) : Prop :=
  ∃ front back, front.length = edit.offset ∧ before = front ++ edit.removed ++ back ∧
    after = front ++ edit.inserted ++ back

/-- The edits, one after the other, take the first text to the second. -/
def Leads : List Edit → Text → Text → Prop
  | [], before, after => after = before
  | edit :: rest, before, after => ∃ middle, edit.Turns before middle ∧ Leads rest middle after

theorem Leads.append {first second : List Edit} {s t u : Text} (hfirst : Leads first s t)
    (hsecond : Leads second t u) : Leads (first ++ second) s u := by
  induction first generalizing s with
  | nil =>
    obtain rfl : t = s := hfirst
    exact hsecond
  | cons edit rest ih =>
    obtain ⟨middle, hturns, hrest⟩ := hfirst
    exact ⟨middle, hturns, ih hrest⟩

theorem leads_singleton {edit : Edit} {s t : Text} (h : edit.Turns s t) : Leads [edit] s t :=
  ⟨t, h, rfl⟩

end Edit

namespace Delta

/-- The text after a delta, the ends of whose range are looked up in the text before it. -/
def applyTo (e : Encoding) (t : Text) (delta : Delta) : Text :=
  let d := Document.ofText t
  let (start, stop) := delta.range e
  t.take (d.clamp (d.offsetAt e start)) ++ delta.text ++ t.drop (d.clamp (d.offsetAt e stop))

/-- The text after deltas of which each applies to the result of the one before. -/
def replay (e : Encoding) (t : Text) (deltas : List Delta) : Text :=
  deltas.foldl (applyTo e) t

theorem replay_append (e : Encoding) (t : Text) (first second : List Delta) :
    replay e t (first ++ second) = replay e (replay e t first) second :=
  List.foldl_append

/-- The deltas take the first text to the second: each replaces what lies between two offsets of the
text before it, and tells these by their positions there. -/
inductive Traces : Text → List Delta → Text → Prop
  | nil (t : Text) : Traces t [] t
  | cons {t u : Text} {delta : Delta} {rest : List Delta} {start stop : Int} (hle : start ≤ stop)
    (hrange : ∀ e, delta.range e =
      ((Document.ofText t).positionIn e start, (Document.ofText t).positionIn e stop))
    (hrest : Traces (t.take ((Document.ofText t).clamp start) ++ delta.text ++
      t.drop ((Document.ofText t).clamp stop)) rest u) : Traces t (delta :: rest) u

/-- A delta whose ends are the positions of two offsets replaces what lies between these. -/
theorem applyTo_of_range {t : Text} {e : Encoding} {delta : Delta} {start stop : Int}
    (hrange : delta.range e =
      ((Document.ofText t).positionIn e start, (Document.ofText t).positionIn e stop)) :
    delta.applyTo e t = t.take ((Document.ofText t).clamp start) ++ delta.text ++
      t.drop ((Document.ofText t).clamp stop) := by
  rw [applyTo, hrange]
  simp only [Document.clamp_offsetAt_positionIn (Document.indexed_ofText t)]

theorem Traces.append {first second : List Delta} {t u v : Text} (hfirst : Traces t first u)
    (hsecond : Traces u second v) : Traces t (first ++ second) v := by
  induction hfirst with
  | nil t => exact hsecond
  | cons hle hrange _ ih => exact .cons hle hrange (ih hsecond)

theorem Traces.replay {deltas : List Delta} {t u : Text} (h : Traces t deltas u) (e : Encoding) :
    replay e t deltas = u := by
  induction h with
  | nil t => rfl
  | cons hle hrange _ ih => rwa [Delta.replay, List.foldl_cons, applyTo_of_range (hrange e)]

end Delta

namespace Buffer

/-! ## One splice -/

theorem clamp_remove (d : Document) {start stop : Int} (h : start ≤ stop) :
    (d.remove start stop).clamp start = d.clamp start := by
  have hle : d.clamp start ≤ d.clamp stop := by
    simp only [Document.clamp]
    omega
  have hlast := d.clamp_le_length stop
  rw [Document.clamp, Document.length, Document.text_remove, Nat.min_eq_left hle,
    Nat.max_eq_right hle]
  simp only [Document.clamp, Document.length, List.length_append, List.length_take,
    List.length_drop] at *
  omega

theorem text_splice (b : Buffer) {start stop : Int} (h : start ≤ stop) (new : Text)
    (label : String) :
    (b.splice start stop new label).text =
      b.text.take (b.document.clamp start) ++ new ++ b.text.drop (b.document.clamp stop) := by
  have hle : b.document.clamp start ≤ b.document.clamp stop := by
    simp only [Document.clamp]
    omega
  have hlength : (b.text.take (b.document.clamp start)).length = b.document.clamp start :=
    List.length_take_of_le (b.document.clamp_le_length start)
  have htext : (b.splice start stop new label).text =
      ((b.document.remove start stop).insert start new).text := rfl
  rw [htext, Document.text_insert, clamp_remove _ h, Document.text_remove, Nat.min_eq_left hle,
    Nat.max_eq_right hle]
  change List.take _ (b.text.take _ ++ b.text.drop _) ++ new ++
    List.drop _ (b.text.take _ ++ b.text.drop _) = _
  rw [List.take_left' hlength, List.drop_left' hlength]

/-- Where the middle one of three parts of the text begins and ends. -/
theorem clamp_turns {b : Buffer} {front back old : Text} {start stop : Int}
    (hstart : start = front.length) (hstop : stop = start + old.length)
    (hbefore : b.text = front ++ old ++ back) :
    b.document.clamp start = front.length ∧ b.document.clamp stop = (front ++ old).length := by
  constructor
  · have hwhole : b.text = front ++ (old ++ back) := by rw [hbefore, List.append_assoc]
    rw [hstart]
    exact Document.clamp_length_left hwhole
  · have hend : stop = (front ++ old).length := by
      rw [hstop, hstart, List.length_append, Int.natCast_add]
    rw [hend]
    exact Document.clamp_length_left hbefore

/-- What stands between two parts of the text is replaced. -/
theorem text_splice_turns {b : Buffer} {front back old new : Text} {start stop : Int}
    (hstart : start = front.length) (hstop : stop = start + old.length) (label : String)
    (hbefore : b.text = front ++ old ++ back) :
    (b.splice start stop new label).text = front ++ new ++ back := by
  obtain ⟨hfirst, hlast⟩ := clamp_turns hstart hstop hbefore
  rw [text_splice b (by omega), hfirst, hlast, hbefore, List.drop_left, List.append_assoc front,
    List.take_left]

theorem version_remove (d : Document) (start stop : Int) :
    (d.remove start stop).version =
      d.version + if d.clamp start = d.clamp stop then 0 else 1 := by
  simp only [Document.remove]
  split
  · next h => rw [if_pos (by omega), Nat.add_zero]
  · next h =>
    rw [if_neg (by omega)]
    rfl

theorem version_insert (d : Document) (offset : Int) (new : Text) :
    (d.insert offset new).version = d.version + if new.isEmpty then 0 else 1 := by
  unfold Document.insert
  split <;> rfl

/-- A splice that replaces something, or by something, counts as an edit of the document. -/
theorem version_lt_splice (b : Buffer) {start stop : Int} {new : Text} {label : String}
    (h : b.document.clamp start ≠ b.document.clamp stop ∨ new.isEmpty = false) :
    b.document.version < (b.splice start stop new label).document.version := by
  have hversion : (b.splice start stop new label).document.version =
      ((b.document.remove start stop).insert start new).version := rfl
  rw [hversion, version_insert, version_remove]
  rcases h with h | h
  · rw [if_neg h]
    omega
  · rw [h, if_neg Bool.false_ne_true]
    omega

theorem indexed_splice {b : Buffer} (h : b.document.Indexed) (start stop : Int) (new : Text)
    (label : String) : (b.splice start stop new label).document.Indexed :=
  Document.indexed_insert (Document.indexed_remove h start stop) start new

/-! ## What a follower hears -/

/-- What happened between two states of a buffer leaves the index right and the settings alone, and
the changes that it queued, if the buffer is followed, take a copy of the text the same way; if it
is not followed, nothing is queued. -/
structure Relays (b b' : Buffer) : Prop where
  path : b'.path = b.path
  profile : b'.profile = b.profile
  settings : b'.settings = b.settings
  tracking : b'.tracking = b.tracking
  indexed : b.document.Indexed → b'.document.Indexed
  traced : ∃ deltas, b'.changes = b.changes ++ deltas ∧
    (b.document.Indexed → b.tracking = true → Delta.Traces b.text deltas b'.text)
  still : b.tracking = false → b'.changes = b.changes

namespace Relays

variable {a b c : Buffer}

theorem refl (b : Buffer) : b.Relays b :=
  ⟨rfl, rfl, rfl, rfl, id, ⟨[], by simp, fun _ _ => .nil _⟩, fun _ => rfl⟩

theorem trans (hab : a.Relays b) (hbc : b.Relays c) : a.Relays c := by
  obtain ⟨first, hfirst, htraces⟩ := hab.traced
  obtain ⟨second, hsecond, htraces'⟩ := hbc.traced
  refine ⟨hbc.path.trans hab.path, hbc.profile.trans hab.profile,
    hbc.settings.trans hab.settings, hbc.tracking.trans hab.tracking,
    hbc.indexed ∘ hab.indexed, ⟨first ++ second, ?_, ?_⟩, fun hquiet => ?_⟩
  · rw [hsecond, hfirst, List.append_assoc]
  · intro hindexed htracking
    exact (htraces hindexed htracking).append
      (htraces' (hab.indexed hindexed) (hab.tracking.trans htracking))
  · rw [hbc.still (hab.tracking.trans hquiet), hab.still hquiet]

/-- Whichever way columns are counted, the deltas lead from the text before to the text after. -/
theorem changes (h : a.Relays b) : ∃ deltas, b.changes = a.changes ++ deltas ∧
    (a.document.Indexed → a.tracking = true → ∀ e, Delta.replay e a.text deltas = b.text) := by
  obtain ⟨deltas, hdeltas, htraces⟩ := h.traced
  exact ⟨deltas, hdeltas, fun hindexed htracking => (htraces hindexed htracking).replay⟩

end Relays

/-- The delta of a splice, applied to the text before it, gives the text after it. -/
theorem relays_splice (b : Buffer) {start stop : Int} (h : start ≤ stop) (new : Text)
    (label : String) : b.Relays (b.splice start stop new label) := by
  refine ⟨rfl, rfl, rfl, rfl, fun hindexed => indexed_splice hindexed start stop new label, ?_,
    fun hquiet => by simp [splice, hquiet]⟩
  by_cases htracking : b.tracking = true
  · refine ⟨[_], if_pos htracking, fun hindexed _ => .cons h (fun e => ?_) ?_⟩
    · rw [text, Document.positionIn_ofText hindexed, Document.positionIn_ofText hindexed]
      cases e <;> rfl
    · rw [text_splice b h]
      exact .nil _
  · exact ⟨[], by simp [splice, htracking], fun _ h => absurd h htracking⟩

end Buffer

end TextEditor
