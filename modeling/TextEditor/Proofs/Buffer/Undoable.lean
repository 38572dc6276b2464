import TextEditor.Buffer.Command
import TextEditor.Proofs.Buffer.Splice

/-!
# Operations that can be taken back

Every operation on a buffer other than undo and redo can be taken back: the splices that it made
are written down as edits, in order and with the characters that they removed.  Inside a group they
are added to the group; otherwise they become one undo step, with the caret as it was before the
operation, and an operation without splices leaves the history alone.
-/

namespace TextEditor

/-- The group with more edits. -/
def Grouping.add (group : Grouping) (edits : List Edit) : Grouping :=
  { group with edits := group.edits ++ edits }

namespace Buffer

/-- Nothing happened to the text, and a follower has heard nothing. -/
structure Rests (b b' : Buffer) : Prop where
  path : b'.path = b.path
  profile : b'.profile = b.profile
  settings : b'.settings = b.settings
  document : b'.document = b.document
  changes : b'.changes = b.changes
  tracking : b'.tracking = b.tracking

/-- Nothing happened but to caret, view and reports. -/
structure Quiet (b b' : Buffer) : Prop extends Rests b b' where
  timeline : b'.timeline = b.timeline
  grouping : b'.grouping = b.grouping

/-- The edits that were made between two states of a buffer, beside what a follower hears. -/
structure Amends (edits : List Edit) (b b' : Buffer) : Prop extends Relays b b' where
  leads : Edit.Leads edits b.text b'.text
  version : b.document.version + edits.length ≤ b'.document.version
  rests : edits = [] → b'.document = b.document

/-- The edits that were made are those that were written down: in the group that is going on, or as
one undo step with the caret before it. -/
def Undoable (b b' : Buffer) : Prop :=
  ∃ edits, Amends edits b b' ∧
    match b.grouping with
    | some group => b'.timeline = b.timeline ∧ b'.grouping = some (group.add edits)
    | none =>
      b'.grouping = none ∧
        if edits.isEmpty then b'.timeline = b.timeline
        else
          ∃ label caretAfter, b'.timeline =
            b.timeline.push ⟨label, edits, b.caret.absolute, b.caret.anchor, caretAfter⟩

variable {a b c : Buffer}

/-! ## Putting steps together -/

theorem Rests.relays (h : b.Rests c) : b.Relays c := by
  refine ⟨h.path, h.profile, h.settings, h.tracking, fun hindexed => h.document ▸ hindexed,
    ⟨[], by simp [h.changes], fun _ _ => ?_⟩, fun _ => h.changes⟩
  rw [text, text, h.document]
  exact .nil _

theorem Rests.amends (h : b.Rests c) : Amends [] b c where
  toRelays := h.relays
  leads := congrArg Document.text h.document
  version := by simp [h.document]
  rests := fun _ => h.document

theorem Amends.trans {first second : List Edit} (hab : Amends first a b)
    (hbc : Amends second b c) : Amends (first ++ second) a c where
  toRelays := hab.toRelays.trans hbc.toRelays
  leads := hab.leads.append hbc.leads
  version := by
    have := hab.version
    have := hbc.version
    rw [List.length_append]
    omega
  rests := fun h => by
    obtain ⟨hfirst, hsecond⟩ := List.append_eq_nil_iff.1 h
    rw [hbc.rests hsecond, hab.rests hfirst]

/-- The version of the document tells whether there were edits. -/
theorem Amends.version_eq_iff {edits : List Edit} (h : Amends edits b c) :
    c.document.version = b.document.version ↔ edits = [] := by
  constructor
  · intro hversion
    have := h.version
    exact List.eq_nil_of_length_eq_zero (by omega)
  · intro hnil
    rw [h.rests hnil]

theorem Quiet.refl (b : Buffer) : b.Quiet b := by
  constructor
  · constructor <;> rfl
  · rfl
  · rfl

theorem Quiet.trans (hab : a.Quiet b) (hbc : b.Quiet c) : a.Quiet c where
  path := hbc.path.trans hab.path
  profile := hbc.profile.trans hab.profile
  settings := hbc.settings.trans hab.settings
  document := hbc.document.trans hab.document
  changes := hbc.changes.trans hab.changes
  tracking := hbc.tracking.trans hab.tracking
  timeline := hbc.timeline.trans hab.timeline
  grouping := hbc.grouping.trans hab.grouping

theorem Quiet.undoable (h : b.Quiet c) : b.Undoable c := by
  refine ⟨[], h.toRests.amends, ?_⟩
  cases hgroup : b.grouping with
  | none => exact ⟨h.grouping.trans hgroup, by simpa using h.timeline⟩
  | some group => exact ⟨h.timeline, by simp [h.grouping, hgroup, Grouping.add]⟩

theorem Undoable.quiet (hab : a.Undoable b) (hbc : b.Quiet c) : a.Undoable c := by
  obtain ⟨edits, hedits, hwritten⟩ := hab
  refine ⟨edits, by simpa using hedits.trans hbc.toRests.amends, ?_⟩
  rwa [hbc.timeline, hbc.grouping]

/-- A step that leaves the caret alone may come first. -/
theorem Quiet.undoable_trans (hab : a.Quiet b) (hcaret : b.caret = a.caret)
    (hbc : b.Undoable c) : a.Undoable c := by
  obtain ⟨edits, hedits, hwritten⟩ := hbc
  refine ⟨edits, hab.toRests.amends.trans hedits, ?_⟩
  rwa [hab.timeline, hab.grouping, hcaret] at hwritten

/-- A group goes on until it is ended. -/
theorem Undoable.isSome_grouping (h : a.Undoable b) (hgroup : a.grouping.isSome) :
    b.grouping.isSome := by
  obtain ⟨edits, -, hwritten⟩ := h
  obtain ⟨group, hgroup⟩ := Option.isSome_iff_exists.1 hgroup
  rw [hgroup] at hwritten
  rw [hwritten.2]
  rfl

/-- Inside a group operations follow each other. -/
theorem Undoable.trans (hgroup : a.grouping.isSome) (hab : a.Undoable b) (hbc : b.Undoable c) :
    a.Undoable c := by
  obtain ⟨group, hgroup⟩ := Option.isSome_iff_exists.1 hgroup
  obtain ⟨first, hfirst, hwritten⟩ := hab
  obtain ⟨second, hsecond, hwritten'⟩ := hbc
  rw [hgroup] at hwritten
  rw [hwritten.2] at hwritten'
  refine ⟨first ++ second, hfirst.trans hsecond, ?_⟩
  rw [hgroup]
  exact ⟨hwritten'.1.trans hwritten.1, by rw [hwritten'.2]; simp [Grouping.add]⟩

theorem rests_beginGroup (b : Buffer) (label : String) : b.Rests (b.beginGroup label) := by
  constructor <;> rfl

theorem rests_endGroup (b : Buffer) : b.Rests b.endGroup := by
  unfold endGroup
  split
  · exact (Quiet.refl b).toRests
  · constructor <;> rfl

theorem rests_abandonGroup (b : Buffer) (reason : String) : b.Rests (b.abandonGroup reason) := by
  unfold abandonGroup
  split
  · exact (Quiet.refl b).toRests
  · constructor <;> rfl

/-- An operation whose edits a group takes up can be taken back when it is done as a group of its
own. -/
theorem undoable_grouped (b : Buffer) (label : String) {operation : Buffer → Buffer}
    (h : ∀ c, b.Rests c → c.grouping.isSome → c.Undoable (operation c)) :
    b.Undoable (b.grouped label operation) := by
  unfold grouped
  cases hgroup : b.grouping with
  | some group =>
    exact h b (Quiet.refl b).toRests (by rw [hgroup]; rfl)
  | none =>
    have hbegin := rests_beginGroup b label
    obtain ⟨edits, hedits, hwritten⟩ := h _ hbegin rfl
    simp only [beginGroup] at hwritten
    obtain ⟨htimeline, hgrouping⟩ := hwritten
    have hend := rests_endGroup (operation (b.beginGroup label))
    refine ⟨edits, by simpa using (hbegin.amends.trans hedits).trans hend.amends, ?_⟩
    rw [hgroup]
    simp only [endGroup, beginGroup, hgrouping, Grouping.add, List.nil_append, htimeline]
    refine ⟨trivial, ?_⟩
    split
    · rfl
    · exact ⟨_, _, rfl⟩

/-! ## Replacing a range -/

theorem take_slice_drop (t : Text) {first last : Nat} (h : first ≤ last) :
    t.take first ++ Text.slice t first last ++ t.drop last = t := by
  rw [List.append_assoc, Text.slice_append_drop t h, List.take_append_drop]

/-- A splice within a group, written down with the characters that it removes. -/
theorem undoable_recordEdit {b : Buffer} (hgroup : b.grouping.isSome) {first last : Nat}
    (hle : first ≤ last) (hlast : last ≤ b.document.length) {new : Text} (label : String)
    (hedit : first ≠ last ∨ new.isEmpty = false) :
    b.Undoable
      ((b.splice first last new label).recordEdit ⟨first, Text.slice b.text first last, new⟩) := by
  obtain ⟨group, hgroup⟩ := Option.isSome_iff_exists.1 hgroup
  have hfirst : b.document.clamp first = first := Document.clamp_of_le (Nat.le_trans hle hlast)
  have hclamp : b.document.clamp last = last := Document.clamp_of_le hlast
  have htext := text_splice b (Int.ofNat_le.2 hle) new label
  rw [hfirst, hclamp] at htext
  let edit : Edit := ⟨first, Text.slice b.text first last, new⟩
  have hturns : edit.Turns b.text (b.splice first last new label).text :=
    ⟨b.text.take first, b.text.drop last, List.length_take_of_le (Nat.le_trans hle hlast),
      (take_slice_drop b.text hle).symm, htext⟩
  have hversion : b.document.version < (b.splice first last new label).document.version :=
    version_lt_splice b (by rwa [hfirst, hclamp])
  have hrelays := relays_splice b (Int.ofNat_le.2 hle) new label
  have hrests : (b.splice first last new label).Rests
      ((b.splice first last new label).recordEdit edit) := by constructor <;> rfl
  refine ⟨[edit], ?_, ?_⟩
  · exact {
      toRelays := hrelays.trans hrests.relays
      leads := Edit.leads_singleton hturns
      version := hversion
      rests := fun h => absurd h (List.cons_ne_nil _ _) }
  · simp [hgroup, recordEdit, splice, Grouping.add, edit]

theorem undoable_replaceRange (b : Buffer) (start stop : Int) (new : Text) (label : String) :
    b.Undoable (b.replaceRange start stop new label) := by
  simp only [replaceRange]
  split
  · exact (Quiet.refl b).undoable
  · next hedit =>
    refine undoable_grouped b label fun c hc hgroup => undoable_recordEdit hgroup ?_ ?_ label ?_
    · omega
    · have := b.document.clamp_le_length start
      have := b.document.clamp_le_length stop
      rw [hc.document]
      omega
    · simpa [Decidable.imp_iff_not_or] using hedit

end Buffer

end TextEditor
