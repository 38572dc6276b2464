import TextEditor.Proofs.Buffer.Between
import TextEditor.Proofs.Bytes.Utf8
import TextEditor.Proofs.Document.Lines

/-!
# Cutting and pasting

A cut takes the selection, or the line of the caret with its break, and leaves the caret where that
began.  The clipboard holds the bytes of what was taken, so a paste that follows puts the same text
back in the same place.  What is taken and what is removed are computed one after the other, before
and within the group of edits, from the same text and the same caret.
-/

namespace TextEditor

namespace Buffer

variable {b : Buffer} {front back t : Text} {start stop : Int}

/-! ## What a copy takes -/

/-- The offsets between which a copy takes the text. -/
def copiedBounds (b : Buffer) : Int × Int :=
  b.caret.selection?.getD b.caretLineBounds

/-- The text is `t` between two others, and `t` is selected, or the line of the caret with its
break where nothing is selected. -/
structure Takes (b : Buffer) (front t back : Text) : Prop where
  text : b.text = front ++ t ++ back
  selection : ∀ start stop, b.caret.selection? = some (start, stop) →
    b.document.clamp start = front.length ∧ b.document.clamp stop = (front ++ t).length
  line : b.caret.selection? = none →
    front.length = b.document.lineStart b.caretLine ∧ t = b.document.line b.caretLine

theorem copiedBounds_le (h : b.document.Indexed) : b.copiedBounds.1 ≤ b.copiedBounds.2 := by
  unfold copiedBounds Caret.selection?
  split
  · simp only [Option.getD_some]
    omega
  · exact Int.ofNat_le.2 (Document.lineStart_mono h (by omega))

/-- The text falls into three where two offsets are. -/
theorem exists_split (b : Buffer) (h : start ≤ stop) :
    ∃ front back, b.text = front ++ b.document.slice start stop ++ back ∧
      b.document.clamp start = front.length ∧
      b.document.clamp stop = (front ++ b.document.slice start stop).length := by
  have hle : b.document.clamp start ≤ b.document.clamp stop := by
    simp only [Document.clamp]
    omega
  have hstop := b.document.clamp_le_length stop
  rw [length_document] at hstop
  have hslice : b.document.slice start stop =
      (b.text.drop (b.document.clamp start)).take
        (b.document.clamp stop - b.document.clamp start) := by
    rw [Document.slice, Nat.min_eq_left hle, Nat.max_eq_right hle]
    rfl
  have hfront : (b.text.take (b.document.clamp start)).length = b.document.clamp start :=
    List.length_take_of_le (by omega)
  refine ⟨b.text.take (b.document.clamp start), b.text.drop (b.document.clamp stop), ?_,
    hfront.symm, ?_⟩
  · have hback : b.text.drop (b.document.clamp stop) =
        (b.text.drop (b.document.clamp start)).drop
          (b.document.clamp stop - b.document.clamp start) := by
      rw [List.drop_drop, Nat.add_sub_cancel' hle]
    rw [hslice, hback, List.append_assoc, List.take_append_drop, List.take_append_drop]
  · rw [List.length_append, hfront, hslice, List.length_take, List.length_drop]
    omega

theorem takes_copiedText (h : b.document.Indexed) :
    ∃ front back, b.Takes front b.copiedText back ∧
      b.document.clamp b.copiedBounds.1 = front.length ∧
      b.document.clamp b.copiedBounds.2 = (front ++ b.copiedText).length := by
  have hcopied : b.copiedText = b.document.slice b.copiedBounds.1 b.copiedBounds.2 := rfl
  obtain ⟨front, back, htext, hstart, hstop⟩ := b.exists_split (copiedBounds_le h)
  rw [← hcopied] at htext hstop
  refine ⟨front, back, ⟨htext, fun start stop hselection => ?_, fun hselection => ?_⟩, hstart,
    hstop⟩
  · have hbounds : b.copiedBounds = (start, stop) := by rw [copiedBounds, hselection]; rfl
    rw [hbounds] at hstart hstop
    exact ⟨hstart, hstop⟩
  · have hbounds : b.copiedBounds = b.caretLineBounds := by rw [copiedBounds, hselection]; rfl
    have hmono : b.document.lineStart b.caretLine ≤ b.document.lineStart (b.caretLine + 1) :=
      Document.lineStart_mono h (by omega)
    have hfirst := Document.clamp_of_le (Document.lineStart_le_length h b.caretLine)
    have hlast := Document.clamp_of_le (Document.lineStart_le_length h (b.caretLine + 1))
    constructor
    · rw [hbounds] at hstart
      exact hstart.symm.trans hfirst
    · rw [copiedText, hselection]
      change b.document.slice (b.document.lineStart b.caretLine)
        (b.document.lineStart (b.caretLine + 1)) = _
      rw [Document.slice, hfirst, hlast, Nat.min_eq_left hmono, Nat.max_eq_right hmono]
      rfl

/-! ## Where a cut leaves the caret -/

/-- The caret is put where two texts meet, as soon as it is moved into the text. -/
structure Aims (b : Buffer) (front back : Text) : Prop where
  text : b.text = front ++ back
  trailing : b.caret.trailing = 0
  anchor : b.caret.anchor = b.caret.position
  position : b.document.clamp b.caret.position = front.length

namespace Aims

theorem endGroup (h : b.Aims front back) : b.endGroup.Aims front back := by
  have hcaret := caret_endGroup b
  have hdocument := (rests_endGroup b).document
  refine ⟨?_, ?_, ?_, ?_⟩
  · rw [Buffer.text, hdocument]
    exact h.text
  · rw [hcaret]
    exact h.trailing
  · rw [hcaret]
    exact h.anchor
  · rw [hcaret, hdocument]
    exact h.position

theorem forgetColumn (h : b.Aims front back) : b.forgetColumn.Aims front back :=
  ⟨h.text, h.trailing, h.anchor, h.position⟩

theorem reconcile (h : b.Aims front back) : b.reconcile.Between front back := by
  have habsolute : b.reconcile.caret.absolute = b.document.clamp b.caret.position :=
    absolute_reconcile h.trailing
  have hanchor : b.reconcile.caret.anchor = b.document.clamp b.caret.anchor := rfl
  refine ⟨?_, ?_, ?_, inside_reconcile (.inl h.trailing)⟩
  · rw [Buffer.text, (quiet_reconcile b).document]
    exact h.text
  · rw [habsolute, h.position]
  · rw [Caret.hasSelection, habsolute, hanchor, h.anchor]
    simp

end Aims

theorem replaceRange_clamp (b : Buffer) (start stop : Int) (new : Text) (label : String) :
    b.replaceRange (b.document.clamp start) (b.document.clamp stop) new label =
      b.replaceRange start stop new label := by
  simp only [replaceRange, Document.clamp_of_le (Document.clamp_le_length _ _)]

/-- Where a range has been removed, the caret is put where it began. -/
theorem aims_collapse (htext : b.text = front ++ t ++ back)
    (hstart : b.document.clamp start = front.length)
    (hstop : b.document.clamp stop = (front ++ t).length) (label : String) :
    ((b.replaceRange start stop [] label).collapse start).Aims front back := by
  have hremoved : (b.replaceRange start stop [] label).text = front ++ back := by
    rw [← replaceRange_clamp, hstart, hstop, text_replaceRange rfl (by simp) label htext,
      List.append_nil]
  refine ⟨hremoved, rfl, rfl, ?_⟩
  have hlength : b.document.length = front.length + t.length + back.length := by
    rw [length_document, htext, List.length_append, List.length_append]
  have hleft : (b.replaceRange start stop [] label).document.length =
      front.length + back.length := by
    rw [length_document, hremoved, List.length_append]
  change (b.replaceRange start stop [] label).document.clamp start = _
  rw [List.length_append] at hstop
  simp only [Document.clamp] at hstart hstop ⊢
  omega

/-- A cut leaves what stands before and behind what it takes, with the caret in between. -/
theorem between_removeCopied (htext : b.text = front ++ t ++ back)
    (hstart : b.document.clamp b.copiedBounds.1 = front.length)
    (hstop : b.document.clamp b.copiedBounds.2 = (front ++ t).length) :
    b.removeCopied.Between front back := by
  refine (Aims.forgetColumn ?_).reconcile
  refine grouped_induction (motive := fun c => c.Aims front back) b "cut"
    (fun c hdocument hcaret => ?_) fun c hc => hc.endGroup
  have hbounds : c.copiedBounds = b.copiedBounds := by
    rw [copiedBounds, copiedBounds, caretLineBounds, caretLineBounds, hdocument, hcaret]
  rw [← hbounds, ← hdocument] at hstart hstop
  have htext : c.text = front ++ t ++ back := by rw [Buffer.text, hdocument]; exact htext
  split
  · next hselected =>
    have hselection : c.caret.selection? = some c.copiedBounds := by
      rw [copiedBounds, Caret.selection?, if_pos hselected, Option.getD_some]
    rw [removeSelection, hselection]
    exact aims_collapse htext hstart hstop _
  · next hunselected =>
    have hlines : c.copiedBounds = c.caretLineBounds := by
      rw [copiedBounds, Caret.selection?, if_neg hunselected, Option.getD_none]
    rw [hlines] at hstart hstop
    exact aims_collapse htext hstart hstop _

theorem Between.insertPasted (h : b.Between front back) (t : Text) :
    (b.insertPasted t).Between (front ++ t) back :=
  grouped_induction (motive := fun c => c.Between (front ++ t) back) b "paste"
    (fun _ hdocument hcaret => (h.of_eq hdocument hcaret).insertText t) fun _ hc => hc.endGroup

end Buffer

/-! ## A cut and a paste -/

namespace Desk

variable {d : Desk} {clipboard : Clipboard} {t : Text}

theorem putOnClipboard_of_accepts (hclipboard : d.host.clipboard = some clipboard)
    (haccepts : clipboard.accepts = true) (ht : t ≠ []) :
    d.putOnClipboard t =
      let clipboard := { clipboard with content := some (Utf8.encode t) }
      { d with host := { d.host with clipboard := some clipboard } } := by
  rw [putOnClipboard, hclipboard]
  simp [ht, haccepts]

/-- The bytes of a text are pasted as that text. -/
theorem paste_of_content (hcontent : d.host.clipboard.bind Clipboard.content = some (Utf8.encode t))
    (ht : t ≠ []) : d.paste = d.onBuffer (·.insertPasted t) := by
  obtain ⟨lead, rest, hbytes⟩ := List.exists_cons_of_ne_nil (Utf8.encode_ne_nil ht)
  have hdecode := Utf8.decode_encode t
  rw [hbytes] at hcontent hdecode
  simp only [paste, hcontent, hdecode]

/-- What a cut returns is what it has removed, and a paste right after it restores the document,
with nothing selected and the caret behind the text that is back. -/
theorem paste_cut (hindexed : d.buffer.document.Indexed)
    (hclipboard : d.host.clipboard = some clipboard) (haccepts : clipboard.accepts = true)
    (hcut : (d.perform .cut).1 = .ok (.text t)) (ht : t ≠ []) :
    let cut := (d.perform .cut).2
    let pasted := (cut.perform .paste).2
    ∃ front back, d.buffer.Takes front t back ∧ cut.buffer.text = front ++ back ∧
      (cut.perform .paste).1 = .ok .done ∧ pasted.buffer.text = d.buffer.text ∧
      pasted.buffer.document.starts = d.buffer.document.starts ∧
      pasted.buffer.caret.hasSelection = false ∧
      pasted.buffer.caret.absolute = (front ++ t).length := by
  intro cut pasted
  obtain rfl : d.buffer.copiedText = t := by
    injection hcut with hreply
    injection hreply
  obtain ⟨front, back, htakes, hstart, hstop⟩ := Buffer.takes_copiedText hindexed
  have hput := putOnClipboard_of_accepts hclipboard haccepts ht
  have hbuffer : cut.buffer = d.buffer.removeCopied := by
    change ((d.putOnClipboard d.buffer.copiedText).onBuffer (·.removeCopied)).buffer = _
    rw [hput]
    rfl
  have hcontent : cut.host.clipboard.bind Clipboard.content =
      some (Utf8.encode d.buffer.copiedText) := by
    change ((d.putOnClipboard d.buffer.copiedText).onBuffer (·.removeCopied)).host.clipboard.bind
      Clipboard.content = _
    rw [hput]
    rfl
  have hremoved : cut.buffer.Between front back := by
    rw [hbuffer]
    exact Buffer.between_removeCopied htakes.text hstart hstop
  have hpasted : pasted.buffer.Between (front ++ d.buffer.copiedText) back := by
    change cut.paste.buffer.Between _ _
    rw [paste_of_content hcontent ht]
    exact hremoved.insertPasted _
  have htext : pasted.buffer.text = d.buffer.text := hpasted.text.trans htakes.text.symm
  refine ⟨front, back, htakes, hremoved.text, rfl, htext, ?_, hpasted.unselected,
    hpasted.absolute⟩
  -- The index of the lines is the one of the text.
  have hindexed' : pasted.buffer.document.Indexed :=
    (relays_perform cut .paste).indexed ((relays_perform d .cut).indexed hindexed)
  exact hindexed'.trans ((congrArg Text.lineStarts htext).trans hindexed.symm)

/-- A cut of a line joins a carriage return and a line feed, and a paste parts them again. -/
theorem paste_cut_pair :
    let b := (Buffer.create "a.txt" ['\r', 'b', '\n', '\n'] 24 80 {}).collapse 1
    let d : Desk := ⟨b, { clipboard := some {} }⟩
    (d.buffer.document.Indexed ∧ d.host.clipboard = some {} ∧ ({} : Clipboard).accepts = true ∧
        (d.perform .cut).1 = .ok (.text ['b', '\n'])) ∧
      (d.perform .cut).2.buffer.text = ['\r', '\n'] ∧
      ((d.perform .cut).2.perform .paste).2.buffer.text = ['\r', 'b', '\n', '\n'] := by
  intro b d
  have hindexed : d.buffer.document.Indexed := by
    unfold Document.Indexed
    decide +kernel
  have hcut : (d.perform .cut).1 = .ok (.text ['b', '\n']) := by decide +kernel
  obtain ⟨front, back, -, -, -, htext, -⟩ := paste_cut hindexed rfl rfl hcut (by decide)
  exact ⟨⟨hindexed, rfl, rfl, hcut⟩, by decide +kernel, htext⟩

end Desk

end TextEditor
