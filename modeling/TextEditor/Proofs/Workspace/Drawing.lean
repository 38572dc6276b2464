import TextEditor.Proofs.Buffer.Undoable
import TextEditor.Proofs.Step
import TextEditor.Workspace.Basic

/-!
# Drawing the active buffer

A frame comes about unless a server described the document by tokens that cannot be used.  That is a
matter of tokens and document, not of the part of it that is on screen: what could be drawn can be
drawn again after caret and view have moved.
-/

namespace TextEditor

/-! ## Tokens that can be used -/

theorem isOk_bind {α α' β β' ε : Type} {value : Except ε α} {value' : Except ε α'}
    {next : α → Except ε β} {next' : α' → Except ε β'} (hvalue : value.isOk = value'.isOk)
    (hnext : ∀ a a', (next a).isOk = (next' a').isOk) :
    (value >>= next).isOk = (value' >>= next').isOk := by
  cases value <;> cases value'
  case error.error => rfl
  case error.ok => exact absurd hvalue Bool.false_ne_true
  case ok.error => exact absurd hvalue.symm Bool.false_ne_true
  case ok.ok => exact hnext _ _

/-- Two ways of mapping that fail for the same items fail for the same lists. -/
theorem isOk_mapM {α β β' ε : Type} {f : α → Except ε β} {g : α → Except ε β'}
    (h : ∀ a, (f a).isOk = (g a).isOk) (items : List α) :
    (items.mapM f).isOk = (items.mapM g).isOk := by
  induction items with
  | nil => rfl
  | cons a rest ih =>
    rw [List.mapM_cons, List.mapM_cons]
    exact isOk_bind (h a) fun _ _ => isOk_bind ih fun _ _ => rfl

namespace SemanticToken

/-- Whether a token can be used depends on nothing that scrolling changes. -/
theorem isOk_span? (t : SemanticToken) (d : Document) (encoding : Encoding)
    (start stop start' stop' : Int) :
    (t.span? d start stop encoding).isOk = (t.span? d start' stop' encoding).isOk := by
  unfold span?
  split
  · rfl
  · cases t.line.atLeast d.lineCount with
    | error fault => rfl
    | ok past =>
      cases past with
      | true => rfl
      | false => cases t.extent d encoding <;> rfl

theorem isOk_spans (tokens : List SemanticToken) (d : Document) (encoding : Encoding)
    (start stop start' stop' : Int) :
    (spans tokens d start stop encoding).isOk = (spans tokens d start' stop' encoding).isOk :=
  isOk_bind (isOk_mapM (fun t => isOk_span? t d encoding start stop start' stop') tokens)
    fun _ _ => rfl

end SemanticToken

/-- Tokens stay of use to a buffer of which nothing but caret and view changes. -/
theorem Server.Hub.isOk_semanticSpans {h h' : Server.Hub} {b b' : Buffer}
    (hsessions : h'.sessions = h.sessions) (hrests : b.Rests b') :
    (h'.semanticSpans b').isOk = (h.semanticSpans b).isOk := by
  have hlanguage : b'.language = b.language := congrArg Profile.identifier hrests.profile
  have hdocument : h'.documentFor b' = h.documentFor b := by
    rw [documentFor, documentFor, document?, document?, uriOf, uriOf, hsessions, hlanguage,
      hrests.path]
  rw [semanticSpans, semanticSpans, hsessions, hdocument, hlanguage, hrests.document]
  cases h.sessions.find? b.language with
  | none => rfl
  | some session =>
    cases h.documentFor b with
    | none => rfl
    | some document => exact SemanticToken.isOk_spans _ _ _ _ _ _ _

/-! ## The frame -/

namespace Workspace

variable {w : Workspace} {id : Nat} {b : Buffer}

theorem activeBuffer?_of_active (hactive : w.activeNumber? = some id) :
    w.activeBuffer? = w.hub.buffers[id]? := by
  rw [activeBuffer?, hactive]
  rfl

/-- The frame with spans that the tokens of a server gave. -/
def frame (w : Workspace) (b : Buffer) (semantic : List Span) : Snapshot :=
  { b.snapshot with
    spans := semantic ++ b.snapshot.spans
    caretVisible := w.caretVisible }

/-- The workspace after its active buffer was drawn. -/
def drawn (w : Workspace) (id : Nat) (b : Buffer) : Workspace :=
  let w := w.collect b.reportHighlight.journal
  { w with hub := w.hub.alterBuffer id fun b => { b with dirty := false } }

/-- Drawing leaves caret and view alone. -/
theorem activeBuffer?_drawn (hactive : w.activeNumber? = some id)
    (hb : w.hub.buffers[id]? = some b) (c : Buffer) :
    (w.drawn id c).activeBuffer? = some { b with dirty := false } := by
  have hdrawn : (w.drawn id c).activeNumber? = some id := hactive
  rw [activeBuffer?_of_active hdrawn]
  change (w.hub.buffers.modify id fun b => { b with dirty := false })[id]? = _
  rw [List.getElem?_modify_eq, hb]
  rfl

/-- What drawing comes to, and what it leaves behind. -/
theorem start_renderSnapshot (hactive : w.activeNumber? = some id)
    (hb : w.hub.buffers[id]? = some b) :
    renderSnapshot.start w =
      match w.hub.semanticSpans b with
      | .error fault => (.error (.shape fault), w.collect b.reportHighlight.journal)
      | .ok semantic => (.ok (some (w.frame b semantic)), w.drawn id b) := by
  rw [renderSnapshot, Step.start_bind, Step.start_get]
  simp only [hactive, (activeBuffer?_of_active hactive).trans hb]
  rw [Step.start_bind, Step.start_modify]
  simp only [Step.start_bind]
  cases w.hub.semanticSpans b <;> rfl

/-- Where a frame came about, the tokens were of use, and the frame is that of the active buffer. -/
theorem renderSnapshot_eq_ok {snapshot : Option Snapshot} (hactive : w.activeNumber? = some id)
    (hb : w.hub.buffers[id]? = some b) (hdrawn : (renderSnapshot.start w).1 = .ok snapshot) :
    ∃ semantic, w.hub.semanticSpans b = .ok semantic ∧ snapshot = some (w.frame b semantic) := by
  rw [start_renderSnapshot hactive hb] at hdrawn
  cases hsemantic : w.hub.semanticSpans b with
  | error fault =>
    rw [hsemantic] at hdrawn
    cases hdrawn
  | ok semantic =>
    rw [hsemantic] at hdrawn
    exact ⟨semantic, rfl, (Except.ok.inj hdrawn).symm⟩

/-- There is only a frame to draw where there is an active buffer. -/
theorem exists_frame {snapshot : Snapshot}
    (hdrawn : (renderSnapshot.start w).1 = .ok (some snapshot)) :
    ∃ (id : Nat) (b : Buffer) (semantic : List Span), w.hub.buffers[id]? = some b ∧
      snapshot = w.frame b semantic := by
  cases hactive : w.activeNumber? with
  | none =>
    rw [renderSnapshot, Step.start_bind, Step.start_get] at hdrawn
    simp only [hactive] at hdrawn
    cases hdrawn
  | some id =>
    cases hb : w.hub.buffers[id]? with
    | none =>
      rw [renderSnapshot, Step.start_bind, Step.start_get] at hdrawn
      simp only [hactive, (activeBuffer?_of_active hactive).trans hb] at hdrawn
      cases hdrawn
    | some b =>
      obtain ⟨semantic, -, heq⟩ := renderSnapshot_eq_ok hactive hb hdrawn
      exact ⟨id, b, semantic, hb, Option.some.inj heq⟩

/-- Where the tokens are of use, the frame comes about. -/
theorem renderSnapshot_of_isOk (hactive : w.activeNumber? = some id)
    (hb : w.hub.buffers[id]? = some b) (hsemantic : (w.hub.semanticSpans b).isOk = true) :
    ∃ semantic, renderSnapshot.start w = (.ok (some (w.frame b semantic)), w.drawn id b) := by
  rw [start_renderSnapshot hactive hb]
  cases hspans : w.hub.semanticSpans b with
  | error fault =>
    rw [hspans] at hsemantic
    exact absurd hsemantic Bool.false_ne_true
  | ok semantic => exact ⟨semantic, rfl⟩

end Workspace

end TextEditor
