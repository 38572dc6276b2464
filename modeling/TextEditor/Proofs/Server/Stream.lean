import TextEditor.Server.Fleet

/-!
# The stream to a server

What a server reads is a list of messages in their frames.  For one document it can tell from them
which text it was opened with last, which changes followed, and which version the document has.  The
stream is orderly if every change comes after an opening and carries the version after the one that
the message before it for the document had.
-/

namespace TextEditor.Server

/-- What the editor writes to a server. -/
inductive Outgoing where
  | start (number : Nat) (server : String) (root : Option String)
  | started
  | didOpen (uri language : String) (text : Text) (version : Int)
  | didChange (uri : String) (version : Int) (changes : List Json)
  | tokens (number : Nat) (uri : String)
  | reply (id result : Json)

namespace Outgoing

def json : Outgoing → Json
  | start number server root =>
    Message.request number Method.start (some (Message.startParams server root))
  | started => Message.started
  | didOpen uri language text version => Message.didOpen uri language text version
  | didChange uri version changes => Message.didChange uri version changes
  | tokens number uri =>
    Message.request number Method.semanticTokens (some (Message.semanticTokensParams uri))
  | reply id result => Message.response id result

/-- The bytes of the message. -/
def frame (m : Outgoing) : Bytes :=
  Frame.encodeJson m.json

/-- Whether the message opens the document. -/
def opens (uri : String) : Outgoing → Bool
  | didOpen u _ _ _ => u = uri
  | _ => false

/-- The changes of the document that the message tells of. -/
def changesOf (uri : String) : Outgoing → List Json
  | didChange u _ changes => if u = uri then changes else []
  | _ => []

/-- The version that the message gives the document. -/
def version? (uri : String) : Outgoing → Option Int
  | didOpen u _ _ version => if u = uri then some version else none
  | didChange u version _ => if u = uri then some version else none
  | _ => none

theorem opens_of_version?_eq_none {uri : String} {m : Outgoing} (h : m.version? uri = none) :
    m.opens uri = false := by
  cases m <;> simp_all [opens, version?]

theorem changesOf_of_version?_eq_none {uri : String} {m : Outgoing}
    (h : m.version? uri = none) : m.changesOf uri = [] := by
  cases m <;> simp_all [changesOf, version?]

end Outgoing

/-- The version that the document has after the messages. -/
def lastVersion? (uri : String) (messages : List Outgoing) : Option Int :=
  (messages.filterMap (Outgoing.version? uri)).getLast?

variable {uri language : String} {messages : List Outgoing} {m : Outgoing}

theorem lastVersion?_append_of_none (h : m.version? uri = none) :
    lastVersion? uri (messages ++ [m]) = lastVersion? uri messages := by
  simp [lastVersion?, h]

theorem lastVersion?_append_of_some {version : Int} (h : m.version? uri = some version) :
    lastVersion? uri (messages ++ [m]) = some version := by
  simp [lastVersion?, h]

/-! ## Order -/

/-- The document was opened before, and the version is the one after its last. -/
def Continues (messages : List Outgoing) (uri : String) (version : Int) : Prop :=
  (∃ m ∈ messages, m.opens uri = true) ∧
    ∃ last, lastVersion? uri messages = some last ∧ version = last + 1

/-- Every change continues what came before it. -/
def Orderly (messages : List Outgoing) : Prop :=
  ∀ uri version changes earlier later,
    messages = earlier ++ .didChange uri version changes :: later → Continues earlier uri version

theorem orderly_nil : Orderly [] := by
  intro uri version changes earlier later h
  simp at h

theorem Orderly.append (h : Orderly messages)
    (hm : ∀ uri version changes, m = .didChange uri version changes →
      Continues messages uri version) : Orderly (messages ++ [m]) := by
  intro uri version changes earlier later heq
  rcases List.eq_nil_or_concat later with rfl | ⟨later', last, rfl⟩
  · obtain ⟨rfl, hlast⟩ := List.append_inj' heq rfl
    exact hm uri version changes (List.singleton_inj.1 hlast)
  · rw [List.concat_eq_append, ← List.cons_append, ← List.append_assoc] at heq
    obtain ⟨hmessages, -⟩ := List.append_inj' heq rfl
    exact h uri version changes earlier later' hmessages

/-! ## What a document is told of -/

/-- After some earlier messages the stream opens the document, and not again, with a text; then it
sends the deltas as changes, in that order and nothing else, and leaves the document at a
version. -/
structure Tells (messages : List Outgoing) (uri language : String) (encoding : Encoding)
    (earlier : List Outgoing) (text : Text) (sent : List Delta) (version : Int) : Prop where
  opening : ∃ first later,
    messages = earlier ++ .didOpen uri language text first :: later ∧
      (∀ m ∈ later, m.opens uri = false) ∧
      later.flatMap (Outgoing.changesOf uri) = sent.map (Message.rangeChange · encoding)
  version : lastVersion? uri messages = some version

namespace Tells

variable {encoding : Encoding} {earlier : List Outgoing} {text : Text} {sent : List Delta}
variable {version : Int}

/-- An opening begins a new account. -/
theorem didOpen (messages : List Outgoing) (uri language : String) (encoding : Encoding)
    (text : Text) (version : Int) :
    Tells (messages ++ [.didOpen uri language text version]) uri language encoding messages text []
      version where
  opening := ⟨version, [], rfl, by simp, rfl⟩
  version := lastVersion?_append_of_some (by simp [Outgoing.version?])

/-- A change carries it on. -/
theorem didChange (h : Tells messages uri language encoding earlier text sent version)
    (deltas : List Delta) :
    Tells (messages ++ [.didChange uri (version + 1)
      (deltas.map (Message.rangeChange · encoding))]) uri language encoding earlier text
      (sent ++ deltas) (version + 1) where
  opening := by
    obtain ⟨first, later, rfl, hlater, hchanges⟩ := h.opening
    refine ⟨first, later ++ [.didChange uri (version + 1)
      (deltas.map (Message.rangeChange · encoding))], by simp, ?_, ?_⟩
    · intro m hm
      rcases List.mem_append.1 hm with hm | hm
      · exact hlater m hm
      · rw [List.mem_singleton.1 hm]
        rfl
    · rw [List.flatMap_append, hchanges, List.map_append]
      simp [Outgoing.changesOf]
  version := lastVersion?_append_of_some (by simp [Outgoing.version?])

/-- A message that concerns another document, or none, does not touch it. -/
theorem append (h : Tells messages uri language encoding earlier text sent version)
    (hm : m.version? uri = none) :
    Tells (messages ++ [m]) uri language encoding earlier text sent version where
  opening := by
    obtain ⟨first, later, rfl, hlater, hchanges⟩ := h.opening
    refine ⟨first, later ++ [m], by simp, ?_, ?_⟩
    · intro m' hm'
      rcases List.mem_append.1 hm' with hm' | hm'
      · exact hlater m' hm'
      · rw [List.mem_singleton.1 hm']
        exact Outgoing.opens_of_version?_eq_none hm
    · rw [List.flatMap_append, hchanges]
      simp [Outgoing.changesOf_of_version?_eq_none hm]
  version := by
    rw [lastVersion?_append_of_none hm]
    exact h.version

theorem continues (h : Tells messages uri language encoding earlier text sent version) :
    Continues messages uri (version + 1) := by
  obtain ⟨first, later, hmessages, -, -⟩ := h.opening
  refine ⟨⟨.didOpen uri language text first, ?_, by simp [Outgoing.opens]⟩, version, h.version, rfl⟩
  rw [hmessages]
  exact List.mem_append_right _ List.mem_cons_self

end Tells

end TextEditor.Server
