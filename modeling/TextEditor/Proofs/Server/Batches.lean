import TextEditor.Proofs.Buffer.Splice
import TextEditor.Proofs.Server.Stream

/-!
# Batches of changes

The changes of a document are told in batches, each of which takes a version.  A batch is lost when
it cannot be written, and its version with it: what reaches the server is an opening and the batches
that arrived, with gaps in their versions where others were lost.  If none was lost the server is
told everything.
-/

namespace TextEditor.Server

/-- The changes of a document that were to be told of at one time. -/
structure Batch where
  deltas : List Delta
  /-- Whether the message about them was written. -/
  arrived : Bool

namespace Batch

/-- The changes of batches in order, those that were lost included. -/
def deltasOf (batches : List Batch) : List Delta :=
  batches.flatMap Batch.deltas

/-- The messages about the batches that arrived; the first batch has the version after the one that
is given, and each other the version after the one before. -/
def messages (uri : String) (encoding : Encoding) (version : Int) : List Batch → List Outgoing
  | [] => []
  | batch :: rest =>
    (if batch.arrived then
      [.didChange uri (version + 1) (batch.deltas.map (Message.rangeChange · encoding))]
    else []) ++ messages uri encoding (version + 1) rest

variable {uri : String} {encoding : Encoding} {version : Int} {batches : List Batch}

theorem messages_concat (uri : String) (encoding : Encoding) (version : Int)
    (batches : List Batch) (batch : Batch) :
    messages uri encoding version (batches ++ [batch]) =
      messages uri encoding version batches ++
        if batch.arrived then
          [.didChange uri (version + batches.length + 1)
            (batch.deltas.map (Message.rangeChange · encoding))]
        else [] := by
  induction batches generalizing version with
  | nil => simp [messages]
  | cons first rest ih =>
    have hversion : version + 1 + rest.length = version + (first :: rest).length := by
      rw [List.length_cons]
      omega
    rw [List.cons_append, messages, ih, hversion, messages, List.append_assoc]

/-- None of these messages opens the document. -/
theorem opens_of_mem_messages {m : Outgoing} (h : m ∈ messages uri encoding version batches) :
    m.opens uri = false := by
  induction batches generalizing version with
  | nil => cases h
  | cons batch rest ih =>
    rcases List.mem_append.1 h with hfirst | hrest
    · split at hfirst
      · rw [List.mem_singleton.1 hfirst]
        rfl
      · cases hfirst
    · exact ih hrest

/-- The changes in the messages are those of the batches, if all arrived. -/
theorem changesOf_messages (h : ∀ batch ∈ batches, batch.arrived = true) :
    (messages uri encoding version batches).flatMap (Outgoing.changesOf uri) =
      (deltasOf batches).map (Message.rangeChange · encoding) := by
  induction batches generalizing version with
  | nil => rfl
  | cons batch rest ih =>
    have hrest := @ih (version + 1) fun b hb => h b (List.mem_cons_of_mem _ hb)
    have hcons : deltasOf (batch :: rest) = batch.deltas ++ deltasOf rest := List.flatMap_cons
    rw [messages, if_pos (h batch List.mem_cons_self), List.flatMap_append, hrest, hcons,
      List.map_append]
    simp [Outgoing.changesOf]

end Batch

/-- The message concerns the document. -/
def Outgoing.concerns (uri : String) (m : Outgoing) : Bool :=
  (m.version? uri).isSome

/-- The stream opens the document last with a text.  Batches of its changes were to follow, and of
the later messages those that concern it are the ones about the batches that arrived.  The version
counts all batches. -/
structure Partly (messages : List Outgoing) (uri language : String) (encoding : Encoding)
    (text : Text) (batches : List Batch) (version : Int) : Prop where
  told : ∃ earlier first later, messages = earlier ++ .didOpen uri language text first :: later ∧
    later.filter (Outgoing.concerns uri) = Batch.messages uri encoding first batches ∧
      version = first + batches.length

namespace Partly

variable {messages : List Outgoing} {uri language : String} {encoding : Encoding} {text : Text}
variable {batches : List Batch} {version : Int}

/-- An opening begins a new account. -/
theorem didOpen (messages : List Outgoing) (uri language : String) (encoding : Encoding)
    (text : Text) (version : Int) :
    Partly (messages ++ [.didOpen uri language text version]) uri language encoding text []
      version :=
  ⟨messages, version, [], rfl, rfl, (Int.add_zero version).symm⟩

/-- Messages that concern another document, or none, do not touch it. -/
theorem append (h : Partly messages uri language encoding text batches version)
    {more : List Outgoing} (hmore : ∀ m ∈ more, m.version? uri = none) :
    Partly (messages ++ more) uri language encoding text batches version := by
  obtain ⟨earlier, first, later, rfl, hlater, hversion⟩ := h.told
  refine ⟨earlier, first, later ++ more, by simp, ?_, hversion⟩
  have hnone : more.filter (Outgoing.concerns uri) = [] :=
    List.filter_eq_nil_iff.2 fun m hm => by simp [Outgoing.concerns, hmore m hm]
  rw [List.filter_append, hlater, hnone, List.append_nil]

/-- A batch that arrives. -/
theorem arrive (h : Partly messages uri language encoding text batches version)
    (deltas : List Delta) :
    Partly (messages ++ [.didChange uri (version + 1)
      (deltas.map (Message.rangeChange · encoding))]) uri language encoding text
      (batches ++ [⟨deltas, true⟩]) (version + 1) := by
  obtain ⟨earlier, first, later, rfl, hlater, rfl⟩ := h.told
  refine ⟨earlier, first, later ++ [.didChange uri (first + batches.length + 1)
    (deltas.map (Message.rangeChange · encoding))], by simp, ?_, by simp [Int.add_assoc]⟩
  rw [List.filter_append, hlater, Batch.messages_concat, if_pos rfl]
  simp [Outgoing.concerns, Outgoing.version?]

/-- A batch that is lost takes a version all the same. -/
theorem lose (h : Partly messages uri language encoding text batches version)
    (deltas : List Delta) :
    Partly messages uri language encoding text (batches ++ [⟨deltas, false⟩]) (version + 1) := by
  obtain ⟨earlier, first, later, rfl, hlater, rfl⟩ := h.told
  refine ⟨earlier, first, later, rfl, ?_, by simp [Int.add_assoc]⟩
  rw [hlater, Batch.messages_concat]
  simp

/-- If no batch was lost the stream tells of all changes. -/
theorem whole (h : Partly messages uri language encoding text batches version)
    (hall : ∀ batch ∈ batches, batch.arrived = true) :
    ∃ earlier first later, messages = earlier ++ .didOpen uri language text first :: later ∧
      (∀ m ∈ later, m.opens uri = false) ∧
        later.flatMap (Outgoing.changesOf uri) =
          (Batch.deltasOf batches).map (Message.rangeChange · encoding) := by
  obtain ⟨earlier, first, later, hmessages, hlater, -⟩ := h.told
  refine ⟨earlier, first, later, hmessages, fun m hm => ?_, ?_⟩
  · by_cases hconcerns : m.concerns uri = true
    · exact Batch.opens_of_mem_messages (hlater ▸ List.mem_filter.2 ⟨hm, hconcerns⟩)
    · exact Outgoing.opens_of_version?_eq_none (by simpa [Outgoing.concerns] using hconcerns)
  · have hall' : (Batch.messages uri encoding first batches).flatMap (Outgoing.changesOf uri) = _ :=
      Batch.changesOf_messages hall
    rw [← hall', ← hlater]
    clear hlater hmessages
    induction later with
    | nil => rfl
    | cons m rest ih =>
      by_cases hconcerns : m.concerns uri = true
      · rw [List.filter_cons_of_pos hconcerns, List.flatMap_cons, List.flatMap_cons, ih]
      · have hnone : m.changesOf uri = [] := Outgoing.changesOf_of_version?_eq_none
          (by simpa [Outgoing.concerns] using hconcerns)
        rw [List.filter_cons_of_neg hconcerns, List.flatMap_cons, hnone, List.nil_append, ih]

end Partly

end TextEditor.Server
