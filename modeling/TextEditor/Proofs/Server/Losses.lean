import Mathlib.Data.List.Induction
import TextEditor.Proofs.Server.Ledger
import TextEditor.Proofs.Server.Turns

/-!
# What is lost to a server

The changes of a document are taken off its buffer and get their version before they are written,
and nothing puts them back if they cannot be: a sync while the pipe is broken loses them for good.
It is shown that nothing else does.
-/

namespace TextEditor.Server

variable {broken : Nat → Prop} {h₀ : Hub} {language uri : String} {s : Session}
variable {d : TrackedDocument}

namespace Hub

variable {h : Hub} {t : Turn}

/-! ## Turns -/

/-- The ledger of the hub is right for some streams, and so are the indexes of its buffers. -/
structure Balanced (broken : Nat → Prop) (h : Hub) : Prop where
  ledger : ∃ streams, Ledger broken [] streams h.face
  indexed : ∀ (i : Nat) (b : Buffer), h.buffers[i]? = some b → b.document.Indexed

/-- The changes that a buffer queues while it is operated on join those that it holds. -/
theorem ledger_operate {streams : List (List Outgoing)} (hledger : Ledger broken [] streams h.face)
    (hindexed : ∀ (i : Nat) (b : Buffer), h.buffers[i]? = some b → b.document.Indexed) (id : Nat)
    (host : Host) (operation : Operation) :
    Ledger broken [] streams
      (h.face.touch id fun b => (Desk.operate ⟨b, host⟩ operation).buffer) := by
  refine ⟨hledger.carries, List.nodup_nil, by simp, ?_⟩
  intro language uri s d messages hlive hmessages
  have hheard := hledger.heard language uri s d messages (hlive.of_eq rfl rfl) hmessages
  by_cases hbuffer : d.buffer = id
  · rcases hheard with hunopened | ⟨b, text, batches, hb, htracking, hpartly, hreplay, hlost⟩
    · exact .inl hunopened
    · have hrelays := Desk.relays_operate ⟨b, host⟩ operation
      obtain ⟨deltas, hchanges, hgrows⟩ := hrelays.changes
      refine .inr ⟨(Desk.operate ⟨b, host⟩ operation).buffer, text, batches, ?_,
        hrelays.tracking.trans htracking, hpartly, fun e => ?_, hlost⟩
      · exact (Face.buffer_touch _ _ _ _).trans (by rw [hb, Option.map_some, if_pos hbuffer])
      · rw [hchanges, ← List.append_assoc, Delta.replay_append, hreplay e]
        exact hgrows (hindexed _ b hb) htracking e
  · exact hheard.silent (Face.alike_of_ne hbuffer _) ⟨rfl, rfl⟩ rfl

theorem indexed_turn (htidy : h.face.Tidy)
    (hindexed : ∀ (i : Nat) (b : Buffer), h.buffers[i]? = some b → b.document.Indexed) (i : Nat)
    (b' : Buffer) (hb' : (h.turn t).buffers[i]? = some b') : b'.document.Indexed := by
  rcases (round_turn htidy t).buffer hb' with
    ⟨b, hb, hspares | hrelays⟩ | ⟨path, text, rows, columns, settings, rfl⟩
  · exact hspares.document ▸ hindexed i b hb
  · exact hrelays.indexed (hindexed i b hb)
  · exact Desk.indexed_create path text rows columns settings

/-- A pipe that breaks or is mended takes nothing from what was told. -/
theorem ledger_pipe {streams : List (List Outgoing)} (hledger : Ledger broken [] streams h.face)
    (client : Nat) (fault : Option PipeFault) :
    Ledger broken [] streams
      { h.face with lines := h.face.lines.modify client fun l => { l with fault } } := by
  refine hledger.withLines (hledger.carries.change client fun l => ⟨rfl, fun hstate => hstate⟩)
    (fun language s _ hready => ?_)
    fun language s messages' _ hmessages' => ⟨messages', [], hmessages', by simp, by simp⟩
  obtain ⟨l', hl', hstate⟩ := Option.map_eq_some_iff.1 hready
  rw [List.getElem?_modify] at hl'
  obtain ⟨l, hl, rfl⟩ := Option.map_eq_some_iff.1 hl'
  rw [hl, Option.map_some, ← hstate]
  split <;> rfl

theorem balanced_turn (htidy : h.face.Tidy) (hbalanced : h.Balanced broken)
    (hbroken : ∀ (client : Nat) (l : Line), t = .deed .syncChanges →
      h.face.lines[client]? = some l → l.fault ≠ none → broken client) :
    (h.turn t).Balanced broken := by
  obtain ⟨⟨streams, hledger⟩, hindexed⟩ := hbalanced
  refine ⟨?_, indexed_turn htidy hindexed⟩
  have hround := round_turn htidy t
  generalize (h.turn t).face = F at hround ⊢
  cases hround with
  | walked hwalk =>
    exact hwalk.ledger htidy hledger fun client l hdeed => hbroken client l (hdeed ▸ rfl)
  | created path text rows columns settings =>
    refine ⟨streams, hledger.withBuffers fun i b hb => ⟨b, ?_, .refl b⟩⟩
    exact (List.getElem?_append_left (List.getElem?_eq_some_iff.1 hb).1).trans hb
  | operated id host operation =>
    exact ⟨streams, ledger_operate hledger hindexed id host operation⟩
  | rested id hrests =>
    refine ⟨streams, hledger.withBuffers (Face.alike_touch id fun b => ?_)⟩
    exact ⟨(hrests b).tracking, (hrests b).changes, (hrests b).document⟩
  | piped client fault => exact ⟨streams, ledger_pipe hledger client fault⟩

/-! ## Runs -/

/-- At some turn of a run the changes were synced while the pipe to a server was broken. -/
def Spoilt (h₀ : Hub) (turns : List Turn) (client : Nat) : Prop :=
  ∃ past future, turns = past ++ .deed .syncChanges :: future ∧
    ∃ l, (past.foldl turn h₀).face.lines[client]? = some l ∧ l.fault ≠ none

theorem Spoilt.append {turns : List Turn} {client : Nat} (h : Spoilt h₀ turns client) (t : Turn) :
    Spoilt h₀ (turns ++ [t]) client := by
  obtain ⟨past, future, rfl, hbroken⟩ := h
  exact ⟨past, future ++ [t], by simp, hbroken⟩

theorem balanced_foldl_turn (hfresh : h₀.Fresh) (turns : List Turn) :
    (turns.foldl turn h₀).Balanced (Spoilt h₀ turns) := by
  induction turns using List.reverseRecOn with
  | nil =>
    have hface : h₀.face = ⟨[], [], []⟩ := by
      simp [face, Fleet.lines, hfresh.sessions, hfresh.buffers, hfresh.connections]
    refine ⟨⟨[], ?_⟩, fun i b hb => ?_⟩
    · rw [List.foldl_nil, hface]
      exact ⟨⟨rfl, fun _ _ _ hl => by cases hl⟩, List.nodup_nil, by simp,
        fun _ _ _ _ _ hlive => by cases hlive.session⟩
    · rw [List.foldl_nil, hfresh.buffers] at hb
      cases hb
  | append_singleton past t ih =>
    rw [List.foldl_append, List.foldl_cons, List.foldl_nil]
    obtain ⟨⟨streams, hledger⟩, hindexed⟩ := ih
    have hbefore : (past.foldl turn h₀).Balanced (Spoilt h₀ (past ++ [t])) :=
      ⟨⟨streams, hledger.mono fun client hspoilt => hspoilt.append t⟩, hindexed⟩
    refine balanced_turn (tidy_foldl_turn (tidy_fresh hfresh) past) hbefore ?_
    rintro client l rfl hl hfault
    exact ⟨past, [], rfl, l, hl, hfault⟩

/-- After every run, whichever writes fail in it, a server that is ready either was not told to open
a document that its session takes for open, or it was told of a text and of some of the batches of
changes since.  All batches together, those that were lost included, and the changes that the buffer
still holds make that text the text of the buffer, and a batch was lost only if changes were synced
while the pipe was broken.  If that never happened the server is told of every change. -/
theorem heard_of_opened (hfresh : h₀.Fresh) (turns : List Turn) :
    let h := turns.foldl turn h₀
    h.sessions.find? language = some s → h.isReady s = true → s.documents.find? uri = some d →
      d.opened = true → ∃ c messages, h.fleet.connections[s.client]? = some c ∧
        c.process.received = messages.map Outgoing.frame ∧
          ((∀ m ∈ messages, m.opens uri = false) ∨
            ∃ b text batches, h.buffers[d.buffer]? = some b ∧
              Partly messages uri language s.encoding text batches d.version ∧
                (∀ e, Delta.replay e text (Batch.deltasOf batches ++ b.changes) = b.text) ∧
                  (∀ batch ∈ batches, batch.arrived = false → Spoilt h₀ turns s.client) ∧
                    (¬Spoilt h₀ turns s.client → ∃ earlier first later,
                      messages = earlier ++ .didOpen uri language text first :: later ∧
                        (∀ m ∈ later, m.opens uri = false) ∧
                          later.flatMap (Outgoing.changesOf uri) =
                            (Batch.deltasOf batches).map (Message.rangeChange · s.encoding))) := by
  intro h hs hready hd hopened
  obtain ⟨⟨streams, hledger⟩, -⟩ := balanced_foldl_turn hfresh turns
  have htidy : h.face.Tidy := tidy_foldl_turn (tidy_fresh hfresh) turns
  obtain ⟨l, hl, -⟩ := htidy.served language s hs
  obtain ⟨c, hc, rfl⟩ := Fleet.connection_of_line hl
  obtain ⟨messages, hmessages, hreceived⟩ := hledger.carries.messages_of_line hl
  have hlive : h.face.Live language uri s d := by
    refine ⟨hs, (stateOf_of_tidy htidy hs).trans (congrArg some ?_), hd, hopened⟩
    exact of_decide_eq_true hready
  refine ⟨c, messages, hc, hreceived, ?_⟩
  rcases hledger.heard language uri s d messages hlive hmessages with
    hunopened | ⟨b, text, batches, hb, -, hpartly, hreplay, hlost⟩
  · exact .inl hunopened
  · refine .inr ⟨b, text, batches, hb, hpartly, hreplay, hlost, fun hwhole => ?_⟩
    refine hpartly.whole fun batch hbatch => ?_
    by_contra harrived
    exact hwhole (hlost batch hbatch (Bool.eq_false_iff.2 harrived))

/-- A document is opened, its server answers, and of two edits the first is synced while the pipe is
broken. -/
theorem heard_of_opened_gap :
    let h₀ : Hub := { settings := {}, root := none, fleet := { capacity := 4 } }
    let answer := Utf8.encode "\x7b\"id\":0,\"result\":null\x7d".toList
    let turns : List Turn :=
      [.deed (.create "/a.rs" ['x'] 24 80 {}), .deed (.openDocument 0),
        .deed (.post (.response "rust-analyzer" answer)), .deed .drain,
        .deed (.edit 0 {} (.perform (.insertText ['y']))),
        .deed (.breakPipe 0 ⟨.system "BrokenPipeError", "Broken pipe"⟩), .deed .syncChanges,
        .mendPipe 0, .deed (.edit 0 {} (.perform (.insertText ['z']))), .deed .syncChanges]
    let h := turns.foldl turn h₀
    ∃ s d, (h₀.Fresh ∧ h.sessions.find? "rust" = some s ∧ h.isReady s = true ∧
        s.documents.find? "file:///a.rs" = some d ∧ d.opened = true) ∧
      ∃ c messages, h.fleet.connections[s.client]? = some c ∧
        c.process.received = messages.map Outgoing.frame ∧
          ((∀ m ∈ messages, m.opens "file:///a.rs" = false) ∨
            ∃ b text batches, h.buffers[d.buffer]? = some b ∧
              Partly messages "file:///a.rs" "rust" s.encoding text batches d.version ∧
                (∀ e, Delta.replay e text (Batch.deltasOf batches ++ b.changes) = b.text) ∧
                  (∀ batch ∈ batches, batch.arrived = false → Spoilt h₀ turns s.client) ∧
                    (¬Spoilt h₀ turns s.client → ∃ earlier first later,
                      messages = earlier ++ .didOpen "file:///a.rs" "rust" text first :: later ∧
                        (∀ m ∈ later, m.opens "file:///a.rs" = false) ∧
                          later.flatMap (Outgoing.changesOf "file:///a.rs") =
                            (Batch.deltasOf batches).map
                              (Message.rangeChange · s.encoding))) := by
  intro h₀ answer turns h
  have hfresh : h₀.Fresh := ⟨rfl, rfl, rfl⟩
  have hopened : ((h.sessions.find? "rust").any fun s => h.isReady s &&
      (s.documents.find? "file:///a.rs").any (·.opened)) = true := by decide +kernel
  obtain ⟨s, hs, hready⟩ := (Option.any_eq_true _ _).1 hopened
  obtain ⟨hready, hfound⟩ := Bool.and_eq_true_iff.1 hready
  obtain ⟨d, hfound, hopened⟩ := (Option.any_eq_true _ _).1 hfound
  -- What is known of the run is enough from here on.
  clear_value turns
  exact ⟨s, d, ⟨hfresh, hs, hready, hfound, hopened⟩,
    heard_of_opened hfresh turns hs hready hfound hopened⟩

/-- In that run the first edit never reaches the server, which stays ready all the while: after the
opening it is told of the second alone, with version 2, and is left with another text than the
buffer has. -/
theorem gap_in_text :
    let h₀ : Hub := { settings := {}, root := none, fleet := { capacity := 4 } }
    let answer := Utf8.encode "\x7b\"id\":0,\"result\":null\x7d".toList
    let turns : List Turn :=
      [.deed (.create "/a.rs" ['x'] 24 80 {}), .deed (.openDocument 0),
        .deed (.post (.response "rust-analyzer" answer)), .deed .drain,
        .deed (.edit 0 {} (.perform (.insertText ['y']))),
        .deed (.breakPipe 0 ⟨.system "BrokenPipeError", "Broken pipe"⟩), .deed .syncChanges,
        .mendPipe 0, .deed (.edit 0 {} (.perform (.insertText ['z']))), .deed .syncChanges]
    let h := turns.foldl turn h₀
    let delta : Delta := ⟨⟨0, 1⟩, ⟨0, 1⟩, ⟨0, 1⟩, ⟨0, 1⟩, ['z'], 2, "insert"⟩
    let uri := "file:///a.rs"
    h₀.Fresh ∧ (turns.inits.drop 5).all (fun past =>
        ((past.foldl turn h₀).sessions.find? "rust").any (past.foldl turn h₀).isReady) = true ∧
      h.fleet.connections[0]?.map (fun c => c.process.received) = some
        ([.start 0 "rust-analyzer" none, .started, .didOpen uri "rust" ['x'] 0, .tokens 1 uri,
          .didChange uri 2 [Message.rangeChange delta .utf16], .tokens 2 uri].map
            Outgoing.frame) ∧
        Delta.replay .utf16 ['x'] [delta] = ['x', 'z'] ∧
          h.buffers[0]?.map Buffer.text = some ['y', 'z', 'x'] := by
  refine ⟨⟨rfl, rfl, rfl⟩, ?_, ?_, ?_, ?_⟩ <;> decide +kernel

end Hub

end TextEditor.Server
