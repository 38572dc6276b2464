import TextEditor.Proofs.Server.Stream

/-!
# Lines to the servers

Of a process and its client the sessions need to know little: how far the server has come, whether
its start waits for an answer, whether it can be written to, and what was written to it.  This is
its line.  Writing adds one frame to one line, a start adds a line, and whatever else happens to
the processes lets lines wane: what was written stays, and a server that is not alive stays so.
-/

namespace TextEditor.Server

def RequestKind.isStart : RequestKind → Bool
  | .start _ => true
  | .tokens _ _ => false

/-- How many requests to start wait for an answer. -/
def Client.starts (c : Client) : Nat :=
  c.pending.countP fun entry => entry.2.isStart

structure Line where
  state : ClientState
  starts : Nat
  hasInput : Bool
  fault : Option PipeFault
  received : List Bytes

def Connection.line (c : Connection) : Line :=
  ⟨c.client.state, c.client.starts, c.process.hasInput, c.process.inputFault, c.process.received⟩

def Fleet.lines (f : Fleet) : List Line :=
  f.connections.map Connection.line

namespace Line

/-- Whatever is written to the server now arrives. -/
def Takes (l : Line) : Prop :=
  l.state.isAlive = true ∧ l.hasInput = true ∧ l.fault = none

def receive (l : Line) (data : Bytes) : Line :=
  { l with received := l.received ++ [data] }

/-- The start waits for at most one answer, and for none once it came or the server ended. -/
def Settled (l : Line) : Prop :=
  l.starts ≤ 1 ∧ (l.state ≠ .starting → l.starts = 0)

/-- The process was just started. -/
structure Begun (l : Line) : Prop where
  state : l.state = .starting
  starts : l.starts ≤ 1
  received : ∃ messages, Orderly messages ∧ l.received = messages.map Outgoing.frame

/-- The server is where it was, or at its end; requests were answered, and nothing was written. -/
structure Wanes (l l' : Line) : Prop where
  state : l'.state = l.state ∨ l'.state.isAlive = false ∧ l'.starts = 0
  starts : l'.starts ≤ l.starts
  hasInput : l'.hasInput = l.hasInput
  fault : l'.fault = l.fault
  received : l'.received = l.received

theorem Wanes.refl (l : Line) : l.Wanes l :=
  ⟨.inl rfl, Nat.le_refl _, rfl, rfl, rfl⟩

theorem Wanes.trans {l l' l'' : Line} (h : l.Wanes l') (h' : l'.Wanes l'') : l.Wanes l'' where
  state := by
    rcases h'.state with hsame | hdead
    · rcases h.state with hsame' | ⟨hdead, hstarts⟩
      · exact .inl (hsame.trans hsame')
      · have := h'.starts
        exact .inr ⟨hsame ▸ hdead, by omega⟩
    · exact .inr hdead
  starts := Nat.le_trans h'.starts h.starts
  hasInput := h'.hasInput.trans h.hasInput
  fault := h'.fault.trans h.fault
  received := h'.received.trans h.received

theorem Wanes.settled {l l' : Line} (h : l.Wanes l') (hsettled : l.Settled) : l'.Settled := by
  obtain ⟨hone, hnone⟩ := hsettled
  refine ⟨Nat.le_trans h.starts hone, fun hstate => ?_⟩
  rcases h.state with hsame | ⟨-, hstarts⟩
  · have := hnone (hsame ▸ hstate)
    have := h.starts
    omega
  · exact hstarts

theorem Wanes.ready {l l' : Line} (h : l.Wanes l') (hready : l'.state = .ready) :
    l.state = .ready := by
  rcases h.state with hsame | ⟨hdead, -⟩
  · rw [← hsame, hready]
  · rw [hready] at hdead
    cases hdead

end Line

/-- Each line wanes. -/
def Wane (lines lines' : List Line) : Prop :=
  lines'.length = lines.length ∧
    ∀ (i : Nat) (l l' : Line), lines[i]? = some l → lines'[i]? = some l' → l.Wanes l'

theorem Wane.refl (lines : List Line) : Wane lines lines := by
  refine ⟨rfl, fun i l l' hl hl' => ?_⟩
  obtain rfl : l = l' := Option.some.inj (hl.symm.trans hl')
  exact Line.Wanes.refl l

theorem Wane.some_left {lines lines' : List Line} (h : Wane lines lines') {i : Nat} {l' : Line}
    (hl' : lines'[i]? = some l') : ∃ l, lines[i]? = some l ∧ l.Wanes l' := by
  have hlt : i < lines.length := h.1 ▸ (List.getElem?_eq_some_iff.1 hl').1
  exact ⟨lines[i], List.getElem?_eq_getElem hlt, h.2 _ _ _ (List.getElem?_eq_getElem hlt) hl'⟩

theorem Wane.some_right {lines lines' : List Line} (h : Wane lines lines') {i : Nat} {l : Line}
    (hl : lines[i]? = some l) : ∃ l', lines'[i]? = some l' ∧ l.Wanes l' := by
  have hlt : i < lines'.length := h.1.symm ▸ (List.getElem?_eq_some_iff.1 hl).1
  exact ⟨lines'[i], List.getElem?_eq_getElem hlt, h.2 _ _ _ hl (List.getElem?_eq_getElem hlt)⟩

theorem Wane.trans {lines lines' lines'' : List Line} (h : Wane lines lines')
    (h' : Wane lines' lines'') : Wane lines lines'' := by
  refine ⟨h'.1.trans h.1, fun i l l'' hl hl'' => ?_⟩
  obtain ⟨l', hl', hwanes⟩ := h'.some_left hl''
  exact (h.2 i l l' hl hl').trans hwanes

theorem wane_modify {lines : List Line} {id : Nat} {change : Line → Line}
    (h : ∀ l, lines[id]? = some l → l.Wanes (change l)) : Wane lines (lines.modify id change) := by
  refine ⟨List.length_modify .., fun i l l' hl hl' => ?_⟩
  rw [List.getElem?_modify, hl] at hl'
  by_cases hid : id = i
  · subst hid
    obtain rfl : change l = l' := by simpa using hl'
    exact h l hl
  · obtain rfl : l = l' := by simpa [hid] using hl'
    exact Line.Wanes.refl l

theorem Wane.received {lines lines' : List Line} (h : Wane lines lines') :
    lines'.map Line.received = lines.map Line.received := by
  apply List.ext_getElem?
  intro i
  rw [List.getElem?_map, List.getElem?_map]
  cases hl : lines[i]? with
  | none =>
    have hlength := h.1
    have hle := List.getElem?_eq_none_iff.1 hl
    rw [List.getElem?_eq_none_iff.2 (by omega)]
  | some l =>
    obtain ⟨l', hl', hwanes⟩ := h.some_right hl
    rw [hl', Option.map_some, Option.map_some, hwanes.received]

namespace Fleet

variable {f : Fleet} {id : Nat}

theorem lines_alter {change : Connection → Connection} {change' : Line → Line}
    (h : ∀ c, f.connections[id]? = some c → (change c).line = change' c.line) :
    (f.alter id change).lines = f.lines.modify id change' := by
  apply List.ext_getElem?
  intro i
  simp only [lines, alter, List.getElem?_map, List.getElem?_modify]
  by_cases hid : id = i
  · subst hid
    cases hc : f.connections[id]? with
    | none => rfl
    | some c => simp [h c hc]
  · cases f.connections[i]? <;> simp [hid]

theorem lines_report (f : Fleet) (level : Level) (name : String) (data : Pairs) :
    (f.report level name data).lines = f.lines := rfl

theorem connection_of_line {l : Line} (h : f.lines[id]? = some l) :
    ∃ c, f.connections[id]? = some c ∧ c.line = l := by
  rw [lines, List.getElem?_map] at h
  exact Option.map_eq_some_iff.1 h

theorem stateOf_of_line {l : Line} (h : f.lines[id]? = some l) : f.stateOf id = l.state := by
  obtain ⟨c, hc, rfl⟩ := connection_of_line h
  simp [stateOf, client?, hc, Connection.line]

theorem lines_deliver (f : Fleet) (id : Nat) (data : Bytes) :
    (f.deliver id data).lines = f.lines.modify id (·.receive data) :=
  lines_alter fun _ _ => rfl

/-! ## Waning -/

theorem wane_modifyClient {change : Client → Client}
    (h : ∀ c, f.client? id = some c →
      ((change c).state = c.state ∨ (change c).state.isAlive = false ∧ (change c).starts = 0) ∧
        (change c).starts ≤ c.starts) :
    Wane f.lines (f.modifyClient id change).lines := by
  cases hc : f.connections[id]? with
  | none =>
    have hsame : (f.modifyClient id change).lines = f.lines.modify id fun l => l :=
      lines_alter fun c hc' => by simp [hc] at hc'
    rw [hsame]
    exact wane_modify fun l _ => Line.Wanes.refl l
  | some c =>
    have hchange := h c.client (by simp [client?, hc])
    have hsame : (f.modifyClient id change).lines =
        f.lines.modify id fun l =>
          { l with state := (change c.client).state, starts := (change c.client).starts } :=
      lines_alter fun c' hc' => by
        obtain rfl : c = c' := Option.some.inj (hc.symm.trans hc')
        rfl
    rw [hsame]
    apply wane_modify
    intro l hl
    obtain ⟨c', hc', rfl⟩ := connection_of_line hl
    obtain rfl : c = c' := Option.some.inj (hc.symm.trans hc')
    exact ⟨hchange.1, hchange.2, rfl, rfl, rfl⟩

/-- A change of the process that is not of its input or of what it received. -/
theorem lines_modifyProcess (f : Fleet) (id : Nat) (change : Subprocess → Subprocess)
    (h : ∀ p, (change p).hasInput = p.hasInput ∧ (change p).inputFault = p.inputFault ∧
      (change p).received = p.received) : (f.modifyProcess id change).lines = f.lines := by
  have hsame : (f.modifyProcess id change).lines = f.lines.modify id fun l => l :=
    lines_alter fun c _ => by simp [Connection.line, h]
  rw [hsame]
  exact List.modify_id ..

theorem wane_terminate (f : Fleet) (id : Nat) : Wane f.lines (f.terminate id).lines := by
  unfold terminate
  split
  · exact Wane.refl _
  · rw [lines_report, lines_modifyProcess]
    · exact wane_modifyClient fun c _ => ⟨.inr ⟨rfl, rfl⟩, Nat.zero_le _⟩
    · exact fun p => ⟨rfl, rfl, rfl⟩

theorem starts_filter_le (c : Client) (keep : Nat × RequestKind → Bool) :
    ({ c with pending := c.pending.filter keep } : Client).starts ≤ c.starts :=
  List.filter_sublist.countP_le

theorem wane_popRequest (f : Fleet) (id : Nat) (number : Int) :
    Wane f.lines (f.popRequest id number).2.lines := by
  unfold popRequest
  cases hc : f.client? id with
  | none => exact Wane.refl _
  | some c =>
    apply wane_modifyClient
    intro c' hc'
    obtain rfl : c = c' := Option.some.inj (hc.symm.trans hc')
    split
    · exact ⟨.inl rfl, Nat.le_refl _⟩
    · exact ⟨.inl rfl, starts_filter_le c _⟩

theorem starts_pop_lt {c : Client} {number : Int} {path : String}
    (h : (c.pop number).1 = some (.start path)) :
    (c.pop number).2.state = c.state ∧ (c.pop number).2.starts < c.starts := by
  unfold Client.pop at h ⊢
  cases hfind : c.pending.find? fun entry => (entry.1 : Int) = number with
  | none => simp [hfind] at h
  | some entry =>
    obtain ⟨n, kind⟩ := entry
    obtain rfl : kind = .start path := by simpa [hfind] using h
    refine ⟨rfl, ?_⟩
    obtain ⟨before, after, hpending⟩ := List.append_of_mem (List.mem_of_find?_eq_some hfind)
    let keep : Nat × RequestKind → Bool := fun entry => entry.1 ≠ n
    have hbefore : (before.filter keep).countP (·.2.isStart) ≤ before.countP (·.2.isStart) :=
      List.filter_sublist.countP_le
    have hafter : (after.filter keep).countP (·.2.isStart) ≤ after.countP (·.2.isStart) :=
      List.filter_sublist.countP_le
    have hdropped : keep (n, .start path) = false := by simp [keep]
    have hkept : (c.pending.filter keep).countP (·.2.isStart) =
        (before.filter keep).countP (·.2.isStart) + (after.filter keep).countP (·.2.isStart) := by
      rw [hpending, List.filter_append, List.filter_cons_of_neg (by simp [hdropped]),
        List.countP_append]
    have hall : c.starts = before.countP (·.2.isStart) + (after.countP (·.2.isStart) + 1) := by
      rw [Client.starts, hpending, List.countP_append, List.countP_cons_of_pos (by rfl)]
    have hgoal : (c.pending.filter keep).countP (·.2.isStart) < c.starts := by omega
    exact hgoal

/-- The answer to a start that waits is matched once. -/
theorem starts_popRequest_lt {number : Int} {path : String}
    (h : (f.popRequest id number).1 = some (.start path)) :
    ∃ l l', f.lines[id]? = some l ∧ (f.popRequest id number).2.lines[id]? = some l' ∧
      l'.state = l.state ∧ l'.starts < l.starts := by
  unfold popRequest at h ⊢
  cases hc : f.client? id with
  | none => simp [hc] at h
  | some client =>
    rw [hc] at h
    obtain ⟨c, hconnection, rfl⟩ := Option.map_eq_some_iff.1 hc
    obtain ⟨hstate, hlt⟩ := starts_pop_lt (c := c.client) h
    refine ⟨c.line, { c with client := (c.client.pop number).2 }.line, ?_, ?_, hstate, hlt⟩
    · simp [lines, hconnection]
    · simp [lines, modifyClient, alter, hconnection]

theorem lines_markReady {l : Line} (hl : f.lines[id]? = some l) (hstate : l.state = .starting) :
    (f.modifyClient id Client.markReady).lines =
      f.lines.modify id fun l => { l with state := .ready } := by
  apply lines_alter
  intro c hc
  obtain ⟨c', hc', rfl⟩ := connection_of_line hl
  obtain rfl : c = c' := Option.some.inj (hc.symm.trans hc')
  have hclient : c.client.markReady = { c.client with state := .ready } := if_pos hstate
  rw [hclient]
  rfl

/-! ## Reading -/

theorem wane_crashed {c : Client} (hc : f.client? id = some c) (reason : String) :
    Wane f.lines (f.crashed id c reason).lines := by
  have hwane : ∀ held, Wane f.lines (f.modifyClient id fun _ =>
      { ({ c with reading := false }.crash reason).1 with held }).lines := by
    intro held
    apply wane_modifyClient
    intro c' hc'
    obtain rfl : c = c' := Option.some.inj (hc.symm.trans hc')
    unfold Client.crash
    split
    · exact ⟨.inr ⟨rfl, rfl⟩, Nat.zero_le _⟩
    · exact ⟨.inl rfl, Nat.le_refl _⟩
  unfold crashed
  dsimp only
  split
  · exact hwane _
  · exact hwane _

theorem wane_readStep? {f' : Fleet} (h : f.readStep? id = some f') : Wane f.lines f'.lines := by
  unfold readStep? at h
  cases hc : f.connections[id]? with
  | none => simp [hc] at h
  | some c =>
    obtain ⟨process, client⟩ := c
    have hclient : f.client? id = some client := by simp [client?, hc]
    have hsame : ∀ (f : Fleet) (change : Client → Client), (∀ c, (change c).state = c.state ∧
        (change c).starts = c.starts) → Wane f.lines (f.modifyClient id change).lines :=
      fun f change hchange => wane_modifyClient fun c _ =>
        ⟨.inl (hchange c).1, Nat.le_of_eq (hchange c).2⟩
    simp only [hc] at h
    split at h
    · split at h
      · cases h
        exact hsame f (fun c => { c with held := none }) fun c => ⟨rfl, rfl⟩
      · cases h
    · split at h
      · cases h
      split at h
      · cases h
        exact wane_crashed hclient _
      split at h
      · cases h
      · next body rest _ =>
        cases h
        have houtput := lines_modifyProcess f id (fun p => { p with output := rest })
          fun p => ⟨rfl, rfl, rfl⟩
        rw [← houtput]
        exact hsame _ _ fun c => ⟨rfl, rfl⟩
      · cases h
        exact wane_crashed hclient _
      · cases h
        exact wane_crashed hclient _
      · cases h
        exact wane_crashed hclient _

theorem wane_runReader (id fuel : Nat) (f : Fleet) : Wane f.lines (runReader id fuel f).lines := by
  induction fuel generalizing f with
  | zero => exact Wane.refl _
  | succ fuel ih =>
    unfold runReader
    split
    · exact Wane.refl _
    · next f' hstep => exact (wane_readStep? hstep).trans (ih f')

end Fleet

end TextEditor.Server
