import TextEditor.Proofs.Server.Moves

/-!
# How far a reader has to go

Once the output of a process has ended, or holds bytes that are no message, the reader of its client
has a number of steps left to take.  Nothing that others do adds to them, and each step that the
reader takes while the queue has room is one less.  So it comes to its end in any run in which it
has its turn often enough.
-/

namespace TextEditor.Server

namespace Connection

variable {c c' : Connection} {reason : String} {bytes : Bytes} {events : List Event}

/-- Where a reader ends it had nothing to post, and finds no message. -/
theorem failure?_eq_some (h : c.failure? = some reason) :
    c.client.held = none ∧ c.client.reading = true ∧ (c.process.hasOutput = false ∨
      Frame.read (some c.client.limit) c.process.ending c.process.output ≠ .waits ∧
        ∀ body rest, Frame.read (some c.client.limit) c.process.ending c.process.output ≠
          .gives (some body) rest) := by
  unfold failure? at h
  split at h
  · cases h
  · next hbusy =>
    simp only [Bool.or_eq_true, Bool.not_eq_true', not_or, Bool.not_eq_true, Bool.not_eq_false,
      Option.isSome_eq_false_iff, Option.isNone_iff_eq_none] at hbusy
    refine ⟨hbusy.1, hbusy.2, ?_⟩
    split at h
    · next hnone => exact .inl (by simpa using hnone)
    · right
      cases hread : Frame.read (some c.client.limit) c.process.ending c.process.output with
      | waits => simp [hread] at h
      | refuses fault rest | breaks fault => simp
      | gives value rest =>
        cases value with
        | none => simp
        | some body => simp [hread] at h

/-- The event that tells of the end of a client. -/
def lastEvents (c : Connection) (reason : String) : List Event :=
  if c.client.state.isAlive then [.crash c.client.name reason] else []

theorem held_failed (c : Connection) (reason : String) :
    (c.client.failed reason).held.toList = c.lastEvents reason := by
  unfold Client.failed Client.crash lastEvents
  cases c.client.state.isAlive <;> rfl

theorem state_failed (client : Client) (reason : String) :
    (client.failed reason).state.isAlive = false ∧ (client.failed reason).reading = false := by
  unfold Client.failed Client.crash
  cases halive : client.state.isAlive with
  | false => exact ⟨halive, rfl⟩
  | true => exact ⟨rfl, rfl⟩

/-- The output has come to its end: there is none, no more of it comes, or what came cannot be read
on. -/
def AtEnd (c : Connection) : Prop :=
  c.process.hasOutput = false ∨ c.process.ending ≠ .awaited ∨
    Frame.Malformed (some c.client.limit) c.process.output

/-- A reader does not wait at the end of the output. -/
theorem AtEnd.read_ne_waits (h : c.AtEnd) (houtput : c.process.hasOutput = true) :
    Frame.read (some c.client.limit) c.process.ending c.process.output ≠ .waits := by
  rcases h with hnone | hending | hmalformed
  · exact absurd (houtput.symm.trans hnone) (by decide)
  · exact Frame.read_ne_waits hending
  · exact hmalformed.read_ne_waits _

/-- The steps that the reader has to take until it has ended and holds nothing: two for each message
and two for the end, and one for what it holds. -/
def due (c : Connection) : Nat :=
  (if c.client.reading then
    2 * (Frame.bodies (some c.client.limit) c.process.output).length + 2 else 0) +
      c.client.held.toList.length

theorem due_eq_zero (h : c.due = 0) : c.client.reading = false ∧ c.client.held = none := by
  unfold due at h
  cases hreading : c.client.reading with
  | true =>
    rw [hreading, if_pos rfl] at h
    omega
  | false =>
    cases hheld : c.client.held with
    | none => exact ⟨rfl, rfl⟩
    | some event =>
      rw [hheld, Option.toList_some, List.length_singleton] at h
      omega

theorem due_le (c : Connection) :
    c.due ≤ 2 * (Frame.bodies (some c.client.limit) c.process.output).length + 3 := by
  have hheld : c.client.held.toList.length ≤ 1 := by cases c.client.held <;> simp
  unfold due
  split <;> omega

theorem due_takes {body rest : Bytes} (hheld : c.client.held = none)
    (hreading : c.client.reading = true)
    (hread : Frame.read (some c.client.limit) c.process.ending c.process.output =
      .gives (some body) rest) (event : Event) :
    due { process := { c.process with output := rest }
          client := { c.client with held := some event } } < c.due := by
  have hbodies := Frame.bodies_of_some hread []
  rw [List.append_nil, List.append_nil] at hbodies
  unfold due
  dsimp only
  rw [hheld, hreading, hbodies, if_pos rfl, if_pos rfl, List.length_cons, Option.toList_some,
    Option.toList_none, List.length_singleton, List.length_nil]
  omega

theorem due_posts {event : Event} (hheld : c.client.held = some event) :
    due { c with client := { c.client with held := none } } < c.due := by
  rw [due, due, hheld, Option.toList_some, Option.toList_none, List.length_singleton,
    List.length_nil]
  exact Nat.lt_succ_self _

theorem due_fails (hfailure : c.failure? = some reason) :
    due { c with client := c.client.failed reason } < c.due := by
  have hevents : (c.lastEvents reason).length ≤ 1 := by
    unfold lastEvents
    split <;> simp
  rw [due, due, (state_failed c.client reason).2, held_failed, (failure?_eq_some hfailure).2.1,
    if_neg (by decide), if_pos rfl]
  omega

/-- No move brings the output back, or adds to what the reader has to do. -/
theorem AtEnd.goes (h : c.AtEnd) (hgoes : c.Goes c' bytes events) :
    c'.AtEnd ∧ c'.due ≤ c.due := by
  cases hgoes with
  | rests hrests =>
    rw [AtEnd, due, due, hrests.hasOutput, hrests.limit, hrests.output, hrests.reading,
      hrests.held]
    exact ⟨h.imp_right (Or.imp_left fun hending hawaited => hending (hrests.ending hawaited)),
      Nat.le_refl _⟩
  | emits hopen =>
    obtain ⟨houtput, hending⟩ := Bool.and_eq_true_iff.1 hopen
    rcases h with hnone | hended | hmalformed
    · exact absurd (houtput.symm.trans hnone) (by decide)
    · exact absurd (of_decide_eq_true hending) hended
    · refine ⟨.inr (.inr (hmalformed.append _)), Nat.le_of_eq ?_⟩
      unfold due
      dsimp only
      rw [hmalformed.bodies_append]
  | takes hheld hreading _ hread =>
    exact ⟨h.imp_right (Or.imp_right fun hmalformed => hmalformed.of_some hread),
      Nat.le_of_lt (due_takes hheld hreading hread _)⟩
  | posts hheld => exact ⟨h, Nat.le_of_lt (due_posts hheld)⟩
  | @fails reason hfailure =>
    refine ⟨?_, Nat.le_of_lt (due_fails hfailure)⟩
    rw [AtEnd, (Client.failed_eq c.client reason).2]
    exact h

end Connection

namespace Fleet

variable {f : Fleet} {id : Nat} {c : Connection}

/-- Whether a move is a step of the reader of a client at which the queue has room. -/
def isTurn (f : Fleet) (id : Nat) : Move → Bool
  | .read i => i = id && f.queue.length < f.capacity
  | _ => false

/-- How many steps the reader of a client takes at which the queue has room. -/
def turns (f : Fleet) (id : Nat) : List Move → Nat
  | [] => 0
  | move :: rest => (f.isTurn id move).toNat + (f.act move).turns id rest

/-- At the end of the output, each turn of the reader leaves it less to do, until it has nothing to
do. -/
theorem due_turn (hc : f.connections[id]? = some c) (h : c.AtEnd)
    (hroom : f.queue.length < f.capacity) :
    ∃ c', (f.act (.read id)).connections[id]? = some c' ∧ c'.due ≤ c.due - 1 := by
  rw [act]
  rcases readStep?_cases hc with ⟨hstep, -, hidle⟩ | ⟨event, hheld, -, hstep⟩ |
    ⟨body, rest, hheld, hreading, -, hread, hstep⟩ | ⟨reason, hfailure, hstep⟩
  · obtain ⟨hheld, hwaits⟩ := hidle hroom
    have hended : c.client.reading = false := by
      refine Bool.eq_false_iff.2 fun hreading => ?_
      obtain ⟨houtput, hread⟩ := hwaits hreading
      exact h.read_ne_waits houtput hread
    refine ⟨c, by rw [hstep, Option.getD_none, hc], ?_⟩
    rw [Connection.due, hended, hheld]
    exact Nat.zero_le _
  · rw [hstep, Option.getD_some]
    refine ⟨_, (connections_alter f id _ id).trans (by rw [if_pos rfl, hc, Option.map_some]), ?_⟩
    exact Nat.le_sub_one_of_lt (Connection.due_posts hheld)
  · rw [hstep, Option.getD_some, modifyClient, connections_alter, if_pos rfl, modifyProcess,
      connections_alter, if_pos rfl, hc, Option.map_some, Option.map_some]
    exact ⟨_, rfl, Nat.le_sub_one_of_lt (Connection.due_takes hheld hreading hread _)⟩
  · rw [hstep, Option.getD_some, connections_crashed, connections_alter, if_pos rfl, hc,
      Option.map_some]
    exact ⟨_, rfl, Nat.le_sub_one_of_lt (Connection.due_fails hfailure)⟩

theorem due_act (hc : f.connections[id]? = some c) (h : c.AtEnd) (move : Move) :
    ∃ c', (f.act move).connections[id]? = some c' ∧ c'.AtEnd ∧
      c'.due ≤ c.due - (f.isTurn id move).toNat := by
  obtain ⟨c', hc', hgoes⟩ := goes_act hc move
  obtain ⟨hend, hdue⟩ := h.goes hgoes
  refine ⟨c', hc', hend, ?_⟩
  cases hturn : f.isTurn id move with
  | false => exact hdue
  | true =>
    cases move with
    | read i =>
      obtain ⟨hi, hroom⟩ := Bool.and_eq_true_iff.1 hturn
      obtain rfl : i = id := of_decide_eq_true hi
      obtain ⟨c'', hc'', hless⟩ := due_turn hc h (of_decide_eq_true hroom)
      obtain rfl := Option.some.inj (hc'.symm.trans hc'')
      exact hless
    | _ => cases hturn

/-- At the end of the output the reader is done after as many turns as it has steps to take. -/
theorem due_foldl_act (hc : f.connections[id]? = some c) (h : c.AtEnd) (moves : List Move) :
    ∃ c', (moves.foldl act f).connections[id]? = some c' ∧ c'.due ≤ c.due - f.turns id moves := by
  induction moves generalizing f c with
  | nil => exact ⟨c, hc, Nat.le_refl _⟩
  | cons move rest ih =>
    obtain ⟨c', hc', h', hdue⟩ := due_act hc h move
    obtain ⟨c'', hc'', hdue'⟩ := ih hc' h'
    refine ⟨c'', hc'', ?_⟩
    rw [turns]
    omega

/-- In the course of some moves a reader came to its end: at one of its steps its connection was the
given one, and it failed for the reason. -/
def Ended (f : Fleet) (id : Nat) (moves : List Move) (c : Connection) (reason : String) : Prop :=
  ∃ past future, moves = past ++ .read id :: future ∧
    (past.foldl act f).connections[id]? = some c ∧ c.failure? = some reason

theorem reading_or_fails (hc : f.connections[id]? = some c) (move : Move) :
    ∃ c', (f.act move).connections[id]? = some c' ∧
      (c'.client.reading = c.client.reading ∨
        move = .read id ∧ ∃ reason, c.failure? = some reason) := by
  by_cases hread : move = .read id
  · subst hread
    obtain ⟨c', hc', hgoes⟩ := goes_act hc (.read id)
    refine ⟨c', hc', ?_⟩
    generalize f.emits id (.read id) = bytes, f.posts id (.read id) = events at hgoes
    cases hgoes with
    | rests hrests => exact .inl hrests.reading
    | emits | takes | posts => exact .inl rfl
    | @fails reason hfailure => exact .inr ⟨rfl, reason, hfailure⟩
  · obtain ⟨c', hc', hreading⟩ := reading_act hc hread
    exact ⟨c', hc', .inl hreading⟩

/-- A reader that is not at work any more came to its end. -/
theorem ended_of_not_reading {c' : Connection} {moves : List Move}
    (hc : f.connections[id]? = some c) (hreading : c.client.reading = true)
    (hc' : (moves.foldl act f).connections[id]? = some c') (hended : c'.client.reading = false) :
    ∃ c₀ reason, f.Ended id moves c₀ reason := by
  induction moves generalizing f c with
  | nil =>
    obtain rfl := Option.some.inj (hc.symm.trans hc')
    exact absurd (hreading.symm.trans hended) (by decide)
  | cons move rest ih =>
    obtain ⟨c₁, hc₁, hsame | ⟨rfl, reason, hfailure⟩⟩ := reading_or_fails hc move
    · obtain ⟨c₀, reason, past, future, rfl, hc₀, hfailure⟩ := ih hc₁ (hsame.trans hreading) hc'
      exact ⟨c₀, reason, move :: past, future, rfl, hc₀, hfailure⟩
    · exact ⟨c, reason, [], rest, rfl, hc, hfailure⟩

end Fleet

end TextEditor.Server
