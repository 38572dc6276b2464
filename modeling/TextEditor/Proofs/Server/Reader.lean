import TextEditor.Proofs.Server.Progress

/-!
# What a reader posts

A reader posts one event for each message that comes out of the process of its client, in order and
with the bytes of the message, and after the last of them at most one that says how the output
ended.  There is one if the client was alive when its reader found the end, and none if the host had
stopped the client before.
-/

namespace TextEditor.Server

namespace Connection

variable {c c' : Connection} {reason : String} {emitted : Bytes} {posted : List Event}

theorem quits_failed (h : c.client.Quits) : (c.client.failed reason).Quits := by
  unfold Client.failed Client.crash
  cases halive : c.client.state.isAlive with
  | false => exact fun _ => h halive
  | true => exact fun _ => rfl

/-! ## While the reader goes on -/

/-- What was posted and what is to be posted are the messages that were taken off the output, and
behind them, when the reader has ended, at most one event that tells of the end.  Whatever the
process will write, the messages of all that came out of it are those that were taken and those that
are still in the output. -/
structure Conveys (c : Connection) (name : String) (limit : Int) (emitted : Bytes)
    (posted : List Event) : Prop where
  named : c.client.name = name
  limited : c.client.limit = limit
  quits : c.client.Quits
  alive : c.client.state.isAlive = true → c.client.reading = true
  silent : c.process.hasOutput = false → c.process.output = []
  events : ∃ taken last,
    (∀ more, Frame.bodies (some limit) (emitted ++ more) =
      taken ++ Frame.bodies (some limit) (c.process.output ++ more)) ∧
    posted ++ c.client.held.toList = taken.map (.response name) ++ last ∧
    (c.client.reading = true → last = []) ∧
    (last = [] ∨ ∃ reason, last = [.crash name reason])

variable {name : String} {limit : Int}

theorem Conveys.goes {bytes : Bytes} {events : List Event}
    (h : c.Conveys name limit emitted posted) (hgoes : c.Goes c' bytes events) :
    c'.Conveys name limit (emitted ++ bytes) (posted ++ events) := by
  obtain ⟨taken, last, hbodies, hposted, hreading, hlast⟩ := h.events
  cases hgoes with
  | rests hrests =>
    rw [List.append_nil, List.append_nil]
    refine ⟨hrests.name.trans h.named, hrests.limit.trans h.limited, hrests.quits h.quits,
      fun halive => hrests.reading.trans (h.alive (hrests.alive halive)), ?_, taken, last, ?_, ?_,
      ?_, hlast⟩
    · rw [hrests.hasOutput, hrests.output]
      exact h.silent
    · rw [hrests.output]
      exact hbodies
    · rw [hrests.held]
      exact hposted
    · rw [hrests.reading]
      exact hreading
  | emits hopen =>
    rw [List.append_nil]
    refine ⟨h.named, h.limited, h.quits, h.alive, fun hnone => ?_, taken, last, fun more => ?_,
      hposted, hreading, hlast⟩
    · rw [Subprocess.isOpen, show c.process.hasOutput = false from hnone] at hopen
      cases hopen
    · rw [List.append_assoc, hbodies, List.append_assoc]
  | @takes body rest hheld hread houtput hframe =>
    rw [List.append_nil, List.append_nil]
    have hnone := hreading hread
    rw [hheld, Option.toList_none, List.append_nil, hnone, List.append_nil] at hposted
    refine ⟨h.named, h.limited, h.quits, h.alive, fun hsilent => ?_, taken ++ [body], last,
      fun more => ?_, ?_, hreading, hlast⟩
    · exact absurd (houtput.symm.trans hsilent) (by decide)
    · rw [hbodies, ← h.limited, Frame.bodies_of_some hframe, List.append_assoc]
      rfl
    · rw [hposted, hnone, List.append_nil, List.map_append, h.named]
      rfl
  | @posts event hheld =>
    rw [List.append_nil]
    refine ⟨h.named, h.limited, h.quits, h.alive, h.silent, taken, last, hbodies, ?_, hreading,
      hlast⟩
    rw [hheld] at hposted
    rw [Option.toList_none, List.append_nil]
    exact hposted
  | @fails reason hfailure =>
    rw [List.append_nil, List.append_nil]
    obtain ⟨hheld, hread, -⟩ := failure?_eq_some hfailure
    obtain ⟨hdead, hstopped⟩ := state_failed c.client reason
    obtain ⟨hname, hlimit⟩ := Client.failed_eq c.client reason
    rw [hheld, Option.toList_none, List.append_nil, hreading hread, List.append_nil] at hposted
    refine ⟨hname.trans h.named, hlimit.trans h.limited, quits_failed h.quits,
      fun halive => absurd (halive.symm.trans hdead) (by decide), h.silent, taken,
      c.lastEvents reason, hbodies, ?_, fun hgoes => absurd (hgoes.symm.trans hstopped) (by decide),
      ?_⟩
    · rw [held_failed, hposted]
    · unfold lastEvents
      rw [h.named]
      split
      · exact .inr ⟨reason, rfl⟩
      · exact .inl rfl

/-! ## After the reader ended -/

/-- The reader has ended, and whatever may still come out of the process brings no message. -/
structure Spent (c : Connection) : Prop where
  reading : c.client.reading = false
  bodies : ∀ more, more = [] ∨ c.process.isOpen = true →
    Frame.bodies (some c.client.limit) (c.process.output ++ more) = []

theorem Spent.of_failure (h : c.Conveys name limit emitted posted)
    (hfailure : c.failure? = some reason) :
    Spent { c with client := c.client.failed reason } where
  reading := (state_failed c.client reason).2
  bodies := by
    intro more hmore
    rw [(Client.failed_eq c.client reason).2]
    obtain ⟨-, -, hnone | ⟨hwaits, hsome⟩⟩ := failure?_eq_some hfailure
    · have hnothing : more = [] := by
        refine hmore.resolve_right fun hopen => ?_
        rw [Subprocess.isOpen, show c.process.hasOutput = false from hnone] at hopen
        cases hopen
      have hempty : c.process.output = [] := h.silent hnone
      dsimp only
      rw [hempty, hnothing]
      rfl
    · refine Frame.bodies_of_end hwaits hsome (hmore.imp_right fun hopen => ?_)
      exact of_decide_eq_true (Bool.and_eq_true_iff.1 hopen).2

/-- After its end a reader only posts what it holds. -/
theorem Spent.goes {bytes : Bytes} {events : List Event} (h : c.Spent)
    (hgoes : c.Goes c' bytes events) :
    c'.Spent ∧ c'.process.output = c.process.output ++ bytes ∧
      c'.client.limit = c.client.limit ∧
        events ++ c'.client.held.toList = c.client.held.toList := by
  cases hgoes with
  | rests hrests =>
    refine ⟨⟨hrests.reading.trans h.reading, fun more hmore => ?_⟩,
      hrests.output.trans (List.append_nil _).symm, hrests.limit, by rw [hrests.held]; rfl⟩
    rw [hrests.limit, hrests.output]
    refine h.bodies more (hmore.imp_right fun hopen => ?_)
    obtain ⟨hhas, hending⟩ := Bool.and_eq_true_iff.1 hopen
    exact Bool.and_eq_true_iff.2 ⟨hrests.hasOutput ▸ hhas,
      decide_eq_true (hrests.ending (of_decide_eq_true hending))⟩
  | @emits bytes hopen =>
    refine ⟨⟨h.reading, fun more _ => ?_⟩, rfl, rfl, rfl⟩
    dsimp only
    rw [List.append_assoc]
    exact h.bodies (bytes ++ more) (.inr hopen)
  | takes hheld hreading => exact absurd (h.reading.symm.trans hreading) (by decide)
  | posts hheld =>
    refine ⟨⟨h.reading, h.bodies⟩, (List.append_nil _).symm, rfl, ?_⟩
    rw [hheld]
    rfl
  | fails hfailure =>
    exact absurd (h.reading.symm.trans (failure?_eq_some hfailure).2.1) (by decide)

/-- No move brings a client back to life. -/
theorem Goes.alive {bytes : Bytes} {events : List Event} (hgoes : c.Goes c' bytes events)
    (halive : c'.client.state.isAlive = true) : c.client.state.isAlive = true := by
  cases hgoes with
  | rests hrests => exact hrests.alive halive
  | emits | takes | posts => exact halive
  | @fails reason hfailure =>
    exact absurd (halive.symm.trans (state_failed c.client reason).1) (by decide)

end Connection

/-! ## Runs -/

namespace Fleet

variable {f : Fleet} {id : Nat} {c : Connection} {name : String} {limit : Int}
variable {emitted : Bytes} {posted : List Event}

theorem conveys_foldl_act (hc : f.connections[id]? = some c)
    (h : c.Conveys name limit emitted posted) (moves : List Move) :
    ∃ c', (moves.foldl act f).connections[id]? = some c' ∧
      c'.Conveys name limit (emitted ++ f.emitted id moves) (posted ++ f.posted id moves) := by
  induction moves generalizing f c emitted posted with
  | nil => exact ⟨c, hc, by rwa [Fleet.emitted, Fleet.posted, List.append_nil, List.append_nil]⟩
  | cons move rest ih =>
    obtain ⟨c', hc', hgoes⟩ := goes_act hc move
    obtain ⟨c'', hc'', h''⟩ := ih hc' (h.goes hgoes)
    refine ⟨c'', hc'', ?_⟩
    rw [Fleet.emitted, Fleet.posted, ← List.append_assoc, ← List.append_assoc]
    exact h''

theorem spent_foldl_act (hc : f.connections[id]? = some c) (h : c.Spent) (moves : List Move) :
    Frame.bodies (some c.client.limit) (c.process.output ++ f.emitted id moves) = [] ∧
      ∃ c', (moves.foldl act f).connections[id]? = some c' ∧
        f.posted id moves ++ c'.client.held.toList = c.client.held.toList := by
  induction moves generalizing f c with
  | nil => exact ⟨h.bodies [] (.inl rfl), c, hc, rfl⟩
  | cons move rest ih =>
    obtain ⟨c', hc', hgoes⟩ := goes_act hc move
    obtain ⟨h', houtput, hlimit, hevents⟩ := h.goes hgoes
    obtain ⟨hbodies, c'', hc'', hposted⟩ := ih hc' h'
    rw [hlimit, houtput, List.append_assoc] at hbodies
    refine ⟨hbodies, c'', hc'', ?_⟩
    rw [Fleet.posted, List.append_assoc, hposted, hevents]

theorem alive_foldl_act (hc : f.connections[id]? = some c) (moves : List Move) :
    ∃ c', (moves.foldl act f).connections[id]? = some c' ∧
      (c'.client.state.isAlive = true → c.client.state.isAlive = true) := by
  induction moves generalizing f c with
  | nil => exact ⟨c, hc, fun h => h⟩
  | cons move rest ih =>
    obtain ⟨c', hc', hgoes⟩ := goes_act hc move
    obtain ⟨c'', hc'', halive⟩ := ih hc'
    exact ⟨c'', hc'', fun h => hgoes.alive (halive h)⟩

theorem conveys_launched (plan : SpawnPlan) (name : String) (args : List String)
    (root : Option String) (path : String) (limit : Int) :
    (launched plan name args root path limit).Conveys name limit [] [] :=
  ⟨rfl, rfl, nofun, fun _ => rfl, fun _ => rfl, [], [], fun _ => rfl, rfl, fun _ => rfl, .inl rfl⟩

/-- What the reader of a client came to by some moves after its start: what it posted, and what it
holds for the queue to have room. -/
def reported (f : Fleet) (id : Nat) (moves : List Move) : List Event :=
  f.posted id moves ++ (((moves.foldl act f).client? id).bind Client.held).toList

/-- The reader of a client reports what comes out of its process. -/
structure Reports (f : Fleet) (id : Nat) (name : String) (limit : Int) (moves : List Move)
    (c : Connection) : Prop where
  /-- The messages that were taken are reported in order, those that were not are in the output, and
  nothing is reported behind the end. -/
  messages : ∃ taken last,
    Frame.bodies (some limit) (f.emitted id moves) =
      taken ++ Frame.bodies (some limit) c.process.output ∧
    f.reported id moves = taken.map (.response name) ++ last ∧
    (last = [] ∨ ∃ reason, last = [.crash name reason])
  /-- A reader that has nothing to post takes the message in front. -/
  takes : ∀ body later, c.client.held = none → c.client.reading = true →
    Frame.bodies (some limit) c.process.output = body :: later →
      ∃ rest, Frame.bodies (some limit) rest = later ∧
        ((moves ++ [Move.read id]).foldl act f).connections[id]? = some
          { process := { c.process with output := rest }
            client := { c.client with held := some (.response name body) } }
  /-- What the reader holds it posts as soon as the queue has room. -/
  room : ∀ event, c.client.held = some event →
    (moves.foldl act f).queue.length < (moves.foldl act f).capacity →
      f.posted id (moves ++ [.read id]) = f.posted id moves ++ [event]
  /-- A reader is at work until it comes to the end of the output. -/
  works : c.client.reading = true ∨ ∃ c₀ reason, f.Ended id moves c₀ reason
  /-- When the reader came to the end of the output, all messages are reported, and the end if the
  client was alive then. -/
  ends : ∀ c₀ reason, f.Ended id moves c₀ reason →
    f.reported id moves =
      (Frame.bodies (some limit) (f.emitted id moves)).map (.response name) ++
        if c₀.client.state.isAlive then [.crash name reason] else []
  /-- Once the output has ended or cannot be read on, the reader comes to the end and posts all of
  that, whatever else is done, if it has enough turns: two for each message and three more. -/
  finishes : c.AtEnd → ∀ future,
    2 * (Frame.bodies (some limit) c.process.output).length + 3 ≤
        (moves.foldl act f).turns id future →
      ∃ c₀ reason, f.Ended id (moves ++ future) c₀ reason ∧
        f.posted id (moves ++ future) =
          (Frame.bodies (some limit) (f.emitted id (moves ++ future))).map (.response name) ++
            if c₀.client.state.isAlive then [.crash name reason] else []
  /-- A client that is not alive waits for no answers. -/
  quits : c.client.state.isAlive = false → c.client.pending = []
  /-- A client that is not alive stays so. -/
  stays : ∀ past future c₀, moves = past ++ future →
    (past.foldl act f).connections[id]? = some c₀ → c₀.client.state.isAlive = false →
      c.client.state.isAlive = false

theorem reported_of_connection {moves : List Move}
    (hc : (moves.foldl act f).connections[id]? = some c) :
    f.reported id moves = f.posted id moves ++ c.client.held.toList := by
  rw [reported, client?, hc, Option.map_some, Option.bind_some]

/-- A reader that finds the end of the output ends. -/
theorem act_read_of_failure {reason : String} (hc : f.connections[id]? = some c)
    (hfailure : c.failure? = some reason) :
    f.act (.read id) = f.crashed id c.client reason := by
  obtain ⟨hheld, -, houtput⟩ := Connection.failure?_eq_some hfailure
  rw [act]
  rcases readStep?_cases hc with ⟨-, hnone, -⟩ | ⟨event, hsome, -, -⟩ |
    ⟨body, rest, -, -, hhas, hread, -⟩ | ⟨reason', hfailure', hstep⟩
  · rw [hnone] at hfailure
    cases hfailure
  · rw [hheld] at hsome
    cases hsome
  · rcases houtput with hnone | ⟨-, hsome⟩
    · exact absurd (hhas.symm.trans hnone) (by decide)
    · exact absurd hread (hsome body rest)
  · obtain rfl : reason = reason' := Option.some.inj (hfailure.symm.trans hfailure')
    rw [hstep, Option.getD_some]

theorem reported_of_failure {c₀ : Connection} {reason : String} {past future : List Move}
    (hc : f.connections[id]? = some c) (h : c.Conveys name limit [] [])
    (hc₀ : (past.foldl act f).connections[id]? = some c₀) (hfailure : c₀.failure? = some reason) :
    f.reported id (past ++ .read id :: future) =
      (Frame.bodies (some limit) (f.emitted id (past ++ .read id :: future))).map
        (.response name) ++ if c₀.client.state.isAlive then [.crash name reason] else [] := by
  obtain ⟨c', hc', h₀⟩ := conveys_foldl_act hc h past
  obtain rfl := Option.some.inj (hc₀.symm.trans hc')
  rw [List.nil_append, List.nil_append] at h₀
  have hread := act_read_of_failure hc₀ hfailure
  have hposts : (past.foldl act f).posts id (.read id) = [] := by
    rw [posts, if_pos rfl, hread, queue_crashed, List.drop_length]
  have hfailed : ((past.foldl act f).act (.read id)).connections[id]? =
      some { c₀ with client := c₀.client.failed reason } := by
    rw [hread, connections_crashed, connections_alter, if_pos rfl, hc₀, Option.map_some]
  obtain ⟨hbodies, c'', hc'', hposted⟩ :=
    spent_foldl_act hfailed (Connection.Spent.of_failure h₀ hfailure) future
  obtain ⟨hheld, hreading, -⟩ := Connection.failure?_eq_some hfailure
  obtain ⟨taken, last, htaken, hevents, hlast, -⟩ := h₀.events
  rw [hheld, Option.toList_none, List.append_nil, hlast hreading, List.append_nil] at hevents
  have hfoldl : ((past ++ .read id :: future).foldl act f).connections[id]? = some c'' := by
    rw [List.foldl_append, List.foldl_cons]
    exact hc''
  have hmessages : Frame.bodies (some limit) (f.emitted id (past ++ .read id :: future)) =
      taken := by
    have hemits : (past.foldl act f).emits id (.read id) = [] := rfl
    rw [emitted_append, Fleet.emitted, hemits, List.nil_append, htaken]
    rw [(Client.failed_eq c₀.client reason).2, h₀.limited] at hbodies
    rw [hbodies, List.append_nil]
  rw [reported_of_connection hfoldl, posted_append, Fleet.posted, hposts, List.nil_append,
    List.append_assoc, hposted, hevents, hmessages, Connection.held_failed, Connection.lastEvents,
    h₀.named]

theorem posted_read {event : Event} (hc : f.connections[id]? = some c)
    (hheld : c.client.held = some event) (hroom : f.queue.length < f.capacity) :
    f.posted id [.read id] = [event] := by
  have hstep : f.readStep? id = some { f.modifyClient id fun c => { c with held := none } with
      queue := f.queue ++ [event] } := by
    obtain ⟨process, client⟩ := c
    rw [readStep?, hc]
    dsimp only at hheld ⊢
    rw [hheld]
    dsimp only
    rw [if_pos hroom]
    rfl
  rw [posted, posted, posts, if_pos rfl, act, hstep, Option.getD_some, List.drop_left]
  rfl

/-- A message in front is what the next step of the reader takes. -/
theorem connection_read_of_bodies {body : Bytes} {later : List Bytes}
    (hc : f.connections[id]? = some c) (h : c.Conveys name limit emitted posted)
    (hheld : c.client.held = none) (hreading : c.client.reading = true)
    (hbodies : Frame.bodies (some limit) c.process.output = body :: later) :
    ∃ rest, Frame.bodies (some limit) rest = later ∧
      (f.act (.read id)).connections[id]? = some
        { process := { c.process with output := rest }
          client := { c.client with held := some (.response name body) } } := by
  obtain ⟨rest, hread, hlater⟩ := Frame.read_of_bodies hbodies c.process.ending
  have houtput : c.process.hasOutput = true := by
    by_contra hnone
    rw [h.silent (Bool.eq_false_iff.2 hnone)] at hbodies
    cases hbodies
  refine ⟨rest, hlater, ?_⟩
  rw [← h.limited] at hread
  obtain ⟨process, client⟩ := c
  dsimp only at hheld hreading houtput hread
  rw [act, readStep?, hc]
  simp only [hheld, hreading, houtput, hread, Bool.not_true, Bool.false_eq_true, if_false,
    Option.getD_some, modifyClient, modifyProcess, connections_alter, if_true, hc, Option.map_some]
  rw [h.named]

theorem posted_of_turns {future : List Move} (hc : f.connections[id]? = some c)
    (h : c.Conveys name limit [] []) (hreading : c.client.reading = true) {moves : List Move}
    {c' : Connection} (hc' : (moves.foldl act f).connections[id]? = some c') (hend : c'.AtEnd)
    (hturns : c'.due ≤ (moves.foldl act f).turns id future) :
    ∃ c₀ reason, f.Ended id (moves ++ future) c₀ reason ∧
      f.posted id (moves ++ future) =
        (Frame.bodies (some limit) (f.emitted id (moves ++ future))).map (.response name) ++
          if c₀.client.state.isAlive then [.crash name reason] else [] := by
  obtain ⟨c'', hc'', hdue⟩ := due_foldl_act hc' hend future
  obtain ⟨hended, hheld⟩ := Connection.due_eq_zero (c := c'') (by omega)
  rw [← List.foldl_append] at hc''
  obtain ⟨c₀, reason, hfound⟩ := ended_of_not_reading hc hreading hc'' hended
  refine ⟨c₀, reason, hfound, ?_⟩
  obtain ⟨past, later, hmoves, hc₀, hfailure⟩ := hfound
  have hreported := reported_of_connection hc''
  rw [hheld, Option.toList_none, List.append_nil] at hreported
  rw [← hreported, hmoves]
  exact reported_of_failure hc h hc₀ hfailure

/-- From the start of a client its reader reports what comes out of its process, however the host,
the process and the readers take turns. -/
theorem reports_of_launch {args : List String} {root : Option String} {path : String}
    (hlaunch : (f.launch name args root path limit).1 = .ok id) (moves : List Move) :
    let f₀ := (f.launch name args root path limit).2
    ∃ c, (moves.foldl act f₀).connections[id]? = some c ∧ f₀.Reports id name limit moves c := by
  intro f₀
  obtain ⟨-, plan, hbegun⟩ := connection_launch hlaunch
  have hlaunched := conveys_launched plan name args root path limit
  obtain ⟨c, hc, h⟩ := conveys_foldl_act hbegun hlaunched moves
  rw [List.nil_append, List.nil_append] at h
  refine ⟨c, hc, ?messages, ?takes, ?room, ?works, ?ends, ?finishes, h.quits, ?stays⟩
  case messages =>
    obtain ⟨taken, last, hbodies, hevents, -, hlast⟩ := h.events
    have hnow := hbodies []
    rw [List.append_nil, List.append_nil] at hnow
    exact ⟨taken, last, hnow, (reported_of_connection hc).trans hevents, hlast⟩
  case takes =>
    intro body later hheld hreading hbodies
    rw [List.foldl_append]
    exact connection_read_of_bodies hc h hheld hreading hbodies
  case room =>
    intro event hheld hroom
    rw [posted_append, posted_read hc hheld hroom]
  case works =>
    cases hreading : c.client.reading with
    | true => exact .inl rfl
    | false => exact .inr (ended_of_not_reading hbegun rfl hc hreading)
  case ends =>
    rintro c₀ reason ⟨past, future, rfl, hc₀, hfailure⟩
    exact reported_of_failure hbegun hlaunched hc₀ hfailure
  case finishes =>
    intro hend future hturns
    have hdue := c.due_le
    rw [h.limited] at hdue
    exact posted_of_turns hbegun hlaunched rfl hc hend (Nat.le_trans hdue hturns)
  case stays =>
    rintro past future c₀ rfl hc₀ hdead
    obtain ⟨c', hc', halive⟩ := alive_foldl_act hc₀ future
    rw [List.foldl_append] at hc
    obtain rfl := Option.some.inj (hc.symm.trans hc')
    exact Bool.eq_false_iff.2 fun h => absurd (hdead.symm.trans (halive h)) (by decide)

/-- A server sends one message and closes its output, and the queue has room for one event. -/
theorem reports_of_launch_ending :
    let f : Fleet := { capacity := 1 }
    let f₀ := (f.launch "s" [] none "/a" 100).2
    let moves : List Move := [.emit 0 (Frame.encode [123, 125]), .finish 0 .closed]
    let future : List Move :=
      [.read 0, .read 0, .read 0, .read 0, .take, .read 0, .take, .read 0, .read 0]
    (f.launch "s" [] none "/a" 100).1 = .ok 0 ∧
      f₀.posted 0 (moves ++ future) =
        [.response "s" [123, 125], .crash "s" "s closed its output"] ∧
      (∃ c, (moves.foldl act f₀).connections[0]? = some c ∧ f₀.Reports 0 "s" 100 moves c ∧
        c.AtEnd ∧ 2 * (Frame.bodies (some 100) c.process.output).length + 3 ≤
          (moves.foldl act f₀).turns 0 future) ∧
      ∃ c, ((moves ++ future).foldl act f₀).connections[0]? = some c ∧
        f₀.Reports 0 "s" 100 (moves ++ future) c := by
  intro f f₀ moves future
  have hlaunch : (f.launch "s" [] none "/a" 100).1 = .ok 0 := by rfl
  obtain ⟨c, hc, hreports⟩ := reports_of_launch hlaunch moves
  have hnow : (moves.foldl act f₀).connections[0]?.map (fun c =>
      (c.process.ending, 2 * (Frame.bodies (some 100) c.process.output).length + 3)) =
        some (.closed, 5) := by decide +kernel
  have hturns : (moves.foldl act f₀).turns 0 future = 5 := by decide +kernel
  rw [hc, Option.map_some, Option.some.injEq, Prod.mk.injEq] at hnow
  refine ⟨hlaunch, by decide +kernel, ⟨c, hc, hreports, ?_, ?_⟩, reports_of_launch hlaunch _⟩
  · exact .inr (.inl (by rw [hnow.1]; decide))
  · exact Nat.le_of_eq (hnow.2.trans hturns.symm)

end Fleet

end TextEditor.Server
