import TextEditor.Proofs.Server.Easing
import TextEditor.Proofs.Server.Pairing

/-!
# The numbers of requests

A client numbers its requests from zero, and a number is used up only when its request has reached
the process.  Writes fail as the pipe has it, answers are matched under any number and in any order,
and the server may stop in between: the requests that arrived carry the numbers without a gap, and
the client waits for those of them that were not matched yet.
-/

namespace TextEditor.Server

/-- A message as it arrived at a process; a request with what it asked for. -/
inductive Parcel where
  | request (number : Nat) (method : String) (params : Option Json) (kind : RequestKind)
  | notification (method : String) (params : Option Json)
  | answer (message : Json)

namespace Parcel

def json : Parcel → Json
  | .request number method params _ => Message.request number method params
  | .notification method params => Message.notification method params
  | .answer message => message

def frame (m : Parcel) : Bytes :=
  Frame.encodeJson m.json

/-- The number of a request, and what it asked for. -/
def entry? : Parcel → Option (Nat × RequestKind)
  | .request number _ _ kind => some (number, kind)
  | _ => none

end Parcel

/-- The requests among some messages. -/
def requests (parcels : List Parcel) : List (Nat × RequestKind) :=
  parcels.filterMap Parcel.entry?

theorem requests_append (parcels more : List Parcel) :
    requests (parcels ++ more) = requests parcels ++ requests more :=
  List.filterMap_append

/-- What arrived at a process and what was matched, against its client: the requests that arrived
are numbered from zero, none was matched twice, and a client that is alive waits for the others. -/
structure Numbers (parcels : List Parcel) (matched : List (Int × RequestKind)) (c : Connection) :
    Prop where
  received : c.process.received = parcels.map Parcel.frame
  numbered : (requests parcels).map Prod.fst = List.range c.client.nextId
  once : (matched.map Prod.fst).Nodup
  asked : ∀ number kind, (number, kind) ∈ matched →
    ∃ n : Nat, number = n ∧ (n, kind) ∈ requests parcels
  waits : c.client.state.isAlive = true → c.client.pending =
    (requests parcels).filter fun entry => (entry.1 : Int) ∉ matched.map Prod.fst
  quits : c.client.Quits

/-! ## What a move does to a client -/

/-- Nothing arrives, and nothing is matched; the client may stop. -/
structure Connection.Idles (c c' : Connection) : Prop where
  received : c'.process.received = c.process.received
  nextId : c'.client.nextId = c.client.nextId
  waits : (c'.client.state.isAlive = c.client.state.isAlive ∧
      c'.client.pending = c.client.pending) ∨
    (c'.client.state.isAlive = false ∧ c'.client.pending = [])

/-- What a move can do to a connection, with the messages that arrive and what is matched. -/
inductive Connection.Deals (c : Connection) :
    Connection → List Parcel → List (Int × RequestKind) → Prop
  | asks (method : String) (params : Option Json) (kind : RequestKind)
    (halive : c.client.state.isAlive = true) :
    c.Deals (c.ask (Frame.encodeJson (Message.request c.client.nextId method params)) kind)
      [.request c.client.nextId method params kind] []
  | tells {m : Parcel} (hm : m.entry? = none) : c.Deals (c.receive m.frame) [m] []
  | pops {number : Int} {kind : RequestKind} (hkind : (c.client.pop number).1 = some kind) :
    c.Deals { c with client := (c.client.pop number).2 } [] [(number, kind)]
  | idles {c' : Connection} (hidles : c.Idles c') : c.Deals c' [] []

namespace Connection

variable {c c' : Connection}

theorem Idles.refl (c : Connection) : c.Idles c :=
  ⟨rfl, rfl, .inl ⟨rfl, rfl⟩⟩

theorem idles_process (c : Connection) {p : Subprocess}
    (hreceived : p.received = c.process.received) : c.Idles { c with process := p } :=
  ⟨hreceived, rfl, .inl ⟨rfl, rfl⟩⟩

theorem idles_terminated (c : Connection) : c.Idles { c with client := c.client.terminated } :=
  ⟨rfl, rfl, .inr ⟨rfl, rfl⟩⟩

theorem idles_stopped (c : Connection) : c.Idles c.stopped :=
  ⟨rfl, rfl, .inr ⟨rfl, rfl⟩⟩

theorem idles_markReady (c : Connection) : c.Idles { c with client := c.client.markReady } := by
  unfold Client.markReady
  split
  · next hstarting => exact ⟨rfl, rfl, .inl ⟨by rw [hstarting]; rfl, rfl⟩⟩
  · exact .refl c

theorem idles_held (c : Connection) (output : Bytes) (held : Option Event) :
    c.Idles { process := { c.process with output }, client := { c.client with held } } :=
  ⟨rfl, rfl, .inl ⟨rfl, rfl⟩⟩

theorem idles_failed (c : Connection) (reason : String) :
    c.Idles { c with client := c.client.failed reason } := by
  unfold Client.failed Client.crash
  dsimp only
  split
  · exact ⟨rfl, rfl, .inr ⟨rfl, rfl⟩⟩
  · exact ⟨rfl, rfl, .inl ⟨rfl, rfl⟩⟩

end Connection

namespace Numbers

variable {parcels : List Parcel} {matched : List (Int × RequestKind)} {c c' : Connection}

theorem lt_nextId (h : Numbers parcels matched c) {entry : Nat × RequestKind}
    (hentry : entry ∈ requests parcels) : entry.1 < c.client.nextId := by
  have hrange := List.mem_map_of_mem (f := Prod.fst) hentry
  rwa [h.numbered, List.mem_range] at hrange

theorem not_mem_matched (h : Numbers parcels matched c) :
    (c.client.nextId : Int) ∉ matched.map Prod.fst := by
  intro hmem
  obtain ⟨⟨number, kind⟩, hmatched, hnumber⟩ := List.mem_map.1 hmem
  obtain ⟨n, hn, hasked⟩ := h.asked number kind hmatched
  have hlt : n < c.client.nextId := h.lt_nextId hasked
  dsimp only at hnumber
  omega

theorem ask (h : Numbers parcels matched c) (halive : c.client.state.isAlive = true)
    (method : String) (params : Option Json) (kind : RequestKind) :
    Numbers (parcels ++ [.request c.client.nextId method params kind]) matched
      (c.ask (Frame.encodeJson (Message.request c.client.nextId method params)) kind) where
  received := by
    rw [List.map_append, ← h.received]
    rfl
  numbered := by
    rw [requests_append, List.map_append, h.numbered]
    exact List.range_succ.symm
  once := h.once
  asked number kind hmatched := by
    obtain ⟨n, hn, hasked⟩ := h.asked number kind hmatched
    exact ⟨n, hn, by rw [requests_append]; exact List.mem_append_left _ hasked⟩
  waits _ := by
    have hnew : requests [.request c.client.nextId method params kind] =
        [(c.client.nextId, kind)] := rfl
    rw [requests_append, List.filter_append, ← h.waits halive, hnew,
      List.filter_cons_of_pos (by simpa using h.not_mem_matched), List.filter_nil]
    rfl
  quits hdead := absurd (halive.symm.trans hdead) (by decide)

theorem receive (h : Numbers parcels matched c) {m : Parcel} (hm : m.entry? = none) :
    Numbers (parcels ++ [m]) matched (c.receive m.frame) := by
  have hsame : requests (parcels ++ [m]) = requests parcels := by
    rw [requests_append, requests, requests, List.filterMap_cons_none hm, List.filterMap_nil,
      List.append_nil]
  refine ⟨?_, ?_, h.once, ?_, ?_, h.quits⟩
  · rw [List.map_append, ← h.received]
    rfl
  · rw [hsame]
    exact h.numbered
  · rw [hsame]
    exact h.asked
  · rw [hsame]
    exact h.waits

theorem pop (h : Numbers parcels matched c) {number : Int} {kind : RequestKind}
    (hkind : (c.client.pop number).1 = some kind) :
    Numbers parcels (matched ++ [(number, kind)])
      { c with client := (c.client.pop number).2 } := by
  obtain ⟨n, rfl, hmem, hpop⟩ := Client.pop_eq_some hkind
  have halive : c.client.state.isAlive = true := by
    by_contra hdead
    rw [h.quits (Bool.eq_false_iff.2 hdead)] at hmem
    cases hmem
  have hwaits := h.waits halive
  rw [hwaits] at hmem
  obtain ⟨hasked, hnew⟩ := List.mem_filter.1 hmem
  have hnew : (n : Int) ∉ matched.map Prod.fst := of_decide_eq_true hnew
  rw [hpop]
  refine ⟨h.received, h.numbered, ?_, ?_, fun _ => ?_, fun hdead => ?_⟩
  · rw [List.map_append]
    refine List.nodup_append.2 ⟨h.once, List.pairwise_singleton _ _, ?_⟩
    rintro number hold _ hlast rfl
    rw [List.mem_singleton.1 hlast] at hold
    exact hnew hold
  · intro number' kind' hmatched
    rcases List.mem_append.1 hmatched with hold | hlast
    · exact h.asked number' kind' hold
    · obtain ⟨rfl, rfl⟩ := Prod.mk.inj (List.mem_singleton.1 hlast)
      exact ⟨n, rfl, hasked⟩
  · dsimp only
    rw [hwaits, List.filter_filter]
    refine List.filter_congr fun entry _ => ?_
    rw [List.map_append, ← Bool.decide_and]
    refine decide_eq_decide.2 ?_
    simp only [List.mem_append, not_or, List.map_cons, List.map_nil, List.mem_singleton, ne_eq,
      Int.natCast_inj]
    exact and_comm
  · exact absurd (halive.symm.trans hdead) (by decide)

theorem idle (h : Numbers parcels matched c) (hidles : c.Idles c') :
    Numbers parcels matched c' where
  received := hidles.received.trans h.received
  numbered := hidles.nextId ▸ h.numbered
  once := h.once
  asked := h.asked
  waits halive := by
    rcases hidles.waits with ⟨hsame, hpending⟩ | ⟨hdead, -⟩
    · rw [hpending]
      exact h.waits (hsame ▸ halive)
    · exact absurd (halive.symm.trans hdead) (by decide)
  quits hdead := by
    rcases hidles.waits with ⟨hsame, hpending⟩ | ⟨-, hnone⟩
    · rw [hpending]
      exact h.quits (hsame ▸ hdead)
    · exact hnone

theorem deals (h : Numbers parcels matched c) {more : List Parcel}
    {others : List (Int × RequestKind)} (hdeals : c.Deals c' more others) :
    Numbers (parcels ++ more) (matched ++ others) c' := by
  cases hdeals with
  | asks method params kind halive =>
    rw [List.append_nil]
    exact h.ask halive method params kind
  | tells hm =>
    rw [List.append_nil]
    exact h.receive hm
  | pops hkind =>
    rw [List.append_nil]
    exact h.pop hkind
  | idles hidles =>
    rw [List.append_nil, List.append_nil]
    exact h.idle hidles

theorem connect (plan : SpawnPlan) (name : String) (args : List String) (root : Option String)
    (limit : Int) : Numbers [] [] (Fleet.connect plan name args root limit) :=
  ⟨rfl, rfl, List.nodup_nil, nofun, fun _ => rfl, fun _ => rfl⟩

end Numbers

/-! ## Runs -/

/-- A move, or a pipe that takes messages again. -/
inductive Happening where
  | move (move : Move)
  | mend (id : Nat)

/-- The request with which a start begins. -/
def Parcel.start (name : String) (root : Option String) (path : String) : Parcel :=
  .request 0 Method.start (some (Message.startParams name root)) (.start path)

namespace Fleet

variable {f f' : Fleet} {id i : Nat} {c c' : Connection}
variable {parcels : List Parcel} {matched : List (Int × RequestKind)}

/-- The fleet after something happened, whether it fails or not. -/
def happen (f : Fleet) : Happening → Fleet
  | .move move => f.act move
  | .mend id => f.modifyProcess id fun p => { p with inputFault := none }

/-- What arrives at a process from a step that sends a message to one, by the answer of the step. -/
def arrives {α : Type} (id i : Nat) (parcel : α → Parcel) : Except Fault α → List Parcel
  | .ok a => if i = id then [parcel a] else []
  | .error _ => []

/-- The messages that arrive at a process. -/
def sends (f : Fleet) (id : Nat) : Happening → List Parcel
  | .move (.launch name args root path limit) =>
    match (f.launch name args root path limit).1 with
    | .ok i => if i = id then [.start name root path] else []
    | .error _ => []
  | .move (.request i method params kind) =>
    arrives id i (.request · method params kind) ((sendRequest i method params kind).start f).1
  | .move (.notify i method params) =>
    arrives id i (fun _ => .notification method params)
      ((sendNotification i method params).start f).1
  | .move (.respond i message) =>
    match Message.reply message with
    | .ok answer => arrives id i (fun _ => .answer answer) ((sendResponse i message).start f).1
    | .error _ => []
  | _ => []

/-- The request of a client that is matched, by the answer of the step that matches it. -/
def matches? (f : Fleet) (id : Nat) : Happening → Option (Int × RequestKind)
  | .move (.pop i number) =>
    if i = id then (f.popRequest i number).1.map fun kind => (number, kind) else none
  | _ => none

/-- The messages that arrive at a process in a run. -/
def sent (f : Fleet) (id : Nat) : List Happening → List Parcel
  | [] => []
  | happening :: rest => f.sends id happening ++ (f.happen happening).sent id rest

/-- The requests of a client that are matched in a run. -/
def reconciled (f : Fleet) (id : Nat) : List Happening → List (Int × RequestKind)
  | [] => []
  | happening :: rest =>
    (f.matches? id happening).toList ++ (f.happen happening).reconciled id rest

/-- From one fleet to the other: nothing but a deal for a connection that is there, and for one
that is not, its beginning at most. -/
inductive Dealt (f : Fleet) (id : Nat) (f' : Fleet) :
    List Parcel → List (Int × RequestKind) → Prop
  | deals {parcels : List Parcel} {matched : List (Int × RequestKind)} {c c' : Connection}
    (hc : f.connections[id]? = some c) (hc' : f'.connections[id]? = some c')
    (hdeals : c.Deals c' parcels matched) : Dealt f id f' parcels matched
  | absent (hc : f.connections[id]? = none) (hc' : f'.connections[id]? = none) :
    Dealt f id f' [] []
  | born {parcels : List Parcel} {c' : Connection} (hc : f.connections[id]? = none)
    (hc' : f'.connections[id]? = some c') (hnumbers : Numbers parcels [] c') :
    Dealt f id f' parcels []

theorem Dealt.of_eq (h : f'.connections[id]? = f.connections[id]?) : Dealt f id f' [] [] := by
  cases hc : f.connections[id]? with
  | none => exact .absent hc (h.trans hc)
  | some c => exact .deals hc (h.trans hc) (.idles (.refl c))

theorem dealt_alter {change : Connection → Connection}
    (h : ∀ c, f.connections[i]? = some c → i = id → c.Deals (change c) parcels matched)
    (hother : i ≠ id → parcels = [] ∧ matched = [])
    (hnone : f.connections[i]? = none → parcels = [] ∧ matched = []) :
    Dealt f id (f.alter i change) parcels matched := by
  by_cases hid : i = id
  · subst hid
    cases hc : f.connections[i]? with
    | none =>
      obtain ⟨rfl, rfl⟩ := hnone hc
      exact .absent hc (by rw [connections_alter, if_pos rfl, hc, Option.map_none])
    | some c =>
      exact .deals hc (by rw [connections_alter, if_pos rfl, hc, Option.map_some]) (h c hc rfl)
  · obtain ⟨rfl, rfl⟩ := hother hid
    exact .of_eq (by rw [connections_alter, if_neg hid])

theorem dealt_idle (id : Nat) (change : Connection → Connection)
    (h : ∀ c, f.connections[i]? = some c → c.Idles (change c)) :
    Dealt f id (f.alter i change) [] [] :=
  dealt_alter (fun c hc _ => .idles (h c hc)) (fun _ => ⟨rfl, rfl⟩) fun _ => ⟨rfl, rfl⟩

theorem Dealt.of_connections {f'' : Fleet} (h : Dealt f id f' parcels matched)
    (heq : f''.connections = f'.connections) : Dealt f id f'' parcels matched := by
  cases h with
  | deals hc hc' hdeals => exact .deals hc (by rwa [heq]) hdeals
  | absent hc hc' => exact .absent hc (by rwa [heq])
  | born hc hc' hnumbers => exact .born hc (by rwa [heq]) hnumbers

/-- A step that sends: its message arrives if it comes about, at a client that is alive. -/
theorem dealt_sent {α : Type} {change : Connection → Connection} {parcel : α → Parcel}
    {result : Except Fault α × Fleet} (id : Nat) (hsent : Sent f i change result)
    (hdone : ∀ a c, result.1 = .ok a → f.connections[i]? = some c →
      c.client.state.isAlive = true → c.Deals (change c) [parcel a] []) :
    Dealt f id result.2 (arrives id i parcel result.1) [] := by
  cases hsent with
  | failed fault => exact .of_eq rfl
  | done a hc halive hconnections =>
    refine (dealt_alter (fun c' hc' hid => ?_) (fun hid => ⟨if_neg hid, rfl⟩)
      fun hnone => absurd (hc.symm.trans hnone) (Option.some_ne_none _)).of_connections hconnections
    obtain rfl := Option.some.inj (hc.symm.trans hc')
    simp only [if_pos hid]
    exact hdone a _ rfl hc halive

/-! ## One happening -/

theorem number_of_sendRequest {method : String} {params : Option Json} {kind : RequestKind}
    {number : Nat} (h : ((sendRequest i method params kind).start f).1 = .ok number) :
    number = ((f.client? i).map Client.nextId).getD 0 := by
  rw [sendRequest, Step.start_bind, Step.start_get] at h
  dsimp only at h
  rw [Step.start_bind] at h
  generalize (write i _ method).start f = result at h
  obtain ⟨outcome, f'⟩ := result
  cases outcome with
  | error fault => cases h
  | ok _ => exact (Except.ok.inj h).symm

theorem dealt_request (f : Fleet) (id i : Nat) (method : String) (params : Option Json)
    (kind : RequestKind) :
    Dealt f id ((sendRequest i method params kind).start f).2
      (f.sends id (.move (.request i method params kind))) [] := by
  refine dealt_sent id (sent_sendRequest f i method params kind)
    fun number c hnumber hc halive => ?_
  obtain rfl := number_of_sendRequest hnumber
  rw [requestFrame, nextId_of_connection hc]
  exact .asks method params kind halive

theorem dealt_notify (f : Fleet) (id i : Nat) (method : String) (params : Option Json) :
    Dealt f id ((sendNotification i method params).start f).2
      (f.sends id (.move (.notify i method params))) [] :=
  dealt_sent id (sent_sendNotification f i method params) fun _ _ _ _ _ =>
    .tells (m := .notification method params) rfl

theorem dealt_respond (f : Fleet) (id i : Nat) (message : Json) :
    Dealt f id ((sendResponse i message).start f).2
      (f.sends id (.move (.respond i message))) [] := by
  simp only [sends]
  rw [start_sendResponse]
  cases hanswer : answerTo f.nesting message with
  | error fault =>
    cases Message.reply message <;> exact .of_eq rfl
  | ok answer =>
    rw [answerTo_eq_ok hanswer]
    exact dealt_sent id (sent_write f i answer _) fun _ _ _ _ _ =>
      .tells (m := .answer answer) rfl

theorem getElem?_concat (connections : List Connection) (c : Connection) (id : Nat) :
    (connections ++ [c])[id]? = if id = connections.length then some c else connections[id]? := by
  split
  · next hid => rw [hid, List.getElem?_concat_length]
  · next hid =>
    rcases Nat.lt_or_ge id connections.length with hlt | hge
    · exact List.getElem?_append_left hlt
    · rw [List.getElem?_eq_none (by simp only [List.length_append, List.length_singleton]; omega),
        List.getElem?_eq_none hge]

theorem dealt_concat (id : Nat) (hconnections : f'.connections = f.connections ++ [c])
    (hnumbers : Numbers parcels [] c) :
    Dealt f id f' (if f.connections.length = id then parcels else []) [] := by
  split
  · next hid =>
    subst hid
    exact .born (List.getElem?_eq_none (Nat.le_refl _))
      (by rw [hconnections, List.getElem?_concat_length]) hnumbers
  · next hid =>
    exact .of_eq (by rw [hconnections, getElem?_concat, if_neg (Ne.symm hid)])

theorem numbers_launched (plan : SpawnPlan) (name : String) (args : List String)
    (root : Option String) (path : String) (limit : Int) :
    Numbers [.start name root path] [] (launched plan name args root path limit) :=
  ⟨rfl, rfl, List.nodup_nil, nofun, fun _ => rfl, nofun⟩

theorem dealt_launch (f : Fleet) (id : Nat) (name : String) (args : List String)
    (root : Option String) (path : String) (limit : Int) :
    Dealt f id (f.launch name args root path limit).2
      (f.sends id (.move (.launch name args root path limit))) [] := by
  simp only [sends]
  obtain ⟨fault, f', hlaunch, hconnections⟩ | ⟨plan, hplan⟩ :=
    launch_cases name args root path limit f
  · rw [hlaunch]
    exact .of_eq (by rw [hconnections])
  have hconnect := Numbers.connect plan name args root limit
  obtain ⟨fault, f', hlaunch, hconnections⟩ | ⟨fault, f', -, hlaunch, hconnections⟩ |
    ⟨f', hlaunch, hconnections⟩ := hplan <;> rw [hlaunch]
  · have hdealt := dealt_concat id hconnections
      (hconnect.idle (Connection.idles_stopped _))
    rwa [ite_self] at hdealt
  · have hdealt := dealt_concat id hconnections hconnect
    rwa [ite_self] at hdealt
  · exact dealt_concat id hconnections (numbers_launched plan name args root path limit)

theorem dealt_pop (f : Fleet) (id i : Nat) (number : Int) :
    Dealt f id (f.popRequest i number).2 []
      (f.matches? id (.move (.pop i number))).toList := by
  simp only [matches?]
  cases hclient : f.client? i with
  | none =>
    have hnone : f.popRequest i number = (none, f) := by rw [popRequest, hclient]
    rw [hnone, Option.map_none, ite_self]
    exact .of_eq rfl
  | some client =>
    obtain ⟨c, hc, rfl⟩ := Option.map_eq_some_iff.1 hclient
    rw [popRequest_of_client? hclient]
    refine dealt_alter (fun c' hc' hid => ?_) (fun hid => ⟨rfl, by rw [if_neg hid]; rfl⟩)
      fun hnone => absurd (hc.symm.trans hnone) (Option.some_ne_none _)
    obtain rfl := Option.some.inj (hc.symm.trans hc')
    rw [if_pos hid]
    cases hkind : (c.client.pop number).1 with
    | none =>
      rw [Client.pop_eq_none hkind]
      exact .idles (.refl c)
    | some kind => exact .pops hkind

theorem dealt_read (f : Fleet) (id i : Nat) : Dealt f id (f.act (.read i)) [] [] := by
  rw [act]
  cases hc : f.connections[i]? with
  | none =>
    rw [readStep?, hc]
    exact .of_eq rfl
  | some c =>
    rcases readStep?_cases hc with ⟨hstep, -⟩ | ⟨event, -, -, hstep⟩ |
      ⟨body, rest, -, -, -, -, hstep⟩ | ⟨reason, -, hstep⟩ <;> rw [hstep]
    · exact .of_eq rfl
    · have hidle : Dealt f id (f.modifyClient i fun c => { c with held := none }) [] [] :=
        dealt_idle id _ fun c _ => c.idles_held c.process.output none
      exact hidle.of_connections rfl
    · have hidle := dealt_idle (f := f) (i := i) id _ fun c _ =>
        Connection.idles_held c rest (some (.response c.client.name body))
      exact hidle.of_connections (List.modify_modify_eq ..)
    · refine (dealt_idle id _ fun c' hc' => ?_).of_connections
        (connections_crashed f i c.client reason)
      obtain rfl := Option.some.inj (hc.symm.trans hc')
      exact c.idles_failed reason

/-- What happens is a deal. -/
theorem dealt_happen (f : Fleet) (id : Nat) (happening : Happening) :
    Dealt f id (f.happen happening) (f.sends id happening)
      (f.matches? id happening).toList := by
  cases happening with
  | mend i => exact dealt_idle id _ fun c _ => c.idles_process rfl
  | move move =>
    cases move with
    | launch name args root path limit => exact dealt_launch f id name args root path limit
    | request i method params kind => exact dealt_request f id i method params kind
    | notify i method params => exact dealt_notify f id i method params
    | respond i message => exact dealt_respond f id i message
    | pop i number => exact dealt_pop f id i number
    | markReady i => exact dealt_idle id _ fun c _ => c.idles_markReady
    | retire i => exact dealt_idle id _ fun c _ => c.idles_terminated
    | terminate i =>
      rcases terminate_cases f i with ⟨-, hsame⟩ | hstopped
      · exact .of_eq (congrArg (fun f : Fleet => f.connections[id]?) hsame)
      · exact (dealt_idle id _ fun c _ => c.idles_stopped).of_connections hstopped
    | take => exact .of_eq rfl
    | post event => exact .of_eq rfl
    | breakPipe i fault => exact dealt_idle id _ fun c _ => c.idles_process rfl
    | emit i bytes =>
      refine dealt_idle id _ fun c _ => c.idles_process ?_
      dsimp only
      split <;> rfl
    | finish i ending =>
      refine dealt_idle id _ fun c _ => c.idles_process ?_
      dsimp only
      split <;> rfl
    | read i => exact dealt_read f id i

/-! ## All that happens -/

/-- The numbers are right for a client that is there; for one that is not there is nothing yet. -/
def Counted (f : Fleet) (id : Nat) (parcels : List Parcel) (matched : List (Int × RequestKind)) :
    Prop :=
  match f.connections[id]? with
  | none => parcels = [] ∧ matched = []
  | some c => Numbers parcels matched c

theorem Counted.dealt (h : Counted f id parcels matched) {more : List Parcel}
    {others : List (Int × RequestKind)} (hdealt : Dealt f id f' more others) :
    Counted f' id (parcels ++ more) (matched ++ others) := by
  unfold Counted at h ⊢
  cases hdealt with
  | deals hc hc' hdeals =>
    rw [hc] at h
    rw [hc']
    exact h.deals hdeals
  | absent hc hc' =>
    rw [hc] at h
    rw [hc', h.1, h.2]
    exact ⟨rfl, rfl⟩
  | born hc hc' hnumbers =>
    rw [hc] at h
    rw [hc', h.1, h.2]
    exact hnumbers

theorem counted_run (h : Counted f id parcels matched) (happenings : List Happening) :
    Counted (happenings.foldl happen f) id (parcels ++ f.sent id happenings)
      (matched ++ f.reconciled id happenings) := by
  induction happenings generalizing f parcels matched with
  | nil => rwa [sent, reconciled, List.append_nil, List.append_nil]
  | cons happening rest ih =>
    rw [List.foldl_cons, sent, reconciled, ← List.append_assoc, ← List.append_assoc]
    exact ih (h.dealt (dealt_happen f id happening))

/-- A message that cannot be sent leaves everything as it was. -/
structure Forgoes (f : Fleet) : Prop where
  request : ∀ i method params kind fault,
    ((sendRequest i method params kind).start f).1 = .error fault →
      ((sendRequest i method params kind).start f).2 = f
  notification : ∀ i method params fault,
    ((sendNotification i method params).start f).1 = .error fault →
      ((sendNotification i method params).start f).2 = f
  response : ∀ i message fault, ((sendResponse i message).start f).1 = .error fault →
    ((sendResponse i message).start f).2 = f

theorem Sent.eq_of_error {α : Type} {change : Connection → Connection}
    {result : Except Fault α × Fleet} (h : Sent f i change result) {fault : Fault}
    (hfault : result.1 = .error fault) : result.2 = f := by
  cases h with
  | failed _ => rfl
  | done a _ _ _ => cases hfault

theorem forgoes (f : Fleet) : f.Forgoes where
  request i method params kind _ := (sent_sendRequest f i method params kind).eq_of_error
  notification i method params _ := (sent_sendNotification f i method params).eq_of_error
  response i message _ := by
    obtain ⟨number, result, hsent⟩ := sent_sendResponse f i message
    exact hsent.eq_of_error

/-- In every run of a client, whatever fails and whatever is matched in whatever order: the requests
that arrive are numbered from zero without a gap, the client waits for those that were not matched
as long as it is alive, none is matched twice, and what cannot be sent changes nothing. -/
theorem numbers_of_run (hid : f.connections.length ≤ id) (happenings : List Happening)
    (hc : (happenings.foldl happen f).connections[id]? = some c) :
    Numbers (f.sent id happenings) (f.reconciled id happenings) c ∧
      (happenings.foldl happen f).Forgoes := by
  refine ⟨?_, forgoes _⟩
  have hnone : Counted f id [] [] := by
    rw [Counted, List.getElem?_eq_none hid]
    exact ⟨rfl, rfl⟩
  have hcounted := counted_run hnone happenings
  rw [Counted, hc] at hcounted
  exact hcounted

/-- A run in which a request is lost and the one after it takes its number, and answers come out of
order and twice. -/
theorem numbers_of_run_failing :
    let f : Fleet := { capacity := 1 }
    let tokens := RequestKind.tokens "file:///a" 0
    let happenings : List Happening :=
      [.move (.launch "s" [] none "/a" 100), .move (.request 0 "m" none tokens),
        .move (.breakPipe 0 ⟨.value, "closed"⟩), .move (.request 0 "m" none tokens), .mend 0,
        .move (.request 0 "m" none tokens), .move (.pop 0 2), .move (.pop 0 7), .move (.pop 0 0),
        .move (.pop 0 2)]
    f.connections.length ≤ 0 ∧
      requests (f.sent 0 happenings) = [(0, .start "/a"), (1, tokens), (2, tokens)] ∧
      f.reconciled 0 happenings = [(2, tokens), (0, .start "/a")] ∧
      ∃ c, (happenings.foldl happen f).connections[0]? = some c ∧
        c.client.pending = [(1, tokens)] ∧
        Numbers (f.sent 0 happenings) (f.reconciled 0 happenings) c := by
  intro f tokens happenings
  have hid : f.connections.length ≤ 0 := Nat.le_refl 0
  have hpending : ((happenings.foldl happen f).client? 0).map Client.pending =
      some [(1, tokens)] := by
    decide +kernel
  obtain ⟨client, hclient, hpending⟩ := Option.map_eq_some_iff.1 hpending
  obtain ⟨c, hc, rfl⟩ := Option.map_eq_some_iff.1 hclient
  exact ⟨hid, by decide +kernel, by decide +kernel, c, hc, hpending,
    (numbers_of_run hid happenings hc).1⟩

end Fleet

end TextEditor.Server
