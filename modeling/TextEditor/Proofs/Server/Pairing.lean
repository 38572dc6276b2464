import TextEditor.Proofs.Server.Steady

/-!
# Responses and the requests they are paired with

An event says which server it is from, but not which process: a response is taken for one of the
process that the session of such a server has now, and is paired with what its client waits for
under the number of the response.  An event that is paired changes its client and may make it ready;
one that is not changes no client at all.
-/

namespace TextEditor.Server

/-- A response and the request that it is taken to answer. -/
structure Pairing where
  /-- The process that was asked. -/
  client : Nat
  number : Int
  kind : RequestKind
  deriving DecidableEq, Repr

theorem Client.pop_eq_some {c : Client} {number : Int} {kind : RequestKind}
    (hkind : (c.pop number).1 = some kind) :
    ∃ n : Nat, number = n ∧ (n, kind) ∈ c.pending ∧
      (c.pop number).2 = { c with pending := c.pending.filter fun entry => entry.1 ≠ n } := by
  unfold Client.pop at hkind ⊢
  split at hkind
  · cases hkind
  · next n kind' hfind =>
    obtain rfl : kind' = kind := Option.some.inj hkind
    have hnumber := List.find?_some hfind
    exact ⟨n, (of_decide_eq_true hnumber).symm, List.mem_of_find?_eq_some hfind, rfl⟩

theorem Client.pop_eq_none {c : Client} {number : Int} (hnone : (c.pop number).1 = none) :
    (c.pop number).2 = c := by
  unfold Client.pop at hnone ⊢
  split
  · rfl
  · next hfind =>
    rw [hfind] at hnone
    cases hnone

namespace Fleet

variable {f : Fleet} {i : Nat}

theorem Sent.client? {α : Type} {change : Connection → Connection} {result : Except Fault α × Fleet}
    (h : Sent f i change result) (hchange : ∀ c, (change c).client = c.client) (id : Nat) :
    result.2.client? id = f.client? id := by
  cases h with
  | failed fault => rfl
  | done a hc halive hconnections =>
    rw [Fleet.client?, hconnections, connections_alter, Fleet.client?]
    split
    · rw [Option.map_map]
      exact congrArg (Option.map · _) (funext hchange)
    · rfl

theorem popRequest_of_client? {c : Client} (hc : f.client? i = some c) (number : Int) :
    f.popRequest i number =
      ((c.pop number).1, f.modifyClient i fun _ => (c.pop number).2) := by
  rw [popRequest, hc]

theorem client?_popRequest_of_none {number : Int} (hnone : (f.popRequest i number).1 = none)
    (id : Nat) : (f.popRequest i number).2.client? id = f.client? id := by
  rw [popRequest] at hnone ⊢
  cases hc : f.client? i with
  | none => rfl
  | some c =>
    rw [hc] at hnone
    dsimp only
    rw [Client.pop_eq_none hnone, modifyClient, client?, connections_alter]
    split
    · next hid =>
      subst hid
      obtain ⟨c', hc', rfl⟩ := Option.map_eq_some_iff.1 hc
      rw [hc', Option.map_some, Option.map_some, ← hc]
    · rfl

end Fleet

namespace Hub

/-- The number of the request that a body answers, if there is room to read it and it is an
answer. -/
def answered? (room : Nat) (payload : Bytes) : Option Int :=
  match readBody payload (some room) with
  | .ok (.obj fields) =>
    if ((Json.obj fields).field? "method").isSome then none else numberOf (.obj fields)
  | _ => none

/-- What a body from a server of that name is paired with. -/
def pairs? (h : Hub) (name : String) (payload : Bytes) : Option Pairing := do
  let s ← h.sessionOfClient? name
  let number ← answered? h.fleet.nesting.read payload
  let c ← h.fleet.client? s.client
  let kind ← (c.pop number).1
  return ⟨s.client, number, kind⟩

/-- What the first event of the queue is paired with. -/
def pairing? (h : Hub) : Option Pairing :=
  match h.fleet.queue with
  | .response name payload :: _ => h.pairs? name payload
  | _ => none

/-- The hub with the first event off the queue. -/
def dequeued (h : Hub) : Hub :=
  { h with fleet := { h.fleet with queue := h.fleet.queue.tail } }

variable {settings : Settings} {answered : Nat → Prop} {reader : Nat} {f₀ : Fleet}
variable {h : Hub} {s : Session} {name : String} {payload : Bytes}

theorem pairs?_eq_some {p : Pairing} (hp : h.pairs? name payload = some p) :
    ∃ s c, h.sessionOfClient? name = some s ∧ s.client = p.client ∧
      answered? h.fleet.nesting.read payload = some p.number ∧ h.fleet.client? p.client = some c ∧
        (c.pop p.number).1 = some p.kind := by
  obtain ⟨s, hs, hp⟩ := Option.bind_eq_some_iff.1 hp
  obtain ⟨number, hnumber, hp⟩ := Option.bind_eq_some_iff.1 hp
  obtain ⟨c, hc, hp⟩ := Option.bind_eq_some_iff.1 hp
  obtain ⟨kind, hkind, hp⟩ := Option.bind_eq_some_iff.1 hp
  obtain rfl := Option.some.inj hp
  exact ⟨s, c, hs, rfl, hnumber, hc, hkind⟩

theorem pairs?_of_popRequest {number : Int} {kind : RequestKind}
    (hs : h.sessionOfClient? name = some s)
    (hnumber : answered? h.fleet.nesting.read payload = some number)
    (hkind : (h.fleet.popRequest s.client number).1 = some kind) :
    h.pairs? name payload = some ⟨s.client, number, kind⟩ := by
  rw [Fleet.popRequest] at hkind
  cases hc : h.fleet.client? s.client with
  | none =>
    rw [hc] at hkind
    cases hkind
  | some c =>
    rw [hc] at hkind
    refine Option.bind_eq_some_iff.2 ⟨s, hs, Option.bind_eq_some_iff.2 ⟨number, hnumber, ?_⟩⟩
    exact Option.bind_eq_some_iff.2 ⟨c, hc, Option.bind_eq_some_iff.2 ⟨kind, hkind, rfl⟩⟩

theorem pairing?_eq_some {p : Pairing} (hp : h.pairing? = some p) :
    ∃ name payload rest, h.fleet.queue = .response name payload :: rest ∧
      h.pairs? name payload = some p := by
  unfold pairing? at hp
  split at hp
  · next name payload rest hqueue => exact ⟨name, payload, rest, hqueue, hp⟩
  · cases hp

theorem answered?_eq_some {room : Nat} {number : Int}
    (hnumber : answered? room payload = some number) :
    ∃ fields, readBody payload (some room) = .ok (.obj fields) ∧
      (Json.obj fields).field? "method" = none ∧ numberOf (.obj fields) = some number := by
  unfold answered? at hnumber
  split at hnumber
  · next fields hbody =>
    split at hnumber
    · cases hnumber
    · next hmethod =>
      exact ⟨fields, hbody, Option.not_isSome_iff_eq_none.1 hmethod, hnumber⟩
  · cases hnumber

/-- The connection of a client that a response is paired with waits for that response. -/
theorem waits_of_pairing? {p : Pairing} (hp : h.pairing? = some p) :
    ∃ (c : Connection) (n : Nat), h.fleet.connections[p.client]? = some c ∧ p.number = n ∧
      (n, p.kind) ∈ c.client.pending := by
  obtain ⟨name, payload, rest, -, hpairs⟩ := pairing?_eq_some hp
  obtain ⟨-, cl, -, -, -, hcl, hpop⟩ := pairs?_eq_some hpairs
  obtain ⟨c, hc, rfl⟩ := Option.map_eq_some_iff.1 hcl
  obtain ⟨n, hnumber, hmem, -⟩ := Client.pop_eq_some hpop
  exact ⟨c, n, hc, hnumber, hmem⟩

/-- The message that is handled next. -/
def heard? (h : Hub) : Option Json :=
  match h.fleet.queue with
  | .response _ payload :: _ => (readBody payload (some h.fleet.nesting.read)).toOption
  | _ => none

/-! ## An event that is paired -/

/-- The request is taken off those that wait, and the answer is settled. -/
theorem start_handleNext_of_pairing? {p : Pairing} (hp : h.pairing? = some p) :
    ∃ s name message, s ∈ h.sessions.values ∧ s.client = p.client ∧ h.heard? = some message ∧
      handleNext.start h = (settle s name message p.kind).start
        { h.dequeued with fleet := (h.dequeued.fleet.popRequest p.client p.number).2 } := by
  obtain ⟨name, payload, rest, hqueue, hpairs⟩ := pairing?_eq_some hp
  obtain ⟨s, c, hs, hclient, hanswer, hc, hpop⟩ := pairs?_eq_some hpairs
  obtain ⟨fields, hbody, hmethod, hnumber⟩ := answered?_eq_some hanswer
  have hkind : (h.dequeued.fleet.popRequest s.client p.number).1 = some p.kind := by
    rw [hclient, Fleet.popRequest_of_client? (f := h.dequeued.fleet) hc]
    exact hpop
  refine ⟨s, name, .obj fields, mem_of_sessionOfClient? hs, hclient, ?_, ?_⟩
  · rw [heard?, hqueue]
    exact congrArg Except.toOption hbody
  have hdequeued : h.dequeued = { h with fleet := { h.fleet with queue := rest } } := by
    rw [dequeued, hqueue]
    rfl
  have hs' : h.dequeued.sessionOfClient? name = some s := hs
  have hbody' : readBody payload (some h.dequeued.fleet.nesting.read) = .ok (.obj fields) := hbody
  rw [← hclient, ← start_handleAnswer_of_kind hnumber hkind, handleNext, Step.start_bind,
    Step.start_get]
  dsimp only
  rw [hqueue]
  dsimp only
  rw [Step.start_bind, Step.start_modify, ← hdequeued]
  dsimp only
  rw [handleResponse, Step.start_bind, Step.start_get]
  dsimp only
  rw [hs']
  dsimp only
  rw [hbody']
  dsimp only
  rw [handleMessage, hmethod]

/-! ## An event that is not -/

/-- What is left true by all that comes of an event which is paired with nothing. -/
structure Withstands (P : Hub → Prop) : Prop where
  report : ∀ (h : Hub) (level : Level) (name : String) (data : Pairs), P h →
    P (h.report level name data)
  crash : ∀ (h : Hub) (client reason : String), P h → P (h.handleCrash client reason)
  reply : ∀ s message, Step.Keeps P (guarded s (Fleet.sendResponse s.client message))
  pop : ∀ (h : Hub) (client : Nat) (number : Int), (h.fleet.popRequest client number).1 = none →
    P h → P { h with fleet := (h.fleet.popRequest client number).2 }

namespace Withstands

variable {P : Hub → Prop}

theorem handleMessage {message : Json} (hP : Withstands P) (h₁ : P h)
    (hnone : message.field? "method" = none → ∀ number, numberOf message = some number →
      (h.fleet.popRequest s.client number).1 = none) :
    P ((handleMessage s name message).start h).2 := by
  unfold Hub.handleMessage
  split
  · split
    · exact Step.Keeps.bind (hP.reply s message) (fun _ => Step.Keeps.pure _) h h₁
    · exact Step.Keeps.bind (keeps_shown P _)
        (fun text => Step.Keeps.modify fun h => hP.report h _ _ _) h h₁
  · next hmethod =>
    cases hnumber : numberOf message with
    | none =>
      rw [start_handleAnswer_of_number_none hnumber]
      exact h₁
    | some number =>
      have hkind := hnone hmethod number hnumber
      rw [start_handleAnswer_of_kind_none hnumber hkind]
      exact hP.pop _ _ _ hkind h₁

theorem handleResponse (hP : Withstands P) (h₁ : P h) (hnone : h.pairs? name payload = none) :
    P ((handleResponse name payload).start h).2 := by
  rw [Hub.handleResponse, Step.start_bind, Step.start_get]
  dsimp only
  cases hs : h.sessionOfClient? name with
  | none => exact h₁
  | some s =>
  dsimp only
  cases hbody : readBody payload (some h.fleet.nesting.read) with
  | error fault =>
    cases fault with
    | nesting => exact h₁
    | invalid reason => exact hP.report _ _ _ _ h₁
  | ok value =>
  cases value with
  | obj fields =>
    refine hP.handleMessage h₁ fun hmethod number hnumber => ?_
    cases hkind : (h.fleet.popRequest s.client number).1 with
    | none => rfl
    | some kind =>
      have hanswer : answered? h.fleet.nesting.read payload = some number := by
        rw [answered?, hbody]
        dsimp only
        rw [hmethod]
        exact hnumber
      have hp := pairs?_of_popRequest hs hanswer hkind
      rw [hnone] at hp
      cases hp
  | _ => exact h₁

theorem handleNext (hP : Withstands P) (h₁ : P h.dequeued) (hnone : h.pairing? = none) :
    P (handleNext.start h).2 := by
  rw [Hub.handleNext, Step.start_bind, Step.start_get]
  dsimp only
  cases hqueue : h.fleet.queue with
  | nil =>
    rw [dequeued, hqueue, List.tail_nil, ← hqueue] at h₁
    exact h₁
  | cons event rest =>
  rw [dequeued, hqueue, List.tail_cons] at h₁
  dsimp only
  rw [Step.start_bind, Step.start_modify]
  cases event with
  | crash client reason => exact hP.crash _ client reason h₁
  | response name payload =>
    rw [pairing?, hqueue] at hnone
    exact hP.handleResponse h₁ hnone

end Withstands

/-! ## Steady hubs -/

theorem withstands_steady : Withstands (Steady settings answered reader f₀) where
  report _ level name data h₁ := h₁.report level name data
  crash _ client reason h₁ := steady_handleCrash h₁ client reason
  reply s message := steady_guarded (fun f => Fleet.minds_sendResponse f _ message) s
  pop h client number _ h₁ := h₁.fleet (Fleet.minds_popRequest h.fleet client number)

theorem Sound.dequeued (h₁ : h.Sound settings answered) : h.dequeued.Sound settings answered :=
  ⟨h₁.configured, h₁.keys, h₁.served, h₁.honest⟩

/-- The first event of the queue is handled. -/
theorem steady_handleNext (h₁ : h.Sound settings answered)
    (hanswered : ∀ client number path,
      h.pairing? = some ⟨client, number, .start path⟩ → answered client) (reader : Nat) :
    (handleNext.start h).2.Steady settings answered reader h.dequeued.fleet := by
  have hnow := h₁.dequeued.steady reader
  cases hp : h.pairing? with
  | none => exact withstands_steady.handleNext hnow hp
  | some p =>
    obtain ⟨s, name, message, hs, hclient, -, hstart⟩ := start_handleNext_of_pairing? hp
    rw [hstart]
    refine steady_settle (hnow.fleet (Fleet.minds_popRequest _ _ _)) (h₁.find? hs)
      (fun path hpath => ?_) name message
    rw [hclient]
    refine hanswered p.client p.number path (hp.trans ?_)
    rw [← hpath]

/-! ## The clients -/

/-- The clients are those of the fleet. -/
def ClientsOf (f₀ : Fleet) (h : Hub) : Prop :=
  ∀ id, h.fleet.client? id = f₀.client? id

theorem clientsOf_guarded {step : Step Fleet Unit}
    (hstep : ∀ f id, (step.start f).2.client? id = f.client? id) (s : Session) :
    Step.Keeps (ClientsOf f₀) (guarded s step) := by
  intro h h₁
  have hsame := hstep h.fleet
  rw [guarded, Step.start_bind, Step.start_attempt, onFleet, Step.start_zoom]
  generalize step.start h.fleet = result at hsame ⊢
  obtain ⟨outcome, f⟩ := result
  have hkept : ({ h with fleet := f } : Hub).ClientsOf f₀ := fun id => (hsame id).trans (h₁ id)
  cases outcome with
  | ok done => exact hkept
  | error fault => cases fault <;> exact hkept

theorem clientsOf_handleCrash (h₁ : h.ClientsOf f₀) (client reason : String) :
    (h.handleCrash client reason).ClientsOf f₀ := by
  obtain ⟨data, hcrash⟩ := handleCrash_eq h client reason
  have hgone : (h.letGo client).ClientsOf f₀ := by
    unfold letGo
    split
    · split
      · rw [ClientsOf, fleet_release]
        exact h₁
      · exact h₁
    · exact h₁
  rw [hcrash, noteCrash]
  split <;> exact hgone

theorem withstands_clientsOf : Withstands (ClientsOf f₀) where
  report _ _ _ _ h₁ := h₁
  crash _ client reason h₁ := clientsOf_handleCrash h₁ client reason
  reply s message := by
    refine clientsOf_guarded (fun f id => ?_) s
    obtain ⟨number, result, hsent⟩ := Fleet.sent_sendResponse f s.client message
    exact hsent.client? (fun _ => rfl) id
  pop h client number hnone h₁ := fun id =>
    (Fleet.client?_popRequest_of_none hnone id).trans (h₁ id)

/-- No client changes over an event that is paired with nothing: none stops waiting for an answer,
and none gets ready. -/
theorem clientsOf_handleNext (hnone : h.pairing? = none) :
    (handleNext.start h).2.ClientsOf h.fleet :=
  withstands_clientsOf.handleNext (fun _ => rfl) hnone

/-- The client gave the number to a request and does not wait for its answer any more. -/
def Taken (f : Fleet) (client : Nat) (number : Int) : Prop :=
  ∃ (c : Connection) (n : Nat), f.connections[client]? = some c ∧ number = n ∧
    n < c.client.nextId ∧ ∀ entry ∈ c.client.pending, entry.1 ≠ n

theorem Taken.of_minds {f f' : Fleet} {client : Nat} {number : Int}
    (htaken : Taken f client number) (hminds : f.Minds answered reader f') :
    Taken f' client number := by
  obtain ⟨c, n, hc, hnumber, hlt, hpending⟩ := htaken
  obtain ⟨c', hc', hleads⟩ := hminds.leads client c hc
  refine ⟨c', n, hc', hnumber, Nat.lt_of_lt_of_le hlt hleads.nextId, fun entry hentry => ?_⟩
  rcases hleads.pending entry hentry with hold | hnew
  · exact hpending entry hold
  · exact Nat.ne_of_gt (Nat.lt_of_lt_of_le hlt hnew)

theorem taken_popRequest {f : Fleet} {client : Nat} {number : Int} {kind : RequestKind}
    (hhonest : f.Honest answered) (hkind : (f.popRequest client number).1 = some kind) :
    Taken (f.popRequest client number).2 client number := by
  cases hclient : f.client? client with
  | none =>
    rw [Fleet.popRequest, hclient] at hkind
    cases hkind
  | some cl =>
    rw [Fleet.popRequest_of_client? hclient] at hkind ⊢
    obtain ⟨c, hc, rfl⟩ := Option.map_eq_some_iff.1 hclient
    obtain ⟨n, hnumber, hmem, hpop⟩ := Client.pop_eq_some hkind
    have hlt := (hhonest client c hc).numbered (n, kind) hmem
    refine ⟨{ c with client := (c.client.pop number).2 }, n, ?_, hnumber, ?_, ?_⟩
    · rw [Fleet.modifyClient, Fleet.connections_alter, if_pos rfl, hc, Option.map_some]
    · rw [hpop]
      exact hlt
    · rw [hpop]
      exact fun entry hentry => of_decide_eq_true (List.mem_filter.1 hentry).2

/-- The request that a response was paired with is paired with no other. -/
theorem taken_handleNext {p : Pairing} (h₁ : h.Sound settings answered)
    (hp : h.pairing? = some p)
    (hanswered : ∀ path, p.kind = .start path → answered p.client) :
    Taken (handleNext.start h).2.fleet p.client p.number := by
  obtain ⟨name, payload, rest, -, hpairs⟩ := pairing?_eq_some hp
  obtain ⟨-, c, -, -, -, hc, hpop⟩ := pairs?_eq_some hpairs
  have hkind : (h.dequeued.fleet.popRequest p.client p.number).1 = some p.kind := by
    rw [Fleet.popRequest_of_client? (f := h.dequeued.fleet) hc]
    exact hpop
  obtain ⟨s, name, message, hs, hclient, -, hstart⟩ := start_handleNext_of_pairing? hp
  have hpopped := (h₁.dequeued.steady 0).fleet
    (Fleet.minds_popRequest h.dequeued.fleet p.client p.number)
  have hsettled := steady_settle (hpopped.toSound.steady 0) (h₁.find? hs)
    (fun path hpath => hclient ▸ hanswered path hpath) name message
  rw [hstart]
  exact (taken_popRequest h₁.dequeued.honest hkind).of_minds hsettled.minds

theorem Taken.number_ne {p : Pairing} {client : Nat} {number : Int}
    (htaken : Taken h.fleet client number) (hp : h.pairing? = some p)
    (hclient : p.client = client) : p.number ≠ number := by
  rintro rfl
  obtain ⟨c', n', hc', hnumber', hwaits⟩ := waits_of_pairing? hp
  obtain ⟨c, n, hc, hnumber, -, hpending⟩ := htaken
  rw [hclient, hc] at hc'
  obtain rfl := Option.some.inj hc'
  obtain rfl : n = n' := Int.ofNat.inj (hnumber.symm.trans hnumber')
  exact hpending _ hwaits rfl

end Hub

end TextEditor.Server
