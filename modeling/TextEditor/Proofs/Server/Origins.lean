import Mathlib.Data.List.Forall2
import Mathlib.Data.List.Induction
import TextEditor.Proofs.Server.Pairing

/-!
# Where responses come from

Beside a run goes the list of the processes whose readers posted the events of the queue.  What a
response is paired with was always asked of the process it is taken to be from, and is paired with
no other response.  That this is also the process it was read from holds as long as the process was
not replaced since, and no two languages have the same server; without that a process is told of
documents before it has answered anything.
-/

namespace TextEditor.Server

/-- What is done next: one event of the queue is handled, or anything else is done. -/
inductive Beat where
  | handle
  | other (deed : Deed) (hdrain : deed ≠ .drain)

/-- A hub, with the processes that the events of its queue were read from. -/
structure Trail where
  hub : Hub
  /-- One entry for each event, none for one that no reader posted. -/
  origins : List (Option Nat)

namespace Trail

def step (t : Trail) : Beat → Trail
  | .handle => ⟨(Hub.handleNext.start t.hub).2, t.origins.tail⟩
  | .other deed _ =>
    let hub := t.hub.act deed
    let posted := hub.fleet.queue.length - t.hub.fleet.queue.length
    ⟨hub, t.origins ++ List.replicate posted (deed.reader t.hub)⟩

/-- The start of a trail; what is in the queue is from elsewhere. -/
def start (h₀ : Hub) : Trail :=
  ⟨h₀, List.replicate h₀.fleet.queue.length none⟩

end Trail

/-- The trail of a run. -/
def Hub.trail (h₀ : Hub) (beats : List Beat) : Trail :=
  beats.foldl Trail.step (.start h₀)

namespace Hub

theorem trail_append (h₀ : Hub) (past : List Beat) (beat : Beat) :
    h₀.trail (past ++ [beat]) = (h₀.trail past).step beat := by
  rw [trail, trail, List.foldl_append]
  rfl

/-- Events are handled one after the other, up to one at which it fails. -/
theorem exists_handles (events : List Nat) (t : Trail) :
    ∃ count, ((events.forM fun _ => handleNext).start t.hub).2 =
      ((List.replicate count .handle).foldl Trail.step t).hub := by
  induction events generalizing t with
  | nil => exact ⟨0, rfl⟩
  | cons event rest ih =>
    rw [List.forM, Step.start_bind]
    cases hstart : handleNext.start t.hub with
    | mk outcome h =>
    cases outcome with
    | error fault => exact ⟨1, (congrArg Prod.snd hstart).symm⟩
    | ok done =>
      obtain ⟨count, hcount⟩ := ih (t.step .handle)
      refine ⟨count + 1, Eq.trans ?_ hcount⟩
      rw [Trail.step, hstart]

theorem exists_beats_act (deed : Deed) (t : Trail) :
    ∃ beats : List Beat, (beats.foldl Trail.step t).hub = t.hub.act deed := by
  by_cases hdrain : deed = .drain
  · obtain ⟨count, hcount⟩ := exists_handles (List.range t.hub.fleet.queue.length) t
    refine ⟨List.replicate count .handle, ?_⟩
    rw [← hcount, hdrain, act, drain, Step.start_bind, Step.start_get]
    dsimp only
    rw [Step.start_bind]
    generalize ((List.range t.hub.fleet.queue.length).forM fun _ => handleNext).start t.hub = result
    obtain ⟨outcome, h⟩ := result
    cases outcome <;> rfl
  · exact ⟨[.other deed hdrain], rfl⟩

/-- Every run is that of a trail. -/
theorem exists_beats (deeds : List Deed) (t : Trail) :
    ∃ beats : List Beat, (beats.foldl Trail.step t).hub = deeds.foldl act t.hub := by
  induction deeds generalizing t with
  | nil => exact ⟨[], rfl⟩
  | cons deed rest ih =>
    obtain ⟨first, hfirst⟩ := exists_beats_act deed t
    obtain ⟨beats, hbeats⟩ := ih (first.foldl Trail.step t)
    refine ⟨first ++ beats, ?_⟩
    rw [List.foldl_append, hbeats, hfirst]
    rfl

/-- At some moment a response was paired with a request; this is where it was read from. -/
def Paired (h₀ : Hub) (beats : List Beat) (p : Pairing) (origin : Option Nat) : Prop :=
  ∃ past rest, beats = past ++ .handle :: rest ∧ (h₀.trail past).hub.pairing? = some p ∧
    (h₀.trail past).origins.head? = some origin

/-- At some moment a response was paired with the start of a process. -/
def Answered (h₀ : Hub) (beats : List Beat) (id : Nat) (origin : Option Nat) : Prop :=
  ∃ number path, h₀.Paired beats ⟨id, number, .start path⟩ origin

variable {h₀ : Hub} {beats : List Beat} {beat : Beat} {p : Pairing} {origin : Option Nat}

theorem Paired.append (hpaired : h₀.Paired beats p origin) (beat : Beat) :
    h₀.Paired (beats ++ [beat]) p origin := by
  obtain ⟨past, rest, rfl, hpairing⟩ := hpaired
  exact ⟨past, rest ++ [beat], List.append_assoc .., hpairing⟩

theorem Paired.of_append (hpaired : h₀.Paired (beats ++ [beat]) p origin) :
    h₀.Paired beats p origin ∨ beat = .handle ∧ (h₀.trail beats).hub.pairing? = some p := by
  obtain ⟨past, rest, hbeats, hpairing⟩ := hpaired
  rcases List.eq_nil_or_concat rest with rfl | ⟨rest, last, rfl⟩
  · obtain ⟨rfl, hlast⟩ := List.append_inj' hbeats rfl
    exact .inr ⟨(List.cons.inj hlast).1, hpairing.1⟩
  · rw [List.concat_eq_append, ← List.cons_append, ← List.append_assoc] at hbeats
    obtain ⟨rfl, -⟩ := List.append_inj' hbeats rfl
    exact .inl ⟨past, rest, rfl, hpairing⟩

theorem Answered.append {id : Nat} (hanswered : h₀.Answered beats id origin) (beat : Beat) :
    h₀.Answered (beats ++ [beat]) id origin := by
  obtain ⟨number, path, hpaired⟩ := hanswered
  exact ⟨number, path, hpaired.append beat⟩

end Hub

/-- The event was read from the process of that number, if from any, so it is in the name of its
client. -/
def Fleet.From (f : Fleet) (origin : Option Nat) (event : Event) : Prop :=
  ∀ id, origin = some id → ∃ c, f.connections[id]? = some c ∧ event.client = c.client.name

theorem Fleet.Minds.from {answered : Nat → Prop} {reader : Nat} {f f' : Fleet}
    (h : f.Minds answered reader f') {origin : Option Nat} {event : Event}
    (hfrom : f.From origin event) : f'.From origin event := by
  intro id hid
  obtain ⟨c, hc, hname⟩ := hfrom id hid
  obtain ⟨c', hc', hleads⟩ := h.leads id c hc
  exact ⟨c', hc', hname.trans hleads.name.symm⟩

namespace Trail

/-- The hub is sound, each event is in the name of the client it was read for, and what was paired
is not waited for. -/
structure Sound (settings : Settings) (answered : Nat → Prop) (paired : Nat → Int → Prop)
    (t : Trail) : Prop where
  hub : t.hub.Sound settings answered
  origins : List.Forall₂ t.hub.fleet.From t.origins t.hub.fleet.queue
  taken : ∀ client number, paired client number → Hub.Taken t.hub.fleet client number

variable {settings : Settings} {answered answered' : Nat → Prop} {paired paired' : Nat → Int → Prop}
variable {t : Trail}

theorem forall₂_replicate {α β : Type} {R : α → β → Prop} {a : α} {items : List β}
    (h : ∀ b ∈ items, R a b) : List.Forall₂ R (List.replicate items.length a) items := by
  induction items with
  | nil => exact .nil
  | cons b rest ih =>
    exact .cons (h b List.mem_cons_self) (ih fun b hb => h b (List.mem_cons_of_mem _ hb))

theorem Sound.mono (h : t.Sound settings answered paired)
    (hanswered : ∀ id, answered id → answered' id)
    (hpaired : ∀ client number, paired' client number → paired client number) :
    t.Sound settings answered' paired' :=
  ⟨h.hub.mono hanswered, h.origins, fun client number h' => h.taken client number (hpaired _ _ h')⟩

theorem Sound.handle (h : t.Sound settings answered paired)
    (hanswered : ∀ client number path,
      t.hub.pairing? = some ⟨client, number, .start path⟩ → answered client)
    (hpaired : ∀ client number, paired' client number → paired client number ∨
      ∃ kind, t.hub.pairing? = some ⟨client, number, kind⟩) :
    (t.step .handle).Sound settings answered paired' := by
  have hsteady := Hub.steady_handleNext h.hub hanswered
  have hqueue := Fleet.Minds.queue_eq (fun reader => (hsteady reader).minds) h.hub.honest
  refine ⟨(hsteady 0).toSound, ?_, fun client number hnow => ?_⟩
  · have htail : List.Forall₂ t.hub.fleet.From t.origins.tail t.hub.fleet.queue.tail := by
      have horigins := h.origins
      generalize t.origins = origins, t.hub.fleet.queue = queue at horigins ⊢
      cases horigins with
      | nil => exact .nil
      | cons hfirst hrest => exact hrest
    rw [step, hqueue]
    exact htail.imp fun origin event hfrom => (hsteady 0).minds.from hfrom
  · rcases hpaired client number hnow with hold | ⟨kind, hp⟩
    · have htaken : Hub.Taken t.hub.dequeued.fleet client number := h.taken client number hold
      exact htaken.of_minds (hsteady 0).minds
    · exact Hub.taken_handleNext h.hub hp fun path hpath =>
        hanswered client number path (hp.trans (by rw [← hpath]))

theorem Sound.other (h : t.Sound settings answered paired) {deed : Deed} (hdrain : deed ≠ .drain) :
    (t.step (.other deed hdrain)).Sound settings answered paired := by
  cases hreader : deed.reader t.hub with
  | some reader =>
    have hsteady := Hub.steady_act h.hub hdrain hreader
    obtain ⟨events, hqueue, hevents⟩ := hsteady.minds.queue h.hub.honest
    refine ⟨hsteady.toSound, ?_, fun client number hpaired =>
      (h.taken client number hpaired).of_minds hsteady.minds⟩
    have hgrown : (t.hub.act deed).fleet.queue.length - t.hub.fleet.queue.length =
        events.length := by
      rw [hqueue, List.length_append, Nat.add_sub_cancel_left]
    dsimp only [step]
    rw [hgrown, hreader, hqueue]
    refine List.rel_append (h.origins.imp fun origin event hfrom => hsteady.minds.from hfrom) ?_
    refine forall₂_replicate fun event hevent id hid => ?_
    obtain rfl := Option.some.inj hid
    exact hevents event hevent
  | none =>
    cases deed with
    | post event =>
      refine ⟨⟨h.hub.configured, h.hub.keys, h.hub.served, h.hub.honest⟩, ?_, h.taken⟩
      have hgrown : (t.hub.fleet.queue ++ [event]).length - t.hub.fleet.queue.length = 1 := by
        rw [List.length_append, Nat.add_sub_cancel_left]
        rfl
      dsimp only [step, Hub.act]
      rw [hgrown]
      exact List.rel_append h.origins (.cons nofun .nil)
    | _ => cases hreader

end Trail

namespace Hub

variable {settings : Settings} {answered : Nat → Prop} {paired : Nat → Int → Prop}
variable {h₀ h : Hub} {beats : List Beat}

/-- Through a run hub and queue are in order, a process is sent more than its start only after a
response was paired with that, and no request is paired twice. -/
theorem sound_trail (hfresh : h₀.Fresh) (beats : List Beat) :
    (h₀.trail beats).Sound h₀.settings (fun id => ∃ origin, h₀.Answered beats id origin)
      fun client number => ∃ kind origin, h₀.Paired beats ⟨client, number, kind⟩ origin := by
  induction beats using List.reverseRecOn with
  | nil =>
    have hstart : (h₀.trail []).hub = h₀ := rfl
    refine ⟨⟨rfl, ?_, fun language s hs => ?_, fun id c hc => ?_⟩,
      Trail.forall₂_replicate fun event _ => nofun, fun client number hpaired => ?_⟩
    · rw [hstart, hfresh.sessions]
      exact List.nodup_nil
    · rw [hstart, hfresh.sessions] at hs
      cases hs
    · rw [hstart, hfresh.connections] at hc
      cases hc
    · obtain ⟨kind, origin, past, rest, hbeats, -⟩ := hpaired
      cases past <;> cases hbeats
  | append_singleton past beat ih =>
    rw [trail_append]
    have hanswered : ∀ id, (∃ origin, h₀.Answered past id origin) →
        ∃ origin, h₀.Answered (past ++ [beat]) id origin :=
      fun id ⟨origin, hanswered⟩ => ⟨origin, hanswered.append beat⟩
    cases beat with
    | other deed hdrain =>
      refine (ih.mono hanswered fun client number ⟨kind, origin, hpaired⟩ => ?_).other hdrain
      rcases hpaired.of_append with hold | ⟨hbeat, -⟩
      · exact ⟨kind, origin, hold⟩
      · cases hbeat
    | handle =>
      refine (ih.mono hanswered fun _ _ h => h).handle (fun client number path hp => ?_)
        fun client number ⟨kind, origin, hpaired⟩ => ?_
      · obtain ⟨name, payload, rest, hqueue, -⟩ := pairing?_eq_some hp
        have horigins := ih.origins
        rw [hqueue] at horigins
        obtain ⟨origin, origins, -, -, horigin⟩ := List.forall₂_cons_right_iff.1 horigins
        exact ⟨origin, number, path, past, [], rfl, hp, by rw [horigin]; rfl⟩
      · rcases hpaired.of_append with hold | ⟨-, hp⟩
        · exact .inl ⟨kind, origin, hold⟩
        · exact .inr ⟨kind, hp⟩

/-! ## What is paired -/

/-- No two languages have the same server. -/
def Apart (settings : Settings) : Prop :=
  ∀ language language' name, settings.server? language = some name →
    settings.server? language' = some name → language = language'

theorem asked_of_pairing? {p : Pairing} (h₁ : h.Sound settings answered)
    (hp : h.pairing? = some p) :
    ∃ (c : Connection) (messages : List Outgoing), h.fleet.connections[p.client]? = some c ∧
      c.process.received = messages.map Outgoing.frame ∧
        ∃ m ∈ messages, ∃ number : Nat, p.number = number ∧ m.asks number p.kind := by
  obtain ⟨c, number, hc, hnumber, hwaits⟩ := waits_of_pairing? hp
  obtain ⟨messages, hreceived, -, hpending⟩ := (h₁.honest p.client c hc).stream
  obtain ⟨m, hm, hasks⟩ := hpending _ hwaits
  exact ⟨c, messages, hc, hreceived, m, hm, number, hnumber, hasks⟩

/-- The process that is taken for the sender is the one of a session, and has the name of the
sender. -/
theorem named_of_pairing? {t : Trail} {p : Pairing} {sender : Nat}
    (ht : t.Sound settings answered paired) (hp : t.hub.pairing? = some p)
    (hsender : t.origins.head? = some (some sender)) :
    ∃ s c c', s ∈ t.hub.sessions.values ∧ s.client = p.client ∧
      t.hub.fleet.connections[p.client]? = some c ∧
        t.hub.fleet.connections[sender]? = some c' ∧ c.client.name = c'.client.name := by
  obtain ⟨name, payload, rest, hqueue, hpairs⟩ := pairing?_eq_some hp
  obtain ⟨s, client, hs, hsame, -, hclient, -⟩ := pairs?_eq_some hpairs
  obtain ⟨c, hc, rfl⟩ := Option.map_eq_some_iff.1 hclient
  have horigins := ht.origins
  rw [hqueue] at horigins
  obtain ⟨origin, origins, hfrom, -, horigin⟩ := List.forall₂_cons_right_iff.1 horigins
  rw [horigin] at hsender
  obtain ⟨c', hc', hname⟩ := hfrom sender (Option.some.inj hsender)
  have hnamed : t.hub.fleet.nameOf s.client = name := by
    simpa using List.find?_some hs
  rw [hsame, Fleet.nameOf, Fleet.client?, hc] at hnamed
  exact ⟨s, c, c', mem_of_sessionOfClient? hs, hsame, hc, hc', hnamed.trans hname⟩

/-- Sessions whose clients have the same name are the same if no two languages have the same
server. -/
theorem Sound.eq_of_name {s s' : Session} {c c' : Connection} (h₁ : h.Sound settings answered)
    (hapart : Apart settings) (hs : s ∈ h.sessions.values) (hs' : s' ∈ h.sessions.values)
    (hc : h.fleet.connections[s.client]? = some c)
    (hc' : h.fleet.connections[s'.client]? = some c')
    (hname : c.client.name = c'.client.name) : s = s' := by
  have hfind := h₁.find? hs
  have hfind' := h₁.find? hs'
  obtain ⟨-, c₁, hc₁, hserver⟩ := h₁.served s.language s (Table.mem_of_find? hfind)
  obtain ⟨-, c₂, hc₂, hserver'⟩ := h₁.served s'.language s' (Table.mem_of_find? hfind')
  obtain rfl := Option.some.inj (hc.symm.trans hc₁)
  obtain rfl := Option.some.inj (hc'.symm.trans hc₂)
  rw [hname] at hserver
  rw [hapart s.language s'.language _ hserver hserver'] at hfind
  exact Option.some.inj (hfind.symm.trans hfind')

theorem client_eq_of_pairing? {t : Trail} {p : Pairing} {s : Session}
    (ht : t.Sound settings answered paired) (hapart : Apart settings) (hp : t.hub.pairing? = some p)
    (hs : s ∈ t.hub.sessions.values) (hsender : t.origins.head? = some (some s.client)) :
    p.client = s.client := by
  obtain ⟨s', c, c', hs', hclient, hc, hc', hname⟩ := named_of_pairing? ht hp hsender
  rw [← hclient] at hc ⊢
  rw [ht.hub.eq_of_name hapart hs' hs hc hc' hname]

/-- If nothing comes from elsewhere each event has an origin. -/
theorem read_trail (hqueue : h₀.fleet.queue = [])
    (hread : ∀ event hdrain, Beat.other (.post event) hdrain ∉ beats) :
    ∀ origin ∈ (h₀.trail beats).origins, origin.isSome := by
  induction beats using List.reverseRecOn with
  | nil =>
    intro origin horigin
    rw [trail, List.foldl_nil, Trail.start, hqueue] at horigin
    cases horigin
  | append_singleton past beat ih =>
    have hpast := ih fun event hdrain hmem => hread event hdrain (List.mem_append_left _ hmem)
    rw [trail_append]
    cases beat with
    | handle => exact fun origin horigin => hpast origin (List.mem_of_mem_tail horigin)
    | other deed hdrain =>
      intro origin horigin
      rcases List.mem_append.1 horigin with hold | hnew
      · exact hpast origin hold
      · rw [List.eq_of_mem_replicate hnew]
        cases deed with
        | post event =>
          exact absurd (List.mem_append_right _ (List.mem_singleton.2 rfl)) (hread event hdrain)
        | _ => rfl

/-- No two languages have the same server, everything in the queue was read from a process, and that
process was still the one of a session when a response of it was paired. -/
structure Loyal (h₀ : Hub) (beats : List Beat) : Prop where
  apart : Apart h₀.settings
  queue : h₀.fleet.queue = []
  read : ∀ event hdrain, Beat.other (.post event) hdrain ∉ beats
  current : ∀ past rest p sender, beats = past ++ .handle :: rest →
    (h₀.trail past).hub.pairing? = some p →
      (h₀.trail past).origins.head? = some (some sender) →
        ∃ s ∈ (h₀.trail past).hub.sessions.values, s.client = sender

/-- What is so of the responses that a run pairs, and of the next one that it would pair. -/
structure Pairs (h₀ : Hub) (beats : List Beat) : Prop where
  /-- The process that is taken for the sender was asked what the response is taken to answer. -/
  asked : ∀ p, (h₀.trail beats).hub.pairing? = some p →
    ∃ (c : Connection) (messages : List Outgoing),
      (h₀.trail beats).hub.fleet.connections[p.client]? = some c ∧
      c.process.received = messages.map Outgoing.frame ∧
        ∃ m ∈ messages, ∃ number : Nat, p.number = number ∧ m.asks number p.kind
  /-- That is not paired with another response. -/
  once : ∀ p q origin, h₀.Paired beats p origin → (h₀.trail beats).hub.pairing? = some q →
    q.client = p.client → q.number ≠ p.number
  /-- The process has the name of the sender. -/
  named : ∀ p sender, (h₀.trail beats).hub.pairing? = some p →
    (h₀.trail beats).origins.head? = some (some sender) →
      ∃ c c', (h₀.trail beats).hub.fleet.connections[p.client]? = some c ∧
        (h₀.trail beats).hub.fleet.connections[sender]? = some c' ∧
          c.client.name = c'.client.name
  /-- It is the sender, if that is still the process of a session and no two languages have the same
  server. -/
  same : Apart h₀.settings → ∀ p s, (h₀.trail beats).hub.pairing? = some p →
    s ∈ (h₀.trail beats).hub.sessions.values →
      (h₀.trail beats).origins.head? = some (some s.client) → p.client = s.client
  /-- An event that is paired with nothing changes no client. -/
  quiet : (h₀.trail beats).hub.pairing? = none → ∀ id,
    (h₀.trail (beats ++ [.handle])).hub.fleet.client? id =
      (h₀.trail beats).hub.fleet.client? id
  /-- Nothing but its start and answers is written to a process before its start was paired. -/
  late : ∀ id c, (h₀.trail beats).hub.fleet.connections[id]? = some c →
    ∃ messages : List Outgoing, c.process.received = messages.map Outgoing.frame ∧
      ∀ m ∈ messages, m.early = false → ∃ origin, h₀.Answered beats id origin
  /-- The start of a process was paired with a response of its own, if all responses were paired
  while their senders were the processes of sessions, and no two languages have the same server. -/
  own : h₀.Loyal beats → ∀ id origin, h₀.Answered beats id origin → origin = some id

/-- A response is paired with what was asked of a process of the same server.  It is the one that
the response was read from if that was not replaced since, and no two languages have the same
server. -/
theorem pairs_of_beats (hfresh : h₀.Fresh) (beats : List Beat) : h₀.Pairs beats := by
  have ht := sound_trail hfresh beats
  refine ⟨fun p hp => asked_of_pairing? ht.hub hp, fun p q origin hp hq hclient => ?_,
    fun p sender hp hsender => ?_,
    fun hapart p s hp hs hsender => client_eq_of_pairing? ht hapart hp hs hsender, fun hnone => ?_,
    fun id c hc => ?_, ?_⟩
  · exact (ht.taken p.client p.number ⟨p.kind, origin, hp⟩).number_ne hq hclient
  · obtain ⟨s, c, c', -, -, hc, hc', hname⟩ := named_of_pairing? ht hp hsender
    exact ⟨c, c', hc, hc', hname⟩
  · rw [trail_append]
    exact clientsOf_handleNext hnone
  · obtain ⟨messages, hreceived, hlate, -⟩ := (ht.hub.honest id c hc).stream
    exact ⟨messages, hreceived, hlate⟩
  · rintro hloyal id origin ⟨number, path, past, rest, rfl, hp, horigin⟩
    have hread : ∀ origin ∈ (h₀.trail past).origins, origin.isSome :=
      read_trail hloyal.queue fun event hdrain hmem =>
        hloyal.read event hdrain (List.mem_append_left _ hmem)
    obtain ⟨sender, rfl⟩ := Option.isSome_iff_exists.1 (hread origin (List.mem_of_head? horigin))
    obtain ⟨s, hs, rfl⟩ := hloyal.current past rest _ sender rfl hp horigin
    have hsame := client_eq_of_pairing? (sound_trail hfresh past) hloyal.apart hp hs horigin
    exact congrArg some hsame.symm

/-- A server answers its start before anything else is done. -/
theorem pairs_of_beats_start :
    let h₀ : Hub := { settings := {}, root := none, fleet := { capacity := 4 } }
    let answer := Utf8.encode "\x7b\"id\":0,\"result\":null\x7d".toList
    let beats : List Beat :=
      [.other (.create "/a.cpp" [] 24 80 {}) nofun, .other (.openDocument 0) nofun,
        .other (.emit 0 (Frame.encode answer)) nofun, .other (.read 0) nofun,
        .other (.read 0) nofun, .handle]
    h₀.Fresh ∧ h₀.Loyal beats ∧ h₀.Answered beats 0 (some 0) ∧ h₀.Pairs beats := by
  intro h₀ answer beats
  have hfresh : h₀.Fresh := ⟨rfl, rfl, rfl⟩
  have hanswered : (h₀.trail (beats.take 5)).hub.pairing? = some ⟨0, 0, .start "/a.cpp"⟩ ∧
      (h₀.trail (beats.take 5)).origins.head? = some (some 0) ∧
        ∃ s ∈ (h₀.trail (beats.take 5)).hub.sessions.values, s.client = 0 := by decide +kernel
  have hapart : Apart h₀.settings := by
    intro language language' name hserver hserver'
    have hmem := Table.mem_of_find? hserver
    have hmem' := Table.mem_of_find? hserver'
    simp only [h₀, List.mem_cons, Prod.mk.injEq, List.not_mem_nil, or_false] at hmem hmem'
    obtain ⟨rfl, rfl⟩ | ⟨rfl, rfl⟩ := hmem <;> obtain ⟨rfl, hname⟩ | ⟨rfl, hname⟩ := hmem' <;>
      first | rfl | exact absurd hname (by decide)
  refine ⟨hfresh, ⟨hapart, rfl, ?_, ?_⟩, ?_, pairs_of_beats hfresh beats⟩
  · intro event hdrain hmem
    simp [beats] at hmem
  · intro past rest p sender hbeats hp hsender
    have hpast : past = beats.take 5 := by
      have htake : past = beats.take past.length := by rw [hbeats, List.take_left]
      have hhandle : beats[past.length]? = some .handle := by simp [hbeats]
      generalize past.length = length at htake hhandle
      match length with
      | 5 => exact htake
      | 0 | 1 | 2 | 3 | 4 | _ + 6 => simp [beats] at hhandle
    subst hpast
    obtain rfl := Option.some.inj (Option.some.inj (hanswered.2.1.symm.trans hsender))
    exact hanswered.2.2
  · exact ⟨0, "/a.cpp", beats.take 5, [], rfl, hanswered.1, hanswered.2.1⟩

/-- A response that was read from a process is handled after another one took its place, and one of
two languages with the same server answers: each is paired with the start of a process that has not
answered, and the first process is told of the document all the same. -/
theorem pairs_with_stranger :
    let answer := Utf8.encode "\x7b\"id\":0,\"result\":null\x7d".toList
    let replaced : Hub := { settings := {}, root := none, fleet := { capacity := 4 } }
    let late : Trail := replaced.trail
      [.other (.create "/a.cpp" [] 24 80 {}) nofun, .other (.openDocument 0) nofun,
        .other (.emit 0 (Frame.encode answer)) nofun, .other (.read 0) nofun,
        .other (.read 0) nofun, .other (.restart "cpp") nofun]
    let shared : Hub :=
      { settings := { servers := [("cpp", "s"), ("rust", "s")] }, root := none
        fleet := { capacity := 4 } }
    let other : Trail := shared.trail
      [.other (.create "/a.cpp" [] 24 80 {}) nofun, .other (.create "/b.rs" [] 24 80 {}) nofun,
        .other (.openDocument 0) nofun, .other (.openDocument 1) nofun,
        .other (.emit 1 (Frame.encode answer)) nofun, .other (.read 1) nofun,
        .other (.read 1) nofun]
    (late.origins = [some 0] ∧ late.hub.pairing? = some ⟨1, 0, .start "/a.cpp"⟩ ∧
      (late.step .handle).hub.fleet.connections[1]?.map (·.process.received) =
        some ([.start 0 "clangd" none, .started, .didOpen "file:///a.cpp" "cpp" [] 0,
          .tokens 1 "file:///a.cpp"].map Outgoing.frame)) ∧
    other.origins = [some 1] ∧ other.hub.pairing? = some ⟨0, 0, .start "/a.cpp"⟩ := by
  decide +kernel

end Hub

end TextEditor.Server
