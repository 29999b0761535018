import SelectServer.Lib.History
import SelectServer.TcpNetwork

/- `TcpNetwork` as a whole: sessions come and go, and everything they do is told in
   the queue of events. An accepted connection needs two slots of the queue, a
   packet one that no session has claimed, and closing a session takes the slot
   that its connection has claimed. So the queue is never too full for a
   `Disconnected` event, and each session is told in order: `Connected`, packets,
   and one `Disconnected` when it leaves (`events_in_order`). -/
namespace SelectServer
open Wire (Bytes)
open Histories

/-- What `accept` comes back with; for a connection, whether it could be made non-blocking. -/
inductive Accepted where
  | connection (nonBlocking : Bool) (now : Time)
  | wouldBlock
  | failed

inductive NetErrorCode where
  | none
  | acceptApiWsaewouldblock
  | aacceptApiError
  | acceptMaxSessionCount
  | acceptEventQueueFull
  | sessionIdExhausted
  | serverSocketFionbioFail
  deriving DecidableEq, Repr

namespace TcpNetwork

/-- The ids go on where they were before the last `Release`. -/
def init (config : NetworkConfig) (lastSessionId : SessionId) : Option TcpNetwork :=
  if h : config.isValid = true then
    some { config := config, valid := h, lastSessionId := lastSessionId }
  else .none

def isConnected (t : TcpNetwork) (sessionId : SessionId) : Bool :=
  t.clients.any (·.id = sessionId)

/-- `now` is the time at which the event is made. -/
def pushConnectionEvent (t : TcpNetwork) (type : NetworkEventType) (sessionId : SessionId)
    (now : Time) : TcpNetwork :=
  let event : NetworkEvent := { type := type, session := sessionId, occurredAt := now }
  { t with events := t.events ++ [event] }

def acceptClient (t : TcpNetwork) : Accepted → NetErrorCode × TcpNetwork
  | .wouldBlock => (.acceptApiWsaewouldblock, t)
  | .failed => (.aacceptApiError, t)
  | .connection nonBlocking now =>
    if t.clients.length ≥ t.config.maxClients then (.acceptMaxSessionCount, t)
    -- a slot for this `Connected` event and one for every `Disconnected` event to come
    else if t.events.length + t.clients.length + 2 > t.config.maxQueuedEvents then
      (.acceptEventQueueFull, t)
    else if t.lastSessionId = 0xffffffffffffffff then (.sessionIdExhausted, t)
    else if !nonBlocking then (.serverSocketFionbioFail, t)
    else
      let client : ClientSession := { id := t.lastSessionId + 1 }
      let t := { t with lastSessionId := t.lastSessionId + 1, clients := t.clients ++ [client] }
      (.none, t.pushConnectionEvent .connected client.id now)

/-- The caller has an index of `m_clients`. -/
def closeClient (t : TcpNetwork) (index : Nat) : TcpNetwork :=
  match t.clients[index]? with
  | .none => t
  | some client =>
    let t := { t with clients := t.clients.eraseIdx index }
    t.pushConnectionEvent .disconnected client.id 0

/-- One pass of the loop of `Run`: what `recv` and `send` come back with where the socket is ready. -/
def serveClient (t : TcpNetwork) (index : Nat) (received : Option Received) (sent : Option Sent) :
    Option TcpNetwork :=
  match t.clients[index]? with
  | .none => .none
  | some client =>
    let afterReceive : Option (Except ReceiveFault ClientSession × TcpNetwork) :=
      match received with
      | .none => some (.ok client, t)
      | some received => t.receiveClient client received
    match afterReceive with
    | .none => .none
    | some (.error _, t) => some (t.closeClient index)
    | some (.ok client, t) =>
      let afterSend := match sent with
        | .none => some client
        | some sent => sendClient client sent
      match afterSend with
      | .none => some (t.closeClient index)
      | some client => some { t with clients := t.clients.set index client }

def sendPacket (t : TcpNetwork) (sessionId : SessionId) (packetId : UInt16) (body : Bytes) :
    Bool × TcpNetwork :=
  match t.clients.findIdx? (·.id = sessionId) with
  | .none => (false, t)
  | some index =>
    match t.clients[index]? with
    | .none => (false, t)
    | some client =>
      let (queued, client) := t.queuePacket client packetId body
      (queued, { t with clients := t.clients.set index client })

def disconnect (t : TcpNetwork) (sessionId : SessionId) : TcpNetwork :=
  match t.clients.findIdx? (·.id = sessionId) with
  | .none => t
  | some index => t.closeClient index

end TcpNetwork

/-- What can happen to a network, in any order. -/
inductive TcpInput where
  | accept (accepted : Accepted)
  | serve (index : Nat) (received : Option Received) (sent : Option Sent)
  | tryPopEvent
  | sendPacket (sessionId : SessionId) (packetId : UInt16) (body : Bytes)
  | disconnect (sessionId : SessionId)

def TcpNetwork.step (t : TcpNetwork) : TcpInput → Option TcpNetwork
  | .accept accepted => some (t.acceptClient accepted).2
  | .serve index received sent => t.serveClient index received sent
  | .tryPopEvent => t.tryPopEvent.map Prod.snd
  | .sendPacket sessionId packetId body => some (t.sendPacket sessionId packetId body).2
  | .disconnect sessionId => some (t.disconnect sessionId)

def TcpStep (t : TcpNetwork) (l : TcpInput) (t' : TcpNetwork) : Prop := t.step l = some t'

/-! ## What a step does to the sessions -/

namespace TcpNetwork

def ids (t : TcpNetwork) : List SessionId := t.clients.map ClientSession.id

/-- What can happen to the sessions at one point, with the events that are queued. -/
inductive SessionAct (t : TcpNetwork) : List NetworkEvent → TcpNetwork → Prop
  | kept {clients : List ClientSession} {queued : List NetworkEvent}
      (hids : clients.map ClientSession.id = t.ids)
      (hpackets : ∀ e ∈ queued, e.type = .packet ∧ e.session ∈ t.ids)
      (hroom : queued = [] ∨
        t.events.length + queued.length + t.clients.length ≤ t.config.maxQueuedEvents) :
      SessionAct t queued { t with clients := clients, events := t.events ++ queued }
  | accepted (now : Time) (hfew : t.clients.length < t.config.maxClients)
      (hroom : t.events.length + t.clients.length + 2 ≤ t.config.maxQueuedEvents)
      (hlast : t.lastSessionId ≠ 0xffffffffffffffff) :
      SessionAct t [{ type := .connected, session := t.lastSessionId + 1, occurredAt := now }]
        { t with
          clients := t.clients ++ [{ id := t.lastSessionId + 1 }]
          events := t.events ++
            [{ type := .connected, session := t.lastSessionId + 1, occurredAt := now }]
          lastSessionId := t.lastSessionId + 1 }
  | closed {index : Nat} {client : ClientSession} (h : t.clients[index]? = some client) :
      SessionAct t [{ type := .disconnected, session := client.id, occurredAt := 0 }]
        { t with
          clients := t.clients.eraseIdx index
          events := t.events ++ [{ type := .disconnected, session := client.id, occurredAt := 0 }] }

variable {t t' : TcpNetwork} {queued : List NetworkEvent}

theorem SessionAct.same {clients : List ClientSession} (hids : clients.map ClientSession.id = t.ids) :
    SessionAct t [] { t with clients := clients } := by
  have h : SessionAct t [] { t with clients := clients, events := t.events ++ [] } :=
    .kept hids (by simp) (Or.inl rfl)
  rwa [List.append_nil] at h

theorem SessionAct.refl (t : TcpNetwork) : SessionAct t [] t := SessionAct.same rfl

theorem set_ids {clients : List ClientSession} {index : Nat} {client client' : ClientSession}
    (h : clients[index]? = some client) (hid : client'.id = client.id) :
    (clients.set index client').map ClientSession.id = clients.map ClientSession.id := by
  rw [List.map_set, hid]
  apply List.ext_getElem?
  intro i
  by_cases hi : index = i
  · subst hi
    rw [List.getElem?_set_self', List.getElem?_map, h]
    rfl
  · rw [List.getElem?_set_ne hi]

/-- The packets that are queued keep to the limit. -/
theorem enqueueAll_bound (client : ClientSession) (packets : List Payload) : ∀ t : TcpNetwork,
    t.events.length + t.clients.length ≤ t.config.maxQueuedEvents →
      (enqueueAll (enqueueReceivedPacket client) packets t).2.events.length + t.clients.length ≤
        t.config.maxQueuedEvents := by
  induction packets with
  | nil => exact fun t h => h
  | cons p packets ih =>
    intro t h
    rw [enqueueAll, enqueueReceivedPacket]
    by_cases hfull : t.events.length + t.clients.length ≥ t.config.maxQueuedEvents
    · rw [if_pos hfull]
      exact h
    · rw [if_neg hfull]
      apply ih { t with events := t.events ++ [_] }
      simp only [List.length_append, List.length_singleton]
      omega

/-- `ReceiveClient`, whatever it is given, only queues packets of its session. -/
theorem receiveClient_acts {index : Nat} {client : ClientSession}
    (h : t.clients[index]? = some client)
    (hroom : t.events.length + t.clients.length ≤ t.config.maxQueuedEvents) (received : Received) :
    ∃ result queued, t.receiveClient client received =
        some (result, { t with events := t.events ++ queued }) ∧
      (∀ client', result = .ok client' → client'.id = client.id) ∧
        (∀ e ∈ queued, e.type = .packet ∧ e.session ∈ t.ids) ∧
          t.events.length + queued.length + t.clients.length ≤ t.config.maxQueuedEvents := by
  have hsame : { t with events := t.events ++ [] } = t := by rw [List.append_nil]
  have hnothing : ∀ result : Except ReceiveFault ClientSession,
      t.receiveClient client received = some (result, t) →
        (∀ client', result = .ok client' → client'.id = client.id) →
          ∃ result queued, t.receiveClient client received =
              some (result, { t with events := t.events ++ queued }) ∧
            (∀ client', result = .ok client' → client'.id = client.id) ∧
              (∀ e ∈ queued, e.type = .packet ∧ e.session ∈ t.ids) ∧
                t.events.length + queued.length + t.clients.length ≤ t.config.maxQueuedEvents := by
    intro result e hid
    exact ⟨result, [], by rw [e, hsame], hid, by simp, by simpa using hroom⟩
  cases received with
  | finished => exact hnothing _ rfl (by simp)
  | failed => exact hnothing _ rfl (by simp)
  | wouldBlock =>
    refine hnothing _ rfl fun client' e => ?_
    cases e
    rfl
  | data chunk =>
    by_cases hlimit : client.recvBuffer.length > t.config.maxRecvBufferBytes ∨
        chunk.bytes.length > t.config.maxRecvBufferBytes - client.recvBuffer.length
    · exact hnothing (.error .bufferLimit) (if_pos hlimit) (by simp)
    generalize hread : { client with recvBuffer := client.recvBuffer ++ chunk.bytes } = reading
    have hid : reading.id = client.id := by rw [← hread]
    obtain ⟨queued, refused, -, e, -⟩ := enqueueAll_events reading
      ((packetFormat.parse reading.recvBuffer).frames.map payload) t
    have hbound := enqueueAll_bound reading
      ((packetFormat.parse reading.recvBuffer).frames.map payload) t hroom
    rw [e] at hbound
    refine ⟨if refused.isEmpty then
        (verdict (packetFormat.parse reading.recvBuffer).ending).map fun rest =>
          { reading with recvBuffer := rest }
      else .error .queueFull, queued.map (packetEvent reading.id), ?_, ?_, ?_, ?_⟩
    · refine (if_neg hlimit).trans ?_
      rw [hread, processRecvBuffer, processBuffer_eq, e]
      cases refused with
      | nil => rfl
      | cons => rfl
    · intro client' hresult
      split at hresult
      · cases hending : (packetFormat.parse reading.recvBuffer).ending with
        | broken =>
          rw [hending] at hresult
          cases hresult
        | kept rest =>
          rw [hending] at hresult
          cases hresult
          exact hid
      · cases hresult
    · intro event hevent
      obtain ⟨p, -, rfl⟩ := List.mem_map.mp hevent
      refine ⟨rfl, ?_⟩
      show reading.id ∈ t.ids
      rw [hid]
      exact List.mem_map_of_mem (List.mem_of_getElem? h)
    · rw [List.length_append, List.length_map] at hbound
      rw [List.length_map]
      exact hbound

theorem closeClient_act {index : Nat} {client : ClientSession}
    (h : t.clients[index]? = some client) :
    SessionAct t [{ type := .disconnected, session := client.id, occurredAt := 0 }]
      (t.closeClient index) := by
  rw [closeClient, h]
  exact .closed h

theorem sendClient_id {client client' : ClientSession} {sent : Sent}
    (h : sendClient client sent = some client') : client'.id = client.id := by
  unfold sendClient at h
  split at h
  · cases h
    rfl
  cases sent with
  | bytes n =>
    cases h
    rfl
  | wouldBlock =>
    cases h
    rfl
  | failed => cases h
  | noProgress => cases h

theorem acceptClient_act (accepted : Accepted) :
    ∃ queued, SessionAct t queued (t.acceptClient accepted).2 := by
  cases accepted with
  | wouldBlock => exact ⟨[], .refl _⟩
  | failed => exact ⟨[], .refl _⟩
  | connection nonBlocking now =>
    unfold acceptClient
    dsimp only
    split
    · exact ⟨[], .refl _⟩
    rename_i hfew
    split
    · exact ⟨[], .refl _⟩
    rename_i hroom
    split
    · exact ⟨[], .refl _⟩
    rename_i hlast
    split
    · exact ⟨[], .refl _⟩
    · exact ⟨_, .accepted now (by omega) (by omega) hlast⟩

/-- A session receives, and then it sends or is closed. -/
theorem serveClient_acts {index : Nat} {received : Option Received} {sent : Option Sent}
    (hroom : t.events.length + t.clients.length ≤ t.config.maxQueuedEvents)
    (h : t.serveClient index received sent = some t') :
    ∃ packets t1 queued, SessionAct t packets t1 ∧ t1.ids = t.ids ∧ (∀ e ∈ packets, e.type = .packet) ∧
      SessionAct t1 queued t' := by
  unfold serveClient at h
  cases hclient : t.clients[index]? with
  | none =>
    rw [hclient] at h
    cases h
  | some client =>
    rw [hclient] at h
    dsimp only at h
    obtain ⟨result, packets, e, hid, hpackets, hbound⟩ : ∃ result packets,
        (match received with
          | none => some (Except.ok client, t)
          | some received => t.receiveClient client received) =
            some (result, { t with events := t.events ++ packets }) ∧
          (∀ client', result = .ok client' → client'.id = client.id) ∧
            (∀ e ∈ packets, e.type = .packet ∧ e.session ∈ t.ids) ∧
              t.events.length + packets.length + t.clients.length ≤ t.config.maxQueuedEvents := by
      cases received with
      | none =>
        refine ⟨.ok client, [], by rw [List.append_nil], fun client' e => ?_, by simp, ?_⟩
        swap
        · exact hroom
        cases e
        rfl
      | some received => exact receiveClient_acts hclient hroom received
    rw [e] at h
    refine ⟨packets, { t with events := t.events ++ packets }, ?_⟩
    suffices hsecond : ∃ queued, SessionAct { t with events := t.events ++ packets } queued t' by
      obtain ⟨queued, hact⟩ := hsecond
      exact ⟨queued, .kept rfl hpackets (Or.inr hbound), rfl, fun e he => (hpackets e he).1, hact⟩
    have hclosed := closeClient_act (t := { t with events := t.events ++ packets }) hclient
    cases result with
    | error fault =>
      cases h
      exact ⟨_, hclosed⟩
    | ok client1 =>
      dsimp only at h
      have hkept : ∀ client2 : ClientSession, client2.id = client1.id →
          SessionAct { t with events := t.events ++ packets } [] { t with
            clients := t.clients.set index client2
            events := t.events ++ packets } := fun client2 hsame =>
        .same (set_ids hclient (hsame.trans (hid _ rfl)))
      cases sent with
      | none =>
        cases h
        exact ⟨[], hkept client1 rfl⟩
      | some sent =>
        dsimp only at h
        cases hsend : sendClient client1 sent with
        | none =>
          rw [hsend] at h
          cases h
          exact ⟨_, hclosed⟩
        | some client2 =>
          rw [hsend] at h
          cases h
          exact ⟨[], hkept client2 (sendClient_id hsend)⟩

theorem sendPacket_act (t : TcpNetwork) (s : SessionId) (packetId : UInt16) (body : Bytes) :
    SessionAct t [] (t.sendPacket s packetId body).2 := by
  unfold sendPacket
  cases t.clients.findIdx? (·.id = s) with
  | none => exact .refl t
  | some index =>
    dsimp only
    cases hclient : t.clients[index]? with
    | none => exact .refl t
    | some client =>
      refine .same (set_ids hclient ?_)
      rcases t.queuePacket_cases client (packetId, body) with e | ⟨-, e⟩
      · exact congrArg (fun r => r.2.id) e
      · exact congrArg (fun r => r.2.id) e

theorem disconnect_act (t : TcpNetwork) (s : SessionId) :
    ∃ queued, SessionAct t queued (t.disconnect s) := by
  unfold disconnect
  cases t.clients.findIdx? (·.id = s) with
  | none => exact ⟨[], .refl t⟩
  | some index =>
    cases hclient : t.clients[index]? with
    | none =>
      refine ⟨[], ?_⟩
      show SessionAct t [] (t.closeClient index)
      rw [closeClient, hclient]
      exact .refl t
    | some client => exact ⟨_, closeClient_act hclient⟩

end TcpNetwork

open TcpNetwork

/-- A step pops an event, or some packets are queued and then one more thing happens. -/
theorem TcpStep.acts {t t' : TcpNetwork} {l : TcpInput}
    (hroom : t.events.length + t.clients.length ≤ t.config.maxQueuedEvents) (h : TcpStep t l t') :
    (l = .tryPopEvent ∧ ∃ event, t.events = event :: t'.events ∧
      t' = { t with events := t'.events }) ∨
      (l ≠ .tryPopEvent ∧ ∃ packets t1 queued, SessionAct t packets t1 ∧ t1.ids = t.ids ∧
        (∀ e ∈ packets, e.type = .packet) ∧ SessionAct t1 queued t') := by
  have hone : ∀ {queued : List NetworkEvent}, SessionAct t queued t' → ∃ packets t1 queued,
      SessionAct t packets t1 ∧ t1.ids = t.ids ∧ (∀ e ∈ packets, e.type = .packet) ∧
        SessionAct t1 queued t' :=
    fun hact => ⟨[], t, _, .refl t, rfl, by simp, hact⟩
  cases l with
  | accept accepted =>
    cases h
    exact Or.inr ⟨by simp, hone (acceptClient_act accepted).choose_spec⟩
  | serve index received sent => exact Or.inr ⟨by simp, serveClient_acts hroom h⟩
  | sendPacket s packetId body =>
    cases h
    exact Or.inr ⟨by simp, hone (sendPacket_act t s packetId body)⟩
  | disconnect s =>
    cases h
    exact Or.inr ⟨by simp, hone (disconnect_act t s).choose_spec⟩
  | tryPopEvent =>
    obtain ⟨⟨event, network⟩, hpop, rfl⟩ := Option.map_eq_some_iff.mp h
    unfold TcpNetwork.tryPopEvent at hpop
    split at hpop
    · cases hpop
    rename_i events hevents
    cases hpop
    exact Or.inl ⟨rfl, event, hevents, rfl⟩

/-! ## The events of one session -/

/-- What a log of events tells of a session, in order. -/
def typesOf (s : SessionId) (log : List NetworkEvent) : List NetworkEventType :=
  (log.filter (·.session = s)).map NetworkEvent.type

theorem typesOf_append (s : SessionId) (a b : List NetworkEvent) :
    typesOf s (a ++ b) = typesOf s a ++ typesOf s b := by
  rw [typesOf, List.filter_append, List.map_append, typesOf, typesOf]

theorem typesOf_other {s : SessionId} {log : List NetworkEvent} (h : ∀ e ∈ log, e.session ≠ s) :
    typesOf s log = [] := by
  rw [typesOf, List.filter_eq_nil_iff.mpr fun e he => by simpa using h e he]
  rfl

theorem typesOf_packets (s : SessionId) {log : List NetworkEvent} (h : ∀ e ∈ log, e.type = .packet) :
    ∃ n, typesOf s log = List.replicate n .packet := by
  refine ⟨_, List.eq_replicate_iff.mpr ⟨rfl, fun type htype => ?_⟩⟩
  obtain ⟨e, he, rfl⟩ := List.mem_map.mp htype
  exact h e (List.mem_filter.mp he).1

/-- An event of another session. -/
theorem typesOf_single {s : SessionId} {event : NetworkEvent} (h : s ≠ event.session) :
    typesOf s [event] = [] :=
  typesOf_other fun e he => by
    rw [List.mem_singleton.mp he]
    exact Ne.symm h

/-- A session that is connected: it connected, and `n` packets came. -/
def livingTypes (n : Nat) : List NetworkEventType := .connected :: List.replicate n .packet

/-- A session that is gone. -/
def endedTypes (n : Nat) : List NetworkEventType := livingTypes n ++ [.disconnected]

theorem livingTypes_append (n m : Nat) :
    livingTypes n ++ List.replicate m .packet = livingTypes (n + m) := by
  rw [livingTypes, List.cons_append, List.replicate_append_replicate]
  rfl

namespace TcpNetwork

/-- What holds between the steps of a network. -/
structure Sound (t : TcpNetwork) : Prop where
  room : t.events.length + t.clients.length ≤ t.config.maxQueuedEvents
  few : t.clients.length ≤ t.config.maxClients
  nodup : t.ids.Nodup
  issued : ∀ s ∈ t.ids, s ≤ t.lastSessionId

/-- What all events that were ever queued, `log`, tell of the sessions. -/
structure SessionsTold (log : List NetworkEvent) (t : TcpNetwork) : Prop where
  living : ∀ s ∈ t.ids, ∃ n, typesOf s log = livingTypes n
  ended : ∀ s ∉ t.ids, typesOf s log = [] ∨ ∃ n, typesOf s log = endedTypes n
  fresh : ∀ s, t.lastSessionId < s → typesOf s log = []

variable {t t' : TcpNetwork} {queued log : List NetworkEvent}

theorem SessionAct.events (h : SessionAct t queued t') : t'.events = t.events ++ queued := by
  cases h <;> rfl

theorem SessionAct.config (h : SessionAct t queued t') : t'.config = t.config := by
  cases h <;> rfl

theorem lt_succ (h : t.lastSessionId ≠ 0xffffffffffffffff) :
    t.lastSessionId < t.lastSessionId + 1 := by
  grind

theorem SessionAct.last (h : SessionAct t queued t') : t.lastSessionId ≤ t'.lastSessionId := by
  cases h with
  | kept => exact UInt64.le_refl _
  | accepted _ _ _ hlast => exact UInt64.le_of_lt (lt_succ hlast)
  | closed => exact UInt64.le_refl _

theorem accepted_ids (t : TcpNetwork) (s last : SessionId) (events : List NetworkEvent) :
    ids { t with clients := t.clients ++ [{ id := s }], events := events, lastSessionId := last } =
      t.ids ++ [s] :=
  List.map_append ..

/-- The session that is closed, and no other, leaves. -/
theorem mem_closed_ids (hnodup : t.ids.Nodup) {index : Nat} {client : ClientSession}
    (h : t.clients[index]? = some client) (s : SessionId) :
    s ∈ (t.clients.eraseIdx index).map ClientSession.id ↔ s ≠ client.id ∧ s ∈ t.ids := by
  obtain ⟨hindex, hclient⟩ := List.getElem?_eq_some_iff.mp h
  have hlt : index < t.ids.length := by
    rw [ids, List.length_map]
    exact hindex
  have hid : t.ids[index] = client.id := by
    rw [← hclient]
    exact List.getElem_map ..
  have herase : (t.clients.eraseIdx index).map ClientSession.id = t.ids.erase client.id := by
    rw [← List.eraseIdx_map, ← hid]
    exact (hnodup.erase_getElem index hlt).symm
  rw [herase, hnodup.mem_erase_iff]

theorem SessionAct.sound (h : SessionAct t queued t') (ht : t.Sound) : t'.Sound := by
  have hroom := ht.room
  cases h with
  | kept hids hpackets hlimit =>
    rename_i clients
    have hlength : clients.length = t.clients.length := by
      have hmap := congrArg List.length hids
      rwa [ids, List.length_map, List.length_map] at hmap
    refine ⟨?_, ?_, ?_, ?_⟩
    · show (t.events ++ queued).length + clients.length ≤ t.config.maxQueuedEvents
      rw [List.length_append, hlength]
      rcases hlimit with rfl | hlimit
      · exact hroom
      · exact hlimit
    · show clients.length ≤ t.config.maxClients
      rw [hlength]
      exact ht.few
    · show (clients.map ClientSession.id).Nodup
      rw [hids]
      exact ht.nodup
    · show ∀ s ∈ clients.map ClientSession.id, s ≤ t.lastSessionId
      rw [hids]
      exact ht.issued
  | accepted now hfew hlimit hlast =>
    have hnew : t.lastSessionId + 1 ∉ t.ids := fun hmem =>
      UInt64.not_le.mpr (lt_succ hlast) (ht.issued _ hmem)
    refine ⟨?_, ?_, ?_, ?_⟩
    · simp only [List.length_append, List.length_singleton]
      omega
    · simp only [List.length_append, List.length_singleton]
      omega
    · rw [accepted_ids, List.nodup_append]
      refine ⟨ht.nodup, List.nodup_singleton _, fun s hs s' hs' e => ?_⟩
      obtain rfl := List.mem_singleton.mp hs'
      exact hnew (e ▸ hs)
    · rw [accepted_ids]
      intro s hs
      show s ≤ t.lastSessionId + 1
      rcases List.mem_append.mp hs with hs | hs
      · exact UInt64.le_trans (ht.issued s hs) (UInt64.le_of_lt (lt_succ hlast))
      · obtain rfl := List.mem_singleton.mp hs
        exact UInt64.le_refl _
  | closed hclient =>
    rename_i index client
    obtain ⟨hindex, -⟩ := List.getElem?_eq_some_iff.mp hclient
    have hlength : (t.clients.eraseIdx index).length + 1 = t.clients.length :=
      List.length_eraseIdx_add_one hindex
    have hfew := ht.few
    refine ⟨?_, ?_, ?_, ?_⟩
    · -- the event takes the slot that was kept for it
      simp only [List.length_append, List.length_singleton]
      omega
    · show (t.clients.eraseIdx index).length ≤ t.config.maxClients
      omega
    · show ((t.clients.eraseIdx index).map ClientSession.id).Nodup
      exact ht.nodup.sublist ((List.eraseIdx_sublist ..).map _)
    · intro s hs
      exact ht.issued s ((mem_closed_ids ht.nodup hclient s).mp hs).2

theorem SessionAct.told (h : SessionAct t queued t') (ht : t.Sound) (htold : SessionsTold log t) :
    SessionsTold (log ++ queued) t' := by
  cases h with
  | kept hids hpackets =>
    rename_i clients _
    -- packets come from sessions that are connected
    have hother : ∀ s ∉ t.ids, typesOf s queued = [] := fun s hs =>
      typesOf_other fun e he heq => hs (heq ▸ (hpackets e he).2)
    have hsame : ids { t with clients := clients, events := t.events ++ queued } = t.ids := hids
    refine ⟨?_, ?_, ?_⟩
    · rw [hsame]
      intro s hs
      obtain ⟨n, hn⟩ := htold.living s hs
      obtain ⟨m, hm⟩ := typesOf_packets s fun e he => (hpackets e he).1
      exact ⟨n + m, by rw [typesOf_append, hn, hm, livingTypes_append]⟩
    · rw [hsame]
      intro s hs
      rw [typesOf_append, hother s hs, List.append_nil]
      exact htold.ended s hs
    · intro s hs
      have hnew : s ∉ t.ids := fun hmem => UInt64.not_le.mpr hs (ht.issued s hmem)
      rw [typesOf_append, hother s hnew, List.append_nil]
      exact htold.fresh s hs
  | accepted now _ _ hlast =>
    have hother : ∀ s, s ≠ t.lastSessionId + 1 → typesOf s
        [{ type := .connected, session := t.lastSessionId + 1, occurredAt := now }] = [] :=
      fun s hs => typesOf_single hs
    refine ⟨?_, ?_, ?_⟩
    · rw [accepted_ids]
      intro s hs
      by_cases hnew : s = t.lastSessionId + 1
      · -- the new session has nothing but its `Connected` event
        subst hnew
        refine ⟨0, ?_⟩
        rw [typesOf_append, htold.fresh _ (lt_succ hlast)]
        simp [typesOf, livingTypes]
      · have hold : s ∈ t.ids := by simpa [hnew] using hs
        rw [typesOf_append, hother s hnew, List.append_nil]
        exact htold.living s hold
    · rw [accepted_ids]
      intro s hs
      rw [List.mem_append, List.mem_singleton, not_or] at hs
      rw [typesOf_append, hother s hs.2, List.append_nil]
      exact htold.ended s hs.1
    · intro s hs
      have hlt : t.lastSessionId < s := UInt64.lt_trans (lt_succ hlast) hs
      rw [typesOf_append, hother s (UInt64.ne_of_lt hs).symm, List.append_nil]
      exact htold.fresh s hlt
  | closed hclient =>
    rename_i index client
    have hother : ∀ s, s ≠ client.id → typesOf s
        [{ type := .disconnected, session := client.id, occurredAt := 0 }] = [] :=
      fun s hs => typesOf_single hs
    have hin : client.id ∈ t.ids := List.mem_map_of_mem (List.mem_of_getElem? hclient)
    refine ⟨?_, ?_, ?_⟩
    · intro s hs
      obtain ⟨hne, hs⟩ := (mem_closed_ids ht.nodup hclient s).mp hs
      rw [typesOf_append, hother s hne, List.append_nil]
      exact htold.living s hs
    · intro s hs
      by_cases heq : s = client.id
      · -- it was living until now
        subst heq
        obtain ⟨n, hn⟩ := htold.living _ hin
        refine Or.inr ⟨n, ?_⟩
        rw [typesOf_append, hn]
        simp [typesOf, endedTypes]
      · have hold : s ∉ t.ids := fun hmem =>
          hs ((mem_closed_ids ht.nodup hclient s).mpr ⟨heq, hmem⟩)
        rw [typesOf_append, hother s heq, List.append_nil]
        exact htold.ended s hold
    · intro s hs
      have hne : s ≠ client.id := by
        rintro rfl
        exact UInt64.not_le.mpr hs (ht.issued _ hin)
      rw [typesOf_append, hother s hne, List.append_nil]
      exact htold.fresh s hs

/-- `Disconnected` is queued for the session that leaves. -/
theorem SessionAct.leaves (h : SessionAct t queued t') (ht : t.Sound) (s : SessionId) :
    (∃ e ∈ queued, e.type = .disconnected ∧ e.session = s) ↔ s ∈ t.ids ∧ s ∉ t'.ids := by
  cases h with
  | kept hids hpackets =>
    rename_i clients _
    have hsame : ids { t with clients := clients, events := t.events ++ queued } = t.ids := hids
    constructor
    · rintro ⟨e, he, htype, -⟩
      rw [(hpackets e he).1] at htype
      cases htype
    · rintro ⟨hs, hs'⟩
      rw [hsame] at hs'
      exact absurd hs hs'
  | accepted now =>
    constructor
    · rintro ⟨e, he, htype, -⟩
      rw [List.mem_singleton.mp he] at htype
      cases htype
    · rintro ⟨hs, hs'⟩
      rw [accepted_ids] at hs'
      exact absurd (List.mem_append_left _ hs) hs'
  | closed hclient =>
    rename_i index client
    have hin : client.id ∈ t.ids := List.mem_map_of_mem (List.mem_of_getElem? hclient)
    constructor
    · rintro ⟨e, he, -, rfl⟩
      rw [List.mem_singleton.mp he]
      exact ⟨hin, fun hmem => ((mem_closed_ids ht.nodup hclient _).mp hmem).1 rfl⟩
    · rintro ⟨hs, hs'⟩
      refine ⟨_, List.mem_singleton_self _, rfl, ?_⟩
      by_contra hne
      exact hs' ((mem_closed_ids ht.nodup hclient s).mpr ⟨Ne.symm hne, hs⟩)

theorem acceptClient_ids (t : TcpNetwork) (accepted : Accepted) :
    ((t.acceptClient accepted).2.ids = t.ids ∧
      (t.acceptClient accepted).2.lastSessionId = t.lastSessionId) ∨
    (t.lastSessionId ≠ 0xffffffffffffffff ∧
      (t.acceptClient accepted).2.ids = t.ids ++ [t.lastSessionId + 1] ∧
      (t.acceptClient accepted).2.lastSessionId = t.lastSessionId + 1) := by
  cases accepted with
  | wouldBlock => exact Or.inl ⟨rfl, rfl⟩
  | failed => exact Or.inl ⟨rfl, rfl⟩
  | connection nonBlocking now =>
    unfold acceptClient
    dsimp only
    split
    · exact Or.inl ⟨rfl, rfl⟩
    split
    · exact Or.inl ⟨rfl, rfl⟩
    split
    · exact Or.inl ⟨rfl, rfl⟩
    rename_i hlast
    split
    · exact Or.inl ⟨rfl, rfl⟩
    · exact Or.inr ⟨hlast, accepted_ids .., rfl⟩

end TcpNetwork

/-! ## Runs -/

namespace TcpInput

/-- What a step puts at the end of the queue. -/
def enqueuedIn (e : Entry TcpNetwork TcpInput) : List NetworkEvent :=
  match e.label with
  | .tryPopEvent => []
  | _ => e.post.events.drop e.pre.events.length

/-- What a step takes from the front of the queue. -/
def poppedIn (e : Entry TcpNetwork TcpInput) : List NetworkEvent :=
  match e.label with
  | .tryPopEvent => e.pre.events.take 1
  | _ => []

/-- The id that a step gives to a connection. -/
def givenIn (e : Entry TcpNetwork TcpInput) : List SessionId :=
  match e.label with
  | .accept _ => e.post.ids.drop e.pre.ids.length
  | _ => []

end TcpInput
open TcpInput

/-- What one step does to the queue, to what it tells of the sessions, and to the sessions. -/
structure Moved (e : Entry TcpNetwork TcpInput) : Prop where
  sound : e.post.Sound
  config : e.post.config = e.pre.config
  queue : e.pre.events ++ enqueuedIn e = poppedIn e ++ e.post.events
  told : ∀ log, SessionsTold log e.pre → SessionsTold (log ++ enqueuedIn e) e.post
  leaves : ∀ s, (∃ event ∈ enqueuedIn e, event.type = .disconnected ∧ event.session = s) ↔
    s ∈ e.pre.ids ∧ s ∉ e.post.ids
  last : e.pre.lastSessionId ≤ e.post.lastSessionId
  given : (givenIn e).Nodup ∧
    ∀ s ∈ givenIn e, e.pre.lastSessionId < s ∧ s ≤ e.post.lastSessionId

theorem givenIn_spec {t t' : TcpNetwork} {l : TcpInput} (h : TcpStep t l t') :
    (givenIn ⟨t, l, t'⟩).Nodup ∧
      ∀ s ∈ givenIn ⟨t, l, t'⟩, t.lastSessionId < s ∧ s ≤ t'.lastSessionId := by
  cases l with
  | accept accepted =>
    cases h
    rw [givenIn]
    dsimp only
    rcases acceptClient_ids t accepted with ⟨e, -⟩ | ⟨hlast, e, elast⟩
    · rw [e, List.drop_length]
      exact ⟨List.nodup_nil, by simp⟩
    · rw [e, List.drop_left, elast]
      refine ⟨List.nodup_singleton _, fun s hs => ?_⟩
      obtain rfl := List.mem_singleton.mp hs
      exact ⟨lt_succ hlast, UInt64.le_refl _⟩
  | serve | tryPopEvent | sendPacket | disconnect => exact ⟨List.nodup_nil, by simp [givenIn]⟩

/-- An event is popped: only the queue gets shorter. -/
theorem moved_popped {t : TcpNetwork} {event : NetworkEvent} {rest : List NetworkEvent}
    (ht : t.Sound) (hevents : t.events = event :: rest) :
    Moved ⟨t, .tryPopEvent, { t with events := rest }⟩ where
  sound := by
    have hroom := ht.room
    rw [hevents, List.length_cons] at hroom
    refine ⟨?_, ht.few, ht.nodup, ht.issued⟩
    show rest.length + t.clients.length ≤ t.config.maxQueuedEvents
    omega
  config := rfl
  queue := by
    show t.events ++ [] = t.events.take 1 ++ rest
    rw [hevents, List.append_nil]
    rfl
  told log htold := by
    show SessionsTold (log ++ []) _
    rw [List.append_nil]
    exact ⟨htold.living, htold.ended, htold.fresh⟩
  leaves s := by
    constructor
    · rintro ⟨_, hmem, -⟩
      cases hmem
    · rintro ⟨hs, hs'⟩
      exact absurd hs hs'
  last := UInt64.le_refl _
  given := ⟨List.nodup_nil, by simp [givenIn]⟩

/-- Any other step queues packets and then does one thing to the sessions. -/
theorem moved_acted {t t1 t' : TcpNetwork} {l : TcpInput} {packets queued : List NetworkEvent}
    (ht : t.Sound) (h : TcpStep t l t') (hne : l ≠ .tryPopEvent) (h1 : SessionAct t packets t1)
    (hids : t1.ids = t.ids) (hpackets : ∀ e ∈ packets, e.type = .packet)
    (h2 : SessionAct t1 queued t') : Moved ⟨t, l, t'⟩ := by
  have hsound1 := h1.sound ht
  have hevents : t'.events = t.events ++ (packets ++ queued) := by
    rw [h2.events, h1.events, List.append_assoc]
  have hqueued : enqueuedIn ⟨t, l, t'⟩ = packets ++ queued := by
    have hdrop : t'.events.drop t.events.length = packets ++ queued := by
      rw [hevents, List.drop_left]
    cases l with
    | tryPopEvent => exact absurd rfl hne
    | accept | serve | sendPacket | disconnect => exact hdrop
  have hpopped : poppedIn ⟨t, l, t'⟩ = [] := by
    cases l with
    | tryPopEvent => exact absurd rfl hne
    | accept | serve | sendPacket | disconnect => rfl
  refine ⟨h2.sound hsound1, h2.config.trans h1.config, ?_, ?_, ?_,
    UInt64.le_trans h1.last h2.last, givenIn_spec h⟩
  · rw [hqueued, hpopped]
    exact hevents.symm
  · intro log htold
    rw [hqueued, ← List.append_assoc]
    exact h2.told hsound1 (h1.told ht htold)
  · intro s
    show (∃ event ∈ enqueuedIn _, _) ↔ s ∈ t.ids ∧ s ∉ t'.ids
    rw [hqueued, ← hids, ← h2.leaves hsound1 s]
    -- no packet is a `Disconnected` event
    constructor
    · rintro ⟨event, hevent, htype, hsession⟩
      rcases List.mem_append.mp hevent with hevent | hevent
      · rw [hpackets event hevent] at htype
        cases htype
      · exact ⟨event, hevent, htype, hsession⟩
    · rintro ⟨event, hevent, hdisconnected⟩
      exact ⟨event, List.mem_append_right _ hevent, hdisconnected⟩

theorem TcpStep.moved {t t' : TcpNetwork} {l : TcpInput} (ht : t.Sound) (h : TcpStep t l t') :
    Moved ⟨t, l, t'⟩ := by
  rcases h.acts ht.room with ⟨rfl, event, hevents, e⟩ |
    ⟨hne, packets, t1, queued, h1, hids, hpackets, h2⟩
  · rw [e]
    exact moved_popped ht hevents
  · exact moved_acted ht h hne h1 hids hpackets h2

/-- Everything that was queued so far, and the invariant it keeps. -/
theorem tcp_run {config : NetworkConfig} {last : SessionId} {t0 t : TcpNetwork}
    {history : List (Entry TcpNetwork TcpInput)} (hinit : init config last = some t0)
    (hrun : Run TcpStep t0 history t) :
    t.Sound ∧ t.config = config ∧ SessionsTold (history.flatMap enqueuedIn) t ∧
      history.flatMap enqueuedIn = history.flatMap poppedIn ++ t.events ∧
      (∀ e ∈ history, Moved e) ∧ last ≤ t.lastSessionId ∧ (history.flatMap givenIn).Nodup ∧
        ∀ s ∈ history.flatMap givenIn, last < s ∧ s ≤ t.lastSessionId := by
  induction hrun with
  | start =>
    unfold init at hinit
    split at hinit
    swap
    · cases hinit
    cases hinit
    refine ⟨⟨Nat.zero_le _, Nat.zero_le _, List.nodup_nil, ?_⟩, rfl, ⟨?_, ?_, ?_⟩, rfl, ?_,
      UInt64.le_refl _, List.nodup_nil, ?_⟩
    · intro s hs
      cases hs
    · intro s hs
      cases hs
    · exact fun s _ => Or.inl rfl
    · exact fun s _ => rfl
    · intro e he
      cases he
    · intro s hs
      cases hs
  | snoc before taken ih =>
    rename_i history t t' l
    obtain ⟨hsound, hconfig, htold, hqueue, hall, hlast, hnodup, hgiven⟩ := ih
    have hmoved := taken.moved hsound
    simp only [List.flatMap_append, List.flatMap_singleton]
    refine ⟨hmoved.sound, hmoved.config.trans hconfig, hmoved.told _ htold, ?_, ?_,
      UInt64.le_trans hlast hmoved.last, ?_, ?_⟩
    · rw [hqueue, List.append_assoc, List.append_assoc]
      exact congrArg _ hmoved.queue
    · intro e he
      rcases List.mem_append.mp he with he | he
      · exact hall e he
      · obtain rfl := List.mem_singleton.mp he
        exact hmoved
    · -- ids only grow, so none that is given now was given before
      rw [List.nodup_append]
      refine ⟨hnodup, hmoved.given.1, fun s hs s' hs' e => ?_⟩
      subst e
      exact UInt64.not_le.mpr (hmoved.given.2 s hs').1 (hgiven s hs).2
    · intro s hs
      rcases List.mem_append.mp hs with hs | hs
      · exact ⟨(hgiven s hs).1, UInt64.le_trans (hgiven s hs).2 hmoved.last⟩
      · exact ⟨UInt64.lt_of_le_of_lt hlast (hmoved.given.2 s hs).1, (hmoved.given.2 s hs).2⟩

/-- In every run after `Init`: there is always a slot for the `Disconnected` event of every session;
each session is told in order, its end when it leaves, and the events are popped in the order they
were queued; and no id is given twice. -/
theorem events_in_order {config : NetworkConfig} {last : SessionId} {t0 t : TcpNetwork}
    {history : List (Entry TcpNetwork TcpInput)} (hinit : init config last = some t0)
    (hrun : Run TcpStep t0 history t) :
    (t.events.length + t.clients.length ≤ config.maxQueuedEvents ∧
      t.clients.length ≤ config.maxClients) ∧
    (history.flatMap enqueuedIn = history.flatMap poppedIn ++ t.events ∧
      (∀ s ∈ t.ids, ∃ n, typesOf s (history.flatMap enqueuedIn) = livingTypes n) ∧
      (∀ s ∉ t.ids, typesOf s (history.flatMap enqueuedIn) = [] ∨
        ∃ n, typesOf s (history.flatMap enqueuedIn) = endedTypes n) ∧
      ∀ e ∈ history, ∀ s, (∃ event ∈ enqueuedIn e, event.type = .disconnected ∧ event.session = s) ↔
        s ∈ e.pre.ids ∧ s ∉ e.post.ids) ∧
    (history.flatMap givenIn).Nodup ∧ ∀ s ∈ history.flatMap givenIn, last < s := by
  obtain ⟨hsound, hconfig, htold, hqueue, hall, -, hnodup, hgiven⟩ := tcp_run hinit hrun
  subst hconfig
  exact ⟨⟨hsound.room, hsound.few⟩,
    ⟨hqueue, htold.living, htold.ended, fun e he => (hall e he).leaves⟩, hnodup,
    fun s hs => (hgiven s hs).1⟩

/-- A run of `inputs` that ends as `check` says. -/
theorem TcpNetwork.played (t : TcpNetwork) (inputs : List TcpInput)
    (check : List (Entry TcpNetwork TcpInput) → TcpNetwork → Bool)
    (h : (play step t inputs).any (fun r => check r.1 r.2) = true) :
    ∃ history t', Run TcpStep t history t' ∧ check history t' = true :=
  Run.played (fun _ _ _ taken => taken) h

/-- Two sessions connect, the first sends a packet and closes, and all events but one are popped. -/
def visit : List TcpInput :=
  [.accept (.connection true 0),
    .serve 0 (some (.data ⟨[0, 6, 0, 3, 104, 105], by decide, by decide⟩)) none,
    .accept (.connection true 1), .tryPopEvent, .serve 0 (some .finished) none, .tryPopEvent,
    .tryPopEvent]

theorem events_in_order_visit : ∃ history t, Run TcpStep TcpNetwork.idle history t ∧
    t.events.length + t.clients.length ≤ 8192 ∧ t.ids = [2] ∧
      typesOf 1 (history.flatMap poppedIn ++ t.events) = [.connected, .packet, .disconnected] ∧
        (history.flatMap givenIn).Nodup := by
  obtain ⟨history, t, hrun, hcheck⟩ := TcpNetwork.played TcpNetwork.idle visit
    (fun history t => decide (t.ids = [2] ∧
      typesOf 1 (history.flatMap enqueuedIn) = [.connected, .packet, .disconnected]))
    (by decide +kernel)
  obtain ⟨hids, htypes⟩ := decide_eq_true_eq.mp hcheck
  have hinit : init {} 0 = some TcpNetwork.idle := rfl
  obtain ⟨⟨hroom, -⟩, ⟨hqueue, -⟩, hnodup, -⟩ := events_in_order hinit hrun
  rw [hqueue] at htypes
  exact ⟨history, t, hrun, hroom, hids, htypes, hnodup⟩

end SelectServer
