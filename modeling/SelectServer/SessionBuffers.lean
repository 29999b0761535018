import SelectServer.Connection
import SelectServer.ServerApp

/- The buffers of one session while the network is at work for all of them. A call
   of the logic adds whole packets to the send buffer of its session or closes it
   (`Posts`); a `Run` receives and sends once for the session (`Exchanged`), and
   what it does for the others and for new connections changes nothing in it
   (`run_session`). -/
namespace SelectServer
open Wire (Bytes)
open Programs Histories

namespace TcpNetwork

/-- The session with the id, if it is connected. -/
def session (t : TcpNetwork) (s : SessionId) : Option ClientSession :=
  t.clients.find? (·.id = s)

variable {t t1 t' : TcpNetwork} {s : SessionId} {client client' : ClientSession} {index : Nat}

theorem session_none : t.session s = none ↔ s ∉ t.ids := by
  unfold session ids
  rw [List.find?_eq_none, List.mem_map]
  constructor
  · intro h hin
    obtain ⟨client, hclient, hid⟩ := hin
    exact h client hclient (decide_eq_true hid)
  · intro h client hclient hid
    exact h ⟨client, hclient, of_decide_eq_true hid⟩

theorem session_some (h : t.session s = some client) : client ∈ t.clients ∧ client.id = s := by
  have hfind : t.clients.find? (fun client => client.id = s) = some client := h
  have hid := List.find?_some hfind
  exact ⟨List.mem_of_find?_eq_some hfind, of_decide_eq_true hid⟩

theorem session_mem (h : t.session s = some client) : s ∈ t.ids :=
  List.mem_map.mpr ⟨client, session_some h⟩

theorem session_unborn (ht : t.Sound) (h : t.lastSessionId < s) : t.session s = none := by
  apply session_none.mpr
  intro hin
  exact UInt64.not_le.mpr h (ht.issued s hin)

/-! ## One place of the vector -/

/-- What is found where one session stands between others, of none of which it has the id. -/
theorem find_between (s : SessionId) (before after : List ClientSession) (client : ClientSession)
    (hnew : client.id ∉ (before ++ after).map ClientSession.id) :
    (before ++ client :: after).find? (·.id = s) =
      if client.id = s then some client else (before ++ after).find? (·.id = s) := by
  rw [List.find?_append, List.find?_append, List.find?_cons]
  by_cases hid : client.id = s
  · rw [if_pos hid, decide_eq_true hid]
    have hbefore : before.find? (·.id = s) = none := by
      rw [List.find?_eq_none]
      intro other hother hsame
      apply hnew
      rw [hid, ← of_decide_eq_true hsame]
      exact List.mem_map_of_mem (List.mem_append_left _ hother)
    rw [hbefore]
    rfl
  · rw [if_neg hid, decide_eq_false hid]

/-- The vector at an index, with the rest of it. -/
theorem clients_at (hnodup : t.ids.Nodup) (h : t.clients[index]? = some client) :
    ∃ before after, t.clients = before ++ client :: after ∧ before.length = index ∧
      client.id ∉ (before ++ after).map ClientSession.id := by
  obtain ⟨hlt, hat⟩ := List.getElem?_eq_some_iff.mp h
  have hsplit : t.clients = t.clients.take index ++ client :: t.clients.drop (index + 1) := by
    rw [← hat, ← List.drop_eq_getElem_cons hlt, List.take_append_drop]
  refine ⟨_, _, hsplit, by rw [List.length_take]; omega, ?_⟩
  have hids : t.ids = (t.clients.take index).map ClientSession.id ++
      client.id :: (t.clients.drop (index + 1)).map ClientSession.id := by
    show t.clients.map ClientSession.id = _
    conv_lhs => rw [hsplit]
    rw [List.map_append, List.map_cons]
  rw [hids, List.nodup_middle, List.nodup_cons, ← List.map_append] at hnodup
  exact hnodup.1

theorem session_set (hnodup : t.ids.Nodup) (h : t.clients[index]? = some client)
    (hid : client'.id = client.id) (s : SessionId) :
    ({ t with clients := t.clients.set index client' } : TcpNetwork).session s =
      if client.id = s then some client' else t.session s := by
  obtain ⟨before, after, hclients, rfl, hnew⟩ := clients_at hnodup h
  unfold session
  dsimp only
  rw [hclients, List.set_append_right _ _ (Nat.le_refl _), Nat.sub_self, List.set_cons_zero,
    find_between s before after client' (hid ▸ hnew), find_between s before after client hnew, hid]
  by_cases hs : client.id = s
  · rw [if_pos hs, if_pos hs]
  · rw [if_neg hs, if_neg hs, if_neg hs]

theorem session_close (hnodup : t.ids.Nodup) (h : t.clients[index]? = some client)
    (s : SessionId) :
    (t.closeClient index).session s = if client.id = s then none else t.session s := by
  rw [closeClient, h]
  obtain ⟨before, after, hclients, rfl, hnew⟩ := clients_at hnodup h
  show (t.clients.eraseIdx before.length).find? (·.id = s) = _
  unfold session
  rw [hclients, List.eraseIdx_append_of_length_le (Nat.le_refl _), Nat.sub_self,
    List.eraseIdx_cons_zero, find_between s before after client hnew]
  by_cases hs : client.id = s
  · rw [if_pos hs, List.find?_eq_none]
    intro other hother hsame
    apply hnew
    rw [hs, ← of_decide_eq_true hsame]
    exact List.mem_map_of_mem hother
  · rw [if_neg hs, if_neg hs]

theorem session_append (client : ClientSession) (hnew : client.id ∉ t.ids) (s : SessionId)
    (h : t'.clients = t.clients ++ [client]) :
    t'.session s = if client.id = s then some client else t.session s := by
  unfold session
  rw [h, find_between s t.clients [] client (by rw [List.append_nil]; exact hnew), List.append_nil]

theorem session_at (hnodup : t.ids.Nodup) (h : t.clients[index]? = some client) :
    t.session client.id = some client := by
  obtain ⟨before, after, hclients, -, hnew⟩ := clients_at hnodup h
  unfold session
  rw [hclients, find_between _ before after client hnew, if_pos rfl]

/-! ## A `Run` -/

variable {os : Sockets} {reads writes : FdSet}

/-- What a `Run` has made of a session that was `client`, on the network as it was when its turn came:
it has received and then sent, or it is closed. -/
def Exchanged (t t' : TcpNetwork) (client : ClientSession) (received : Option Received)
    (sent : Option Sent) : Prop :=
  ∃ t1 : TcpNetwork, ∃ result, ∃ queued : List Payload,
    t1.receiveIfReady client received =
      some (result, { t1 with events := t1.events ++ queued.map (packetEvent client.id) }) ∧
    packetsOf client.id t'.events = packetsOf client.id t.events ++ queued ∧
    t'.session client.id = result.toOption.bind fun client => sendIfReady client sent

/-- What a `Run` has left of a session as it was. -/
structure Untouched (t t' : TcpNetwork) (s : SessionId) : Prop where
  session : t'.session s = t.session s
  packets : packetsOf s t'.events = packetsOf s t.events

theorem Untouched.refl (t : TcpNetwork) (s : SessionId) : Untouched t t s := ⟨rfl, rfl⟩

theorem Untouched.trans (h : Untouched t t1 s) (h' : Untouched t1 t' s) : Untouched t t' s :=
  ⟨h'.session.trans h.session, h'.packets.trans h.packets⟩

theorem Exchanged.before {received : Option Received} {sent : Option Sent}
    (h : Untouched t t1 client.id) (h' : Exchanged t1 t' client received sent) :
    Exchanged t t' client received sent := by
  obtain ⟨t2, result, queued, hreceive, hpackets, hsession⟩ := h'
  exact ⟨t2, result, queued, hreceive, by rw [hpackets, h.packets], hsession⟩

theorem Exchanged.after {received : Option Received} {sent : Option Sent}
    (h : Exchanged t t1 client received sent) (h' : Untouched t1 t' client.id) :
    Exchanged t t' client received sent := by
  obtain ⟨t2, result, queued, hreceive, hpackets, hsession⟩ := h
  exact ⟨t2, result, queued, hreceive, by rw [h'.packets, hpackets], by rw [h'.session, hsession]⟩

/-- Packets of one session are none of another. -/
theorem packetsOf_queue (s : SessionId) (events : List NetworkEvent) (client : ClientSession)
    (queued : List Payload) (hs : client.id ≠ s) :
    packetsOf s (events ++ queued.map (packetEvent client.id)) = packetsOf s events := by
  have hnone : packetsOf s (queued.map (packetEvent client.id)) = [] := by
    apply packetsOf_other
    intro e he
    obtain ⟨p, -, rfl⟩ := List.mem_map.mp he
    exact hs
  rw [packetsOf_append, hnone, List.append_nil]

/-- Closing a session queues no packet. -/
theorem packetsOf_close (t : TcpNetwork) (index : Nat) (s : SessionId) :
    packetsOf s (t.closeClient index).events = packetsOf s t.events := by
  unfold closeClient
  split
  · rfl
  · rename_i client _
    show packetsOf s (t.events ++ [NetworkEvent.closed client.id]) = _
    rw [packetsOf_append]
    exact List.append_nil _

/-- Serving a session is an exchange of it, and nothing to the others. -/
theorem serveSession_session (ht : t.Sound) {s0 : SessionId}
    (h : serveSession os reads writes t s0 = some t') (s : SessionId) :
    (s0 ≠ s → Untouched t t' s) ∧ ∀ client, t.session s = some client → s0 = s →
      Exchanged t t' client (received os reads s) (sent os writes s) := by
  unfold serveSession at h
  rcases t.find_cases s0 with ⟨hnone, hout⟩ | ⟨index, client, hfind, hclient, rfl, -⟩
  · rw [hnone] at h
    obtain rfl := Option.some.inj h
    refine ⟨fun _ => .refl t s, fun client hclient e => ?_⟩
    exact absurd (session_mem hclient) (e ▸ hout)
  rw [hfind] at h
  dsimp only at h
  rw [serveClient_eq hclient] at h
  obtain ⟨result, queued, e, hid⟩ : ∃ result, ∃ queued : List Payload,
      t.receiveIfReady client (received os reads client.id) =
          some (result, { t with events := t.events ++ queued.map (packetEvent client.id) }) ∧
        ∀ client', result = .ok client' → client'.id = client.id := by
    cases received os reads client.id with
    | none =>
      refine ⟨.ok client, [], ?_, fun client' e => ?_⟩
      · rw [List.map_nil, List.append_nil]
        rfl
      · cases e
        rfl
    | some received =>
      obtain ⟨result, queued, e, hid, -⟩ := receiveClient_queues client received ht.room
      exact ⟨result, queued, e, fun client' h => (hid client' h).1⟩
  have hsession := session_at ht.nodup hclient
  -- the network with the packets of the session queued
  generalize hqueued : ({ t with
    events := t.events ++ queued.map (packetEvent client.id) } : TcpNetwork) = t1 at e
  have hat : t1.clients[index]? = some client := by
    rw [← hqueued]
    exact hclient
  have hnodup : t1.ids.Nodup := by
    rw [← hqueued]
    exact ht.nodup
  have hsame : ∀ s, t1.session s = t.session s := by
    intro s
    rw [← hqueued]
    rfl
  have hpackets : ∀ s, packetsOf s t1.events =
      packetsOf s t.events ++ if client.id = s then queued else [] := by
    intro s
    rw [← hqueued]
    dsimp only
    by_cases hs : client.id = s
    · rw [if_pos hs, ← hs, packetsOf_append, packetsOf_queued]
    · rw [if_neg hs, packetsOf_queue s _ client queued hs, List.append_nil]
  obtain ⟨hevents, hafter⟩ : packetsOf s t'.events = packetsOf s t1.events ∧
      t'.session s = if client.id = s then
        result.toOption.bind fun c => sendIfReady c (sent os writes client.id)
      else t1.session s := by
    unfold serve at h
    rw [e] at h
    cases result with
    | error fault =>
      obtain rfl := Option.some.inj h
      exact ⟨packetsOf_close .., session_close hnodup hat s⟩
    | ok client1 =>
      dsimp only at h
      have hbind : ((Except.ok client1 : Except ReceiveFault ClientSession).toOption.bind fun c =>
          sendIfReady c (sent os writes client.id)) =
            sendIfReady client1 (sent os writes client.id) := rfl
      rw [hbind]
      cases hsend : sendIfReady client1 (sent os writes client.id) with
      | none =>
        rw [hsend] at h
        obtain rfl := Option.some.inj h
        exact ⟨packetsOf_close .., session_close hnodup hat s⟩
      | some client2 =>
        rw [hsend] at h
        obtain rfl := Option.some.inj h
        have hid2 : client2.id = client.id := by
          refine Eq.trans ?_ (hid client1 rfl)
          cases hs : sent os writes client.id with
          | none =>
            rw [hs] at hsend
            exact congrArg ClientSession.id (Option.some.inj hsend).symm
          | some sent =>
            rw [hs] at hsend
            exact sendClient_id hsend
        exact ⟨rfl, session_set hnodup hat hid2 s⟩
  rw [hpackets] at hevents
  refine ⟨fun hs => ⟨?_, ?_⟩, fun other hother hs => ?_⟩
  · rw [hafter, if_neg hs, hsame]
  · rw [hevents, if_neg hs, List.append_nil]
  · subst hs
    obtain rfl := Option.some.inj (hsession.symm.trans hother)
    rw [if_pos rfl] at hevents hafter
    refine ⟨t, result, queued, ?_, hevents, hafter⟩
    rw [hqueued]
    exact e

theorem serveAll_session (s : SessionId) (sessions : List SessionId) : ∀ {t : TcpNetwork}, t.Sound →
    sessions.Nodup → sessions.foldlM (serveSession os reads writes) t = some t' →
      (s ∉ sessions → Untouched t t' s) ∧ ∀ client, t.session s = some client → s ∈ sessions →
        Exchanged t t' client (received os reads s) (sent os writes s) := by
  induction sessions with
  | nil =>
    intro t _ _ h
    obtain rfl := Option.some.inj h
    exact ⟨fun _ => .refl t s, fun _ _ hs => by cases hs⟩
  | cons s0 sessions ih =>
    intro t ht hnodup h
    rw [List.foldlM_cons] at h
    obtain ⟨t1, hserve, h⟩ := Option.bind_eq_some_iff.mp h
    obtain ⟨hnew, hnodup⟩ := List.nodup_cons.mp hnodup
    obtain ⟨hother, hself⟩ := serveSession_session ht hserve s
    obtain ⟨hlater, hmine⟩ := ih (serveSession_tells ht hserve).1 hnodup h
    refine ⟨fun hs => ?_, fun client hclient hs => ?_⟩
    · rw [List.mem_cons, not_or] at hs
      obtain ⟨hne, hs⟩ := hs
      exact (hother (Ne.symm hne)).trans (hlater hs)
    · obtain rfl := (session_some hclient).2
      rcases List.mem_cons.mp hs with rfl | hs
      · exact (hself client hclient rfl).after (hlater hnew)
      · have hne : s0 ≠ client.id := fun e => hnew (e ▸ hs)
        have hstays := hother hne
        exact (hmine client (hstays.session.trans hclient) hs).before hstays

/-! ## Accepting -/

/-- A session is as it was, or new. -/
def Joined (t t' : TcpNetwork) (s : SessionId) : Prop :=
  (t'.session s = t.session s ∨ (t.lastSessionId < s ∧ t'.session s = some { id := s })) ∧
    packetsOf s t'.events = packetsOf s t.events

theorem acceptClient_session (ht : t.Sound) (accepted : Accepted) (s : SessionId) :
    Joined t (t.acceptClient accepted).2 s := by
  cases accepted with
  | wouldBlock => exact ⟨.inl rfl, rfl⟩
  | failed => exact ⟨.inl rfl, rfl⟩
  | connection nonBlocking now =>
    unfold acceptClient
    dsimp only
    split
    · exact ⟨.inl rfl, rfl⟩
    split
    · exact ⟨.inl rfl, rfl⟩
    split
    · exact ⟨.inl rfl, rfl⟩
    rename_i hlast
    split
    · exact ⟨.inl rfl, rfl⟩
    · have hlt := lt_succ hlast
      have hnew : t.lastSessionId + 1 ∉ t.ids := fun hin =>
        UInt64.not_le.mpr hlt (ht.issued _ hin)
      refine ⟨?_, ?_⟩
      · dsimp only
        rw [pushConnectionEvent, session_append { id := t.lastSessionId + 1 } hnew s rfl]
        by_cases hs : t.lastSessionId + 1 = s
        · rw [if_pos hs]
          exact .inr ⟨hs ▸ hlt, by rw [hs]⟩
        · rw [if_neg hs]
          exact .inl rfl
      · show packetsOf s (t.events ++ [NetworkEvent.opened _ now]) = _
        rw [packetsOf_append]
        exact List.append_nil _

theorem Joined.trans (hlast : t.lastSessionId ≤ t1.lastSessionId)
    (h : Joined t t1 s) (h' : Joined t1 t' s) : Joined t t' s := by
  obtain ⟨hfirst, hpackets⟩ := h
  obtain ⟨hthen, hpackets'⟩ := h'
  refine ⟨?_, hpackets'.trans hpackets⟩
  rcases hthen with hsame | ⟨hlt, hnew⟩
  · rw [hsame]
    exact hfirst
  · exact .inr ⟨UInt64.lt_of_le_of_lt hlast hlt, hnew⟩

theorem acceptLoop_session (s : SessionId) (attempts : Nat) : ∀ (attempt : Nat) {t : TcpNetwork},
    t.Sound → Joined t (acceptLoop os attempts attempt t) s := by
  induction attempts with
  | zero => exact fun _ _ _ => ⟨.inl rfl, rfl⟩
  | succ attempts ih =>
    intro attempt t ht
    have hone := acceptClient_session ht (os.accept attempt) s
    obtain ⟨hsound, new, htells⟩ := acceptClient_tells ht (os.accept attempt)
    have hmore := hone.trans htells.last (ih (attempt + 1) hsound)
    rw [acceptLoop]
    generalize t.acceptClient (os.accept attempt) = accepted at hone hmore
    obtain ⟨code, t1⟩ := accepted
    cases code with
    | none => exact hmore
    | acceptMaxSessionCount => exact hmore
    | acceptEventQueueFull => exact hmore
    | acceptApiWsaewouldblock => exact hone
    | aacceptApiError => exact hone
    | sessionIdExhausted => exact hone
    | serverSocketFionbioFail => exact hone

/-! ## One session in a `Run` -/

/-- What `recv` gives a session in a `Run`; none where its socket is not ready. -/
def receivedBy (t : TcpNetwork) (os : Sockets) (s : SessionId) : Option Received :=
  match os.select with
  | none => none
  | some (readable, _) => received os (t.readSet.filter readable) s

/-- What `send` answers. -/
def sentBy (t : TcpNetwork) (os : Sockets) (s : SessionId) : Option Sent :=
  match os.select with
  | none => none
  | some (_, writable) => sent os (t.writeSet.filter writable) s

/-- A `Run` is an exchange of every session that is there, and a new session has empty buffers. -/
theorem run_session (ht : t.Sound) {go : Bool} (h : t.run os = some (go, t')) (s : SessionId) :
    (∀ client, t.session s = some client →
      Exchanged t t' client (t.receivedBy os s) (t.sentBy os s)) ∧
    (t.session s = none → Joined t t' s) := by
  cases hselect : os.select with
  | none =>
    rw [run, hselect] at h
    obtain rfl : t = t' := congrArg Prod.snd (Option.some.inj h)
    refine ⟨fun client hclient => ?_, fun _ => ⟨.inl rfl, rfl⟩⟩
    obtain ⟨-, hid⟩ := session_some hclient
    unfold receivedBy sentBy
    rw [hselect]
    refine ⟨t, .ok client, [], ?_, (List.append_nil _).symm, ?_⟩
    · rw [List.map_nil, List.append_nil]
      rfl
    · rw [hid, hclient]
      rfl
  | some sets =>
    obtain ⟨readable, writable⟩ := sets
    obtain ⟨t1, hfold, hsound, e⟩ := run_polled ht hselect
    obtain ⟨hother, hself⟩ := serveAll_session s t.ids ht ht.nodup hfold
    obtain ⟨-, new, htells⟩ := serveAll_tells t.ids ht hfold
    have hjoined : Joined t1 t' s := by
      rw [e] at h
      obtain rfl := congrArg Prod.snd (Option.some.inj h)
      dsimp only
      split
      · exact acceptLoop_session s t1.config.maxAcceptsPerRun 0 hsound
      · exact ⟨.inl rfl, rfl⟩
    refine ⟨fun client hclient => ?_, fun hnone => ?_⟩
    · have hin := session_mem hclient
      have hexchanged := hself client hclient hin
      obtain ⟨-, hid⟩ := session_some hclient
      have hstays : Untouched t1 t' client.id := by
        rw [hid]
        rcases hjoined with ⟨hsame | ⟨hlt, -⟩, hpackets⟩
        · exact ⟨hsame, hpackets⟩
        · exact absurd (UInt64.le_trans (ht.issued s hin) htells.last) (UInt64.not_le.mpr hlt)
      unfold receivedBy sentBy
      rw [hselect]
      exact hexchanged.after hstays
    · have hsame := hother (session_none.mp hnone)
      exact Joined.trans htells.last ⟨.inl hsame.session, hsame.packets⟩ hjoined

/-! ## The calls of the logic -/

/-- The packets as they are sent. -/
def payloads (packets : List SentPacket) : List Payload :=
  packets.map fun packet => (packet.packetId, packet.body)

/-- Calls of the logic have put packets in the send buffer of a session, which may be closed since. -/
structure Posts (s : SessionId) (a b : TcpNetwork × List SentPacket) : Prop where
  last : b.1.lastSessionId = a.1.lastSessionId
  posted : ∃ packets, toSession s b.2 = toSession s a.2 ++ packets ∧
    (∀ p ∈ payloads packets, p.2.length ≤ maxPacketSize - headerSize) ∧
    (a.1.session s = none → packets = [] ∧ b.1.session s = none) ∧
    ∀ client', b.1.session s = some client' → ∃ client, a.1.session s = some client ∧
      client'.recvBuffer = client.recvBuffer ∧
      client'.sendBuffer = client.sendBuffer ++ ((payloads packets).map packetBytes).flatten

theorem payloads_append (a b : List SentPacket) : payloads (a ++ b) = payloads a ++ payloads b :=
  List.map_append ..

theorem Posts.refl (s : SessionId) (a : TcpNetwork × List SentPacket) : Posts s a a where
  last := rfl
  posted := by
    refine ⟨[], (List.append_nil _).symm, fun p hp => (by cases hp), fun h => ⟨rfl, h⟩, ?_⟩
    intro client hclient
    exact ⟨client, hclient, rfl, (List.append_nil _).symm⟩

theorem Posts.trans {a b c : TcpNetwork × List SentPacket} (h : Posts s a b) (h' : Posts s b c) :
    Posts s a c where
  last := h'.last.trans h.last
  posted := by
    obtain ⟨first, e, hfirst, hnone, hsome⟩ := h.posted
    obtain ⟨more, e', hmore, hnone', hsome'⟩ := h'.posted
    refine ⟨first ++ more, by rw [e', e, List.append_assoc], ?_, fun ha => ?_, ?_⟩
    · intro p hp
      rw [payloads_append] at hp
      rcases List.mem_append.mp hp with hp | hp
      · exact hfirst p hp
      · exact hmore p hp
    · obtain ⟨rfl, hb⟩ := hnone ha
      obtain ⟨rfl, hc⟩ := hnone' hb
      exact ⟨rfl, hc⟩
    · intro client' hclient'
      obtain ⟨client1, hclient1, hrecv', hsend'⟩ := hsome' client' hclient'
      obtain ⟨client, hclient, hrecv, hsend⟩ := hsome client1 hclient1
      refine ⟨client, hclient, hrecv'.trans hrecv, ?_⟩
      rw [hsend', hsend, payloads_append, List.map_append, List.flatten_append, List.append_assoc]

theorem disconnect_session (ht : t.Sound) (s0 s : SessionId) :
    (t.disconnect s0).session s = if s0 = s then none else t.session s := by
  unfold disconnect
  rcases t.find_cases s0 with ⟨hnone, hout⟩ | ⟨index, client, hfind, hclient, rfl, -⟩
  · rw [hnone]
    dsimp only
    by_cases hs : s0 = s
    · rw [if_pos hs]
      exact session_none.mpr (hs ▸ hout)
    · rw [if_neg hs]
  · rw [hfind]
    exact session_close ht.nodup hclient s

theorem disconnect_last (t : TcpNetwork) (s0 : SessionId) :
    (t.disconnect s0).lastSessionId = t.lastSessionId := by
  unfold disconnect
  split
  · rfl
  · unfold closeClient
    split
    · rfl
    · rfl

theorem posts_disconnect (ht : t.Sound) (s0 s : SessionId) (sent : List SentPacket) :
    Posts s (t, sent) (t.disconnect s0, sent) where
  last := disconnect_last t s0
  posted := by
    have hsession := disconnect_session ht s0 s
    refine ⟨[], (List.append_nil _).symm, fun p hp => (by cases hp), fun hnone => ⟨rfl, ?_⟩, ?_⟩
    · dsimp only at hnone ⊢
      rw [hsession, hnone, ite_self]
    · intro client' hclient'
      dsimp only at hclient'
      rw [hsession] at hclient'
      split at hclient'
      · cases hclient'
      · exact ⟨client', hclient', rfl, (List.append_nil _).symm⟩

/-- A packet is written to the send buffer of its session, or nothing happens. -/
theorem sendPacket_session (ht : t.Sound) (packet : SentPacket) :
    ((t.sendPacket packet.session packet.packetId packet.body).1 = false ∧
      ∀ s, (t.sendPacket packet.session packet.packetId packet.body).2.session s = t.session s) ∨
    ((t.sendPacket packet.session packet.packetId packet.body).1 = true ∧
      packet.body.length ≤ maxPacketSize - headerSize ∧ ∃ client,
        t.session packet.session = some client ∧
        ∀ s, (t.sendPacket packet.session packet.packetId packet.body).2.session s =
          if packet.session = s then some { client with
            sendBuffer := client.sendBuffer ++ packetBytes (packet.packetId, packet.body) }
          else t.session s) := by
  unfold sendPacket
  rcases t.find_cases packet.session with ⟨hnone, -⟩ | ⟨index, client, hfind, hclient, hid, -⟩
  · rw [hnone]
    exact .inl ⟨rfl, fun _ => rfl⟩
  rw [hfind]
  dsimp only
  rw [hclient]
  dsimp only
  rcases t.queuePacket_cases client (packet.packetId, packet.body) with e | ⟨hbody, e⟩
  · dsimp only at e
    rw [e]
    refine .inl ⟨rfl, fun s => ?_⟩
    dsimp only
    rw [session_set ht.nodup hclient rfl]
    by_cases hs : client.id = s
    · rw [if_pos hs, ← hs]
      exact (session_at ht.nodup hclient).symm
    · rw [if_neg hs]
  · dsimp only at e hbody
    rw [e]
    refine .inr ⟨rfl, hbody, client, hid ▸ session_at ht.nodup hclient, fun s => ?_⟩
    rw [← hid]
    exact @session_set t client { client with
      sendBuffer := client.sendBuffer ++ packetBytes (packet.packetId, packet.body) } index
      ht.nodup hclient rfl s

theorem posts_sent (ht : t.Sound) (packet : SentPacket) (s : SessionId) (sent : List SentPacket) :
    Posts s (t, sent) (device (.sendOrDisconnect packet) (t, sent)).2 := by
  have hlast := (sendPacket_ids t packet).2
  have hsound := sendPacket_sound ht packet
  rcases sendPacket_session ht packet with ⟨hqueued, hsession⟩ | ⟨hqueued, hbody, client, hclient, hsession⟩
  · rw [device_refused sent hqueued]
    refine Posts.trans (b := ((t.sendPacket packet.session packet.packetId packet.body).2, sent))
      ⟨hlast, [], (List.append_nil _).symm, fun p hp => (by cases hp), fun hnone => ⟨rfl, ?_⟩, ?_⟩
      (posts_disconnect hsound packet.session s sent)
    · exact (hsession s).trans hnone
    · intro client' hclient'
      exact ⟨client', (hsession s).symm.trans hclient', rfl, (List.append_nil _).symm⟩
  · rw [device_taken sent hqueued]
    refine ⟨hlast, toSession s [packet], toSession_append s sent [packet], ?_, ?_, ?_⟩
    · intro p hp
      obtain ⟨packet', hpacket', rfl⟩ := List.mem_map.mp hp
      rw [List.mem_singleton.mp (List.mem_of_mem_filter hpacket')]
      exact hbody
    · intro hnone
      have hs : packet.session ≠ s := by
        intro hs
        rw [hs] at hclient
        rw [hclient] at hnone
        cases hnone
      refine ⟨?_, ?_⟩
      · unfold toSession
        rw [List.filter_cons_of_neg (by simpa using hs), List.filter_nil]
      · exact (hsession s).trans ((if_neg hs).trans hnone)
    · intro client' hclient'
      dsimp only at hclient'
      rw [hsession] at hclient'
      by_cases hs : packet.session = s
      · rw [if_pos hs] at hclient'
        obtain rfl := Option.some.inj hclient'
        refine ⟨client, hs ▸ hclient, rfl, ?_⟩
        have hmine : toSession s [packet] = [packet] := by
          unfold toSession
          rw [List.filter_cons_of_pos (by simpa using hs), List.filter_nil]
        rw [hmine]
        show _ = client.sendBuffer ++ (packetBytes (packet.packetId, packet.body) ++ [])
        rw [List.append_nil]
      · rw [if_neg hs] at hclient'
        have hnot : toSession s [packet] = [] := by
          unfold toSession
          rw [List.filter_cons_of_neg (by simpa using hs), List.filter_nil]
        rw [hnot]
        exact ⟨client', hclient', rfl, (List.append_nil _).symm⟩

/-- What a program of the logic leaves of a session. -/
theorem posts_run {α : Type} (program : Program INetwork α) (s : SessionId)
    (a : TcpNetwork × List SentPacket) (ha : a.1.Sound) : Posts s a (program.run device a).2 := by
  have hall := Program.run_leads (d := device)
    (R := fun a b => a.1.Sound → b.1.Sound ∧ Posts s a b)
    (fun a ha => ⟨ha, .refl s a⟩)
    (fun a b c hab hbc ha => by
      obtain ⟨hb, hposts⟩ := hab ha
      obtain ⟨hc, hposts'⟩ := hbc hb
      exact ⟨hc, hposts.trans hposts'⟩)
    (fun call a ha => by
      refine ⟨device_sound call a ha, ?_⟩
      obtain ⟨t, sent⟩ := a
      cases call with
      | tryPopEvent =>
        cases hevents : t.events with
        | nil =>
          have hsame : (device .tryPopEvent (t, sent)).2 = (t, sent) := by
            unfold device tryPopEvent
            dsimp only
            rw [hevents]
          rw [hsame]
          exact .refl s (t, sent)
        | cons event events =>
          have hpopped : (device .tryPopEvent (t, sent)).2 = ({ t with events := events }, sent) := by
            unfold device tryPopEvent
            dsimp only
            rw [hevents]
          rw [hpopped]
          exact ⟨rfl, (Posts.refl s (t, sent)).posted⟩
      | isConnected s0 => exact .refl s _
      | disconnect s0 => exact posts_disconnect ha s0 s sent
      | sendOrDisconnect packet => exact posts_sent ha packet s sent)
    program a
  exact (hall ha).2

end TcpNetwork
end SelectServer
