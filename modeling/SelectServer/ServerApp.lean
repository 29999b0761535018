import SelectServer.LogicOnNetwork
import SelectServer.SelectLoop
import SelectServer.Server

/- `ServerApp`, the program: the logic over `TcpNetwork`, which takes what the
   sockets bring once in every turn of `Run` and is called by `Update` after that.
   `app_refines` says that all its runs are runs of `Server`: what the logic can
   tell of its network is `TcpNetwork.seen`, what a `Run` of the network does there
   is what the events it queues say (`Tells`), and the host is the one that takes
   the packets that were taken in the end (`foreseen`). -/
namespace SelectServer
open Wire (Bytes)
open Histories Programs Loops

structure ServerConfig where
  network : NetworkConfig := {}
  loginTimeout : Time := seconds 10

/-- Where the program is: at the top of the loop of `Run`, before or within `Update`, or out of it. -/
inductive AppPhase where
  | polling
  | updating (begun : Bool)
  | stopped (exitCode : Nat)
  deriving DecidableEq, Repr

structure ServerApp where
  network : TcpNetwork
  logic : Logic
  phase : AppPhase := .polling
  /-- The packets that `SendPacket` has taken, which the program does not keep. -/
  sent : List SentPacket := []

/-- `TcpNetwork` as an implementation of `INetwork`. -/
def TcpNetwork.device : Device INetwork (TcpNetwork × List SentPacket)
  | .tryPopEvent, (t, sent) =>
    match t.tryPopEvent with
    | none => (none, t, sent)
    | some (event, t) => (some event, t, sent)
  | .isConnected s, (t, sent) => (t.isConnected s, t, sent)
  | .sendOrDisconnect packet, (t, sent) =>
    let (queued, t) := t.sendPacket packet.session packet.packetId packet.body
    if queued then (true, t, sent ++ [packet]) else (false, t.disconnect packet.session, sent)
  | .disconnect s, (t, sent) => ((), t.disconnect s, sent)

/-- What happens to the program, with what the system and the clock tell it. -/
inductive AppInput where
  /-- A turn of the loop up to `Update`, with the key that was hit. -/
  | poll (key : Option Char) (os : Sockets)
  | beginUpdate (traversal : Traversal RoomId) (now : Time)
  | event (loginNow gameNow : Time)
  | endUpdate (first second : Traversal SessionId × Time) (traversal : Traversal RoomId) (now : Time)

namespace ServerApp

/-- `Init`; `listening` is whether the calls of winsock succeed. -/
def init (config : ServerConfig) (listening : Bool) : Except LogicError (Option ServerApp) :=
  if config.network.port = 0 ∨ config.loginTimeout ≤ 0 then .ok none
  else
    match TcpNetwork.init config.network 0 with
    | none => .ok none
    | some network =>
      if !listening then .ok none
      else (PacketProcessor.make {} config.loginTimeout).map fun p =>
        some { network := network, logic := p.logic }

/-- A part of `Update` on the network of the program. -/
def perform (app : ServerApp) (program : Program INetwork (Except LogicError Logic))
    (phase : AppPhase) : Except LogicError ServerApp :=
  let (result, network, sent) := program.run TcpNetwork.device (app.network, app.sent)
  result.map fun logic => { network := network, logic := logic, phase := phase, sent := sent }

/-- The program after one input; none where the input cannot come, or the network does not return. -/
def step (multiByteToWideChar : Bytes → Nat) (app : ServerApp) :
    AppInput → Option (Except LogicError ServerApp)
  | .poll key os =>
    if app.phase ≠ .polling then none
    else if key = some 'q' ∨ key = some 'Q' then some (.ok { app with phase := .stopped 0 })
    else (app.network.run os).map fun (go, network) =>
      .ok { app with
        network := network
        phase := if go then .updating false else .stopped 1 }
  | .beginUpdate traversal now =>
    if app.phase ≠ .updating false then none
    else some (app.perform (app.logic.beginUpdate traversal now) (.updating true))
  | .event loginNow gameNow =>
    if app.phase ≠ .updating true then none
    else
      match app.network.tryPopEvent with
      | none => none
      | some (event, network) =>
        some (perform { app with network := network }
          (app.logic.handleEvent multiByteToWideChar event loginNow gameNow) (.updating true))
  | .endUpdate first second traversal now =>
    if app.phase ≠ .updating true ∨ app.network.tryPopEvent.isSome then none
    else some (app.perform (app.logic.endUpdate first second traversal now) .polling)

end ServerApp

def AppStep (multiByteToWideChar : Bytes → Nat) (app : ServerApp) (l : AppInput)
    (app' : ServerApp) : Prop :=
  app.step multiByteToWideChar l = some (.ok app')

/-- The runs of the program from `Init` on. -/
abbrev AppRun (multiByteToWideChar : Bytes → Nat) (app : ServerApp) :
    List (Entry ServerApp AppInput) → ServerApp → Prop :=
  Run (AppStep multiByteToWideChar) app

/-! ## What a `Run` of the network tells -/

/-- What an event says has come from outside. -/
def Input.ofEvent (event : NetworkEvent) : Input :=
  match event.type with
  | .connected => .accept event.occurredAt
  | .packet => .receive event.session event.packetId event.body
  | .disconnected => .close event.session

/-- What comes from outside, as it changes the network. -/
def Network.bring (n : Network) : Input → Network
  | .accept now => n.accept now
  | .receive s packetId body => n.receive s packetId body
  | .close s => n.disconnect s
  | _ => n

namespace TcpNetwork

/-- The events that have been queued say what has become of the sessions. -/
structure Tells (t : TcpNetwork) (new : List NetworkEvent) (t' : TcpNetwork) : Prop where
  events : t'.events = t.events ++ new
  seen : ∀ sent, t'.seen sent = (new.map Input.ofEvent).foldl Network.bring (t.seen sent)
  last : t.lastSessionId ≤ t'.lastSessionId
  fresh : ∀ s ∈ t'.ids, s ∈ t.ids ∨ t.lastSessionId < s

variable {t t1 t' : TcpNetwork} {new new' : List NetworkEvent}

theorem Tells.refl (t : TcpNetwork) : Tells t [] t where
  events := (List.append_nil _).symm
  seen _ := rfl
  last := UInt64.le_refl _
  fresh _ hs := .inl hs

theorem Tells.trans (h : Tells t new t1) (h' : Tells t1 new' t') : Tells t (new ++ new') t' where
  events := by rw [h'.events, h.events, List.append_assoc]
  seen sent := by rw [h'.seen, h.seen, List.map_append, List.foldl_append]
  last := UInt64.le_trans h.last h'.last
  fresh s hs := by
    rcases h'.fresh s hs with hs | hs
    · exact h.fresh s hs
    · exact .inr (UInt64.lt_of_le_of_lt h.last hs)

/-- Packets of a session that is connected. -/
theorem tells_packets {s : SessionId} (hs : s ∈ t.ids) (packets : List Payload)
    (hbodies : ∀ p ∈ packets, p.2.length ≤ maxPacketSize - headerSize) :
    Tells t (packets.map (packetEvent s))
      { t with events := t.events ++ packets.map (packetEvent s) } where
  events := rfl
  seen sent := by
    have hbring : ∀ (packets : List Payload) (n : Network), s ∈ n.connected →
        (∀ p ∈ packets, p.2.length ≤ maxPacketSize - headerSize) →
        ((packets.map (packetEvent s)).map Input.ofEvent).foldl Network.bring n =
          { n with events := n.events ++ packets.map (packetEvent s) } := by
      intro packets
      induction packets with
      | nil =>
        intro n _ _
        show n = { n with events := n.events ++ [] }
        rw [List.append_nil]
      | cons p packets ih =>
        intro n hn hbodies
        have hreceive : n.receive s p.1 p.2 = { n with events := n.events ++ [packetEvent s p] } := by
          have hbody := hbodies p (List.mem_cons_self ..)
          unfold Network.receive Network.isConnected
          rw [decide_eq_true hn, decide_eq_false (by omega)]
          rfl
        show ((packets.map (packetEvent s)).map Input.ofEvent).foldl Network.bring
          (n.receive s p.1 p.2) = _
        rw [hreceive, ih { n with events := n.events ++ [packetEvent s p] } hn
          fun p' hp' => hbodies p' (List.mem_cons_of_mem _ hp')]
        simp only [List.map_cons, List.append_assoc, List.singleton_append]
    have hs' : s ∈ (t.seen sent).connected := List.mem_toFinset.mpr hs
    rw [hbring packets (t.seen sent) hs' hbodies]
    rfl
  last := UInt64.le_refl _
  fresh _ h := .inl h

/-- A session is closed. -/
theorem tells_closed (hnodup : t.ids.Nodup) {index : Nat} {client : ClientSession}
    (h : t.clients[index]? = some client) :
    Tells t [NetworkEvent.closed client.id] (t.closeClient index) := by
  have hclose : t.closeClient index = t.disconnect client.id := by
    unfold disconnect
    rw [find_at hnodup h]
  refine ⟨?_, fun sent => ?_, ?_, ?_⟩
  · rw [closeClient, h]
    rfl
  · rw [hclose, disconnect_seen hnodup]
    rfl
  · rw [closeClient, h]
    exact UInt64.le_refl _
  · intro s hs
    rw [closeClient, h] at hs
    exact .inl ((mem_closed_ids hnodup h s).mp hs).2

/-- What changes in a session is not seen. -/
theorem tells_same {clients : List ClientSession} (hids : clients.map ClientSession.id = t.ids) :
    Tells t [] { t with clients := clients } where
  events := (List.append_nil _).symm
  seen sent := by
    show Network.mk (clients.map ClientSession.id).toFinset _ _ _ = t.seen sent
    rw [hids]
    rfl
  last := UInt64.le_refl _
  fresh s hs := .inl (hids ▸ hs)

/-- A connection is accepted. -/
theorem tells_accepted (hlast : t.lastSessionId ≠ 0xffffffffffffffff) (now : Time) :
    Tells t [NetworkEvent.opened (t.lastSessionId + 1) now]
      { t with
        clients := t.clients ++ [{ id := t.lastSessionId + 1 }]
        events := t.events ++ [NetworkEvent.opened (t.lastSessionId + 1) now]
        lastSessionId := t.lastSessionId + 1 } where
  events := rfl
  seen sent := by
    show Network.mk (ids _).toFinset _ _ _ = (t.seen sent).accept now
    have hlast' : (t.seen sent).lastSessionId ≠ 0xffffffffffffffff := hlast
    unfold Network.accept
    rw [if_neg hlast', accepted_ids, List.toFinset_append]
    dsimp only [seen]
    congr 1
    ext s
    rw [Finset.mem_union, Finset.mem_insert, List.mem_toFinset, List.mem_toFinset,
      List.mem_singleton, or_comm]
  last := UInt64.le_of_lt (lt_succ hlast)
  fresh s hs := by
    rw [accepted_ids] at hs
    rcases List.mem_append.mp hs with hs | hs
    · exact .inl hs
    · rw [List.mem_singleton.mp hs]
      exact .inr (lt_succ hlast)

variable {os : Sockets} {reads writes : FdSet}

theorem serveSession_tells (ht : t.Sound) {s : SessionId}
    (h : serveSession os reads writes t s = some t') : t'.Sound ∧ ∃ new, Tells t new t' := by
  unfold serveSession at h
  rcases t.find_cases s with ⟨hnone, -⟩ | ⟨index, client, hfind, hclient, rfl, hin⟩
  · rw [hnone] at h
    cases h
    exact ⟨ht, [], .refl t⟩
  rw [hfind] at h
  dsimp only at h
  obtain ⟨result, queued, hserve, hserved, hbodies, hbound⟩ := @serve_queues t index client
    (received os reads client.id) (sent os writes client.id) ht.room
  obtain ⟨hsound, -⟩ := serve_ids ht hclient hserved hbound
  rw [serveClient_eq hclient, hserve] at h
  obtain rfl := Option.some.inj h
  have hpackets := tells_packets hin queued hbodies
  refine ⟨hsound, ?_⟩
  cases hserved with
  | @kept client' hid => exact ⟨_, hpackets.trans (tells_same (set_ids hclient hid))⟩
  | dropped =>
    have hclosed := tells_closed
      (t := { t with events := t.events ++ queued.map (packetEvent client.id) }) ht.nodup hclient
    exact ⟨_, hpackets.trans hclosed⟩

theorem serveAll_tells (sessions : List SessionId) : ∀ {t : TcpNetwork}, t.Sound →
    sessions.foldlM (serveSession os reads writes) t = some t' →
      t'.Sound ∧ ∃ new, Tells t new t' := by
  induction sessions with
  | nil =>
    intro t ht h
    cases h
    exact ⟨ht, [], .refl _⟩
  | cons s sessions ih =>
    intro t ht h
    rw [List.foldlM_cons] at h
    obtain ⟨t1, hserve, h⟩ := Option.bind_eq_some_iff.mp h
    obtain ⟨hsound, new, htells⟩ := serveSession_tells ht hserve
    obtain ⟨hsound', new', htells'⟩ := ih hsound h
    exact ⟨hsound', new ++ new', htells.trans htells'⟩

theorem acceptClient_tells (ht : t.Sound) (accepted : Accepted) :
    (t.acceptClient accepted).2.Sound ∧ ∃ new, Tells t new (t.acceptClient accepted).2 := by
  obtain ⟨queued, hact⟩ := t.acceptClient_act accepted
  refine ⟨hact.sound ht, ?_⟩
  cases accepted with
  | wouldBlock => exact ⟨[], .refl t⟩
  | failed => exact ⟨[], .refl t⟩
  | connection nonBlocking now =>
    unfold acceptClient
    dsimp only
    split
    · exact ⟨[], .refl t⟩
    split
    · exact ⟨[], .refl t⟩
    split
    · exact ⟨[], .refl t⟩
    rename_i hlast
    split
    · exact ⟨[], .refl t⟩
    · exact ⟨_, tells_accepted hlast now⟩

theorem acceptLoop_tells (attempts : Nat) : ∀ (attempt : Nat) {t : TcpNetwork}, t.Sound →
    ∃ new, Tells t new (acceptLoop os attempts attempt t) := by
  induction attempts with
  | zero =>
    intro _ t _
    exact ⟨[], .refl t⟩
  | succ attempts ih =>
    intro attempt t ht
    obtain ⟨hsound, new, htells⟩ := acceptClient_tells ht (os.accept attempt)
    have hmore : ∃ new', Tells t new'
        (acceptLoop os attempts (attempt + 1) (t.acceptClient (os.accept attempt)).2) := by
      obtain ⟨new', htells'⟩ := ih (attempt + 1) hsound
      exact ⟨new ++ new', htells.trans htells'⟩
    rw [acceptLoop]
    generalize t.acceptClient (os.accept attempt) = accepted at htells hmore
    obtain ⟨code, t1⟩ := accepted
    cases code with
    | none => exact hmore
    | acceptMaxSessionCount => exact hmore
    | acceptEventQueueFull => exact hmore
    | acceptApiWsaewouldblock => exact ⟨new, htells⟩
    | aacceptApiError => exact ⟨new, htells⟩
    | sessionIdExhausted => exact ⟨new, htells⟩
    | serverSocketFionbioFail => exact ⟨new, htells⟩

theorem run_tells (ht : t.Sound) {go : Bool} (h : t.run os = some (go, t')) :
    ∃ new, Tells t new t' := by
  cases hselect : os.select with
  | none =>
    rw [run, hselect] at h
    cases h
    exact ⟨[], .refl t⟩
  | some sets =>
    obtain ⟨readable, writable⟩ := sets
    obtain ⟨t1, hfold, -, e⟩ := run_polled ht hselect
    obtain ⟨hsound, new, htells⟩ := serveAll_tells _ ht hfold
    rw [e] at h
    cases h
    split
    · obtain ⟨new', htells'⟩ := @acceptLoop_tells os t1.config.maxAcceptsPerRun 0 t1 hsound
      exact ⟨new ++ new', htells.trans htells'⟩
    · exact ⟨new, htells⟩

/-! ## The network of the logic -/

/-- In the end the packets of `final` have been taken, of which those of `sent` are taken so far: none
of the later ones is for a session that is gone. -/
def Foretold (final : List SentPacket) (s : TcpNetwork × List SentPacket) : Prop :=
  ∃ later, final = s.2 ++ later ∧
    ∀ packet ∈ later, packet.session ∈ s.1.ids ∨ s.1.lastSessionId < packet.session

/-- The host that takes the packets which are taken in the end. -/
def foreseen (multiByteToWideChar : Bytes → Nat) (final : List SentPacket) : Host where
  multiByteToWideChar := multiByteToWideChar
  accepts sent packet := decide (sent ++ [packet] <+: final)

variable {final sent : List SentPacket}

/-- What is foretold after some sessions have gone, and new ones have come, was foretold before. -/
theorem Foretold.before (hlast : t.lastSessionId ≤ t'.lastSessionId)
    (hfresh : ∀ s ∈ t'.ids, s ∈ t.ids ∨ t.lastSessionId < s) (h : Foretold final (t', sent)) :
    Foretold final (t, sent) := by
  obtain ⟨later, e, hlater⟩ := h
  refine ⟨later, e, fun packet hpacket => ?_⟩
  rcases hlater packet hpacket with hin | hnew
  · exact hfresh _ hin
  · exact .inr (UInt64.lt_of_le_of_lt hlast hnew)

theorem Tells.foretold (h : Tells t new t') (hend : Foretold final (t', sent)) :
    Foretold final (t, sent) :=
  hend.before h.last h.fresh

theorem disconnect_tells (ht : t.Sound) (s : SessionId) : ∃ new, Tells t new (t.disconnect s) := by
  unfold disconnect
  rcases t.find_cases s with ⟨hnone, -⟩ | ⟨index, client, hfind, hclient, rfl, -⟩
  · rw [hnone]
    exact ⟨[], .refl t⟩
  · rw [hfind]
    exact ⟨_, tells_closed ht.nodup hclient⟩

theorem disconnect_sound (ht : t.Sound) (s : SessionId) : (t.disconnect s).Sound := by
  obtain ⟨queued, hact⟩ := t.disconnect_act s
  exact hact.sound ht

theorem sendPacket_sound (ht : t.Sound) (packet : SentPacket) :
    (t.sendPacket packet.session packet.packetId packet.body).2.Sound :=
  (t.sendPacket_act packet.session packet.packetId packet.body).sound ht

theorem sendPacket_ids (t : TcpNetwork) (packet : SentPacket) :
    (t.sendPacket packet.session packet.packetId packet.body).2.ids = t.ids ∧
      (t.sendPacket packet.session packet.packetId packet.body).2.lastSessionId =
        t.lastSessionId := by
  have hact := t.sendPacket_act packet.session packet.packetId packet.body
  generalize (t.sendPacket packet.session packet.packetId packet.body).2 = t' at hact ⊢
  generalize hqueued : ([] : List NetworkEvent) = queued at hact
  cases hact with
  | kept hids => exact ⟨hids, rfl⟩
  | accepted => cases hqueued
  | closed => cases hqueued

/-- A packet is only taken for a session that is connected. -/
theorem sendPacket_queued {packet : SentPacket}
    (h : (t.sendPacket packet.session packet.packetId packet.body).1 = true) :
    packet.session ∈ t.ids := by
  unfold sendPacket at h
  rcases t.find_cases packet.session with ⟨hnone, -⟩ | ⟨_, _, _, _, _, hin⟩
  · rw [hnone] at h
    cases h
  · exact hin

theorem device_taken (sent : List SentPacket) {packet : SentPacket}
    (h : (t.sendPacket packet.session packet.packetId packet.body).1 = true) :
    device (.sendOrDisconnect packet) (t, sent) =
      (true, (t.sendPacket packet.session packet.packetId packet.body).2, sent ++ [packet]) := by
  show (if (t.sendPacket packet.session packet.packetId packet.body).1 then _ else _) = _
  rw [if_pos h]
  rfl

theorem device_refused (sent : List SentPacket) {packet : SentPacket}
    (h : (t.sendPacket packet.session packet.packetId packet.body).1 = false) :
    device (.sendOrDisconnect packet) (t, sent) =
      (false, (t.sendPacket packet.session packet.packetId packet.body).2.disconnect packet.session,
        sent) := by
  show (if (t.sendPacket packet.session packet.packetId packet.body).1 then _ else _) = _
  rw [if_neg (by rw [h]; exact Bool.false_ne_true)]
  rfl

/-- A call keeps the network in order. -/
theorem device_sound (call : NetworkCall) (s : TcpNetwork × List SentPacket) (hs : s.1.Sound) :
    (device call s).2.1.Sound := by
  obtain ⟨t, sent⟩ := s
  cases call with
  | tryPopEvent =>
    unfold device tryPopEvent
    dsimp only
    cases hevents : t.events with
    | nil => exact hs
    | cons event events => exact (moved_popped hs hevents).sound
  | isConnected s => exact hs
  | disconnect s => exact disconnect_sound hs s
  | sendOrDisconnect packet =>
    have hsend := sendPacket_sound hs packet
    cases hqueued : (t.sendPacket packet.session packet.packetId packet.body).1 with
    | true =>
      rw [device_taken sent hqueued]
      exact hsend
    | false =>
      rw [device_refused sent hqueued]
      exact disconnect_sound hsend _

theorem device_back (call : NetworkCall) (s : TcpNetwork × List SentPacket) (hs : s.1.Sound)
    (hend : Foretold final (device call s).2) : Foretold final s := by
  obtain ⟨t, sent⟩ := s
  cases call with
  | tryPopEvent =>
    unfold device tryPopEvent at hend
    dsimp only at hend
    cases hevents : t.events with
    | nil =>
      rw [hevents] at hend
      exact hend
    | cons event events =>
      rw [hevents] at hend
      exact hend
  | isConnected s => exact hend
  | disconnect s =>
    obtain ⟨new, htells⟩ := disconnect_tells hs s
    exact htells.foretold hend
  | sendOrDisconnect packet =>
    obtain ⟨hids, hlast⟩ := sendPacket_ids t packet
    have hback : ∀ sent, Foretold final
        ((t.sendPacket packet.session packet.packetId packet.body).2, sent) →
          Foretold final (t, sent) := by
      intro sent h
      exact h.before (by rw [hlast]; exact UInt64.le_refl _) fun s hin => .inl (hids ▸ hin)
    cases hqueued : (t.sendPacket packet.session packet.packetId packet.body).1 with
    | true =>
      rw [device_taken sent hqueued] at hend
      obtain ⟨later, e, hlater⟩ := hback _ hend
      refine ⟨packet :: later, by rw [e, List.append_assoc, List.singleton_append], ?_⟩
      intro other hother
      rcases List.mem_cons.mp hother with rfl | hother
      · exact .inl (sendPacket_queued hqueued)
      · exact hlater other hother
    | false =>
      rw [device_refused sent hqueued] at hend
      obtain ⟨new, htells⟩ := disconnect_tells (sendPacket_sound hs packet) packet.session
      exact hback _ (htells.foretold hend)

/-- The host of what is foretold takes a packet if the send buffer does. -/
theorem foreseen_accepts (multiByteToWideChar : Bytes → Nat) (ht : t.Sound) {packet : SentPacket}
    (hin : packet.session ∈ t.ids)
    (hend : Foretold final (device (.sendOrDisconnect packet) (t, sent)).2) :
    (foreseen multiByteToWideChar final).accepts sent packet =
      (t.sendPacket packet.session packet.packetId packet.body).1 := by
  have hsend := sendPacket_sound ht packet
  show decide (sent ++ [packet] <+: final) = _
  cases hqueued : (t.sendPacket packet.session packet.packetId packet.body).1 with
  | true =>
    rw [device_taken sent hqueued] at hend
    obtain ⟨later, e, -⟩ := hend
    exact decide_eq_true ⟨later, e.symm⟩
  | false =>
    rw [device_refused sent hqueued] at hend
    obtain ⟨later, e, hlater⟩ := hend
    refine decide_eq_false fun hprefix => ?_
    obtain ⟨rest, hrest⟩ := hprefix
    -- then the packet would be the next one to be taken, but its session is gone
    have hfirst : later = packet :: rest := by
      have hsame : sent ++ later = sent ++ (packet :: rest) := by
        rw [← e, ← hrest, List.append_assoc, List.singleton_append]
      exact List.append_cancel_left hsame
    rw [hfirst] at hlater
    rcases hlater packet (List.mem_cons_self ..) with hstays | hnew
    · have hmem : packet.session ∈ (((t.sendPacket packet.session packet.packetId
          packet.body).2.disconnect packet.session).seen sent).connected :=
        List.mem_toFinset.mpr hstays
      rw [disconnect_seen hsend.nodup, Network.disconnect_connected, Finset.mem_erase] at hmem
      exact hmem.1 rfl
    · obtain ⟨new, htells⟩ := disconnect_tells hsend packet.session
      have hle := htells.last
      rw [(sendPacket_ids t packet).2] at hle
      exact UInt64.not_le.mpr (UInt64.lt_of_le_of_lt hle hnew) (ht.issued _ hin)

/-- `TcpNetwork` and what is seen of it answer every call alike. -/
theorem device_seen (multiByteToWideChar : Bytes → Nat) (call : NetworkCall)
    (s : TcpNetwork × List SentPacket) (n : Network) (hs : s.1.Sound) (hn : n = s.1.seen s.2)
    (hend : Foretold final (device call s).2) :
    (device call s).1 = (Network.device (foreseen multiByteToWideChar final) call n).1 ∧
      (Network.device (foreseen multiByteToWideChar final) call n).2 =
        (device call s).2.1.seen (device call s).2.2 := by
  obtain ⟨t, sent⟩ := s
  subst hn
  cases call with
  | tryPopEvent =>
    unfold device Network.device
    dsimp only
    rw [← tryPopEvent_seen]
    cases t.tryPopEvent with
    | none => exact ⟨rfl, rfl⟩
    | some popped => exact ⟨rfl, rfl⟩
  | isConnected s => exact ⟨isConnected_seen t sent s, rfl⟩
  | disconnect s => exact ⟨rfl, (disconnect_seen hs.nodup s sent).symm⟩
  | sendOrDisconnect packet =>
    have hsend := sendPacket_sound hs packet
    have hseen := @sendPacket_seen t sent (foreseen multiByteToWideChar final) packet fun hin =>
      foreseen_accepts multiByteToWideChar hs hin hend
    have hdevice : Network.device (foreseen multiByteToWideChar final) (.sendOrDisconnect packet)
        (t.seen sent) =
          if ((t.seen sent).sendPacket (foreseen multiByteToWideChar final) packet).1 then
            (true, ((t.seen sent).sendPacket (foreseen multiByteToWideChar final) packet).2)
          else (false, ((t.seen sent).sendPacket (foreseen multiByteToWideChar final)
            packet).2.disconnect packet.session) := rfl
    dsimp only
    rw [hdevice, hseen]
    cases hqueued : (t.sendPacket packet.session packet.packetId packet.body).1 with
    | true =>
      rw [device_taken sent hqueued]
      exact ⟨rfl, rfl⟩
    | false =>
      rw [device_refused sent hqueued]
      exact ⟨rfl, (disconnect_seen hsend.nodup _ _).symm⟩

end TcpNetwork

/-! ## Runs of the program -/

theorem Foretold.now (s : TcpNetwork × List SentPacket) : TcpNetwork.Foretold s.2 s :=
  ⟨[], (List.append_nil _).symm, fun _ h => by cases h⟩

/-- What comes from outside, one after the other. -/
def Server.brings (c : Server) : List Input → List (Entry Server Input)
  | [] => []
  | l :: inputs =>
    ⟨c, l, c.withNetwork (c.network.bring l)⟩ ::
      (c.withNetwork (c.network.bring l)).brings inputs

theorem Server.brings_labels (inputs : List Input) :
    ∀ c : Server, (c.brings inputs).map (·.label) = inputs := by
  induction inputs with
  | nil => exact fun _ => rfl
  | cons l inputs ih => exact fun c => congrArg (l :: ·) (ih _)

/-- What comes from outside can come at any time. -/
theorem ServerRun.brought {host : Host} {p : PacketProcessor} (new : List NetworkEvent) :
    ∀ {history : List (Entry Server Input)} {c : Server}, ServerRun host p history c →
      ServerRun host p (history ++ c.brings (new.map Input.ofEvent))
        (c.withNetwork ((new.map Input.ofEvent).foldl Network.bring c.network)) := by
  induction new with
  | nil =>
    intro history c hrun
    show ServerRun host p (history ++ []) c
    rw [List.append_nil]
    exact hrun
  | cons event new ih =>
    intro history c hrun
    have htaken : ServerStep host c (Input.ofEvent event)
        (c.withNetwork (c.network.bring (Input.ofEvent event))) := by
      unfold Input.ofEvent
      cases event.type with
      | connected => rfl
      | packet => rfl
      | disconnected => rfl
    have hlater := ih (hrun.snoc htaken)
    rw [List.append_assoc] at hlater
    exact hlater

namespace ServerApp
open TcpNetwork Logic

/-- The server as its logic sees it. -/
def seen (app : ServerApp) : Server where
  processor := app.logic.on (app.network.seen app.sent)
  updating := decide (app.phase = .updating true)

/-- What an entry of a run is to the server: a turn of the network brings what its new events say. -/
def told (e : Entry ServerApp AppInput) : List Input :=
  match e.label with
  | .poll _ _ => (e.post.network.events.drop e.pre.network.events.length).map Input.ofEvent
  | .beginUpdate traversal now => [.beginUpdate traversal now]
  | .event loginNow gameNow => [.event loginNow gameNow]
  | .endUpdate first second traversal now => [.endUpdate first second traversal now]

/-- The entries of the server's run that an entry of a run is. -/
def retold (e : Entry ServerApp AppInput) : List (Entry Server Input) :=
  match e.label with
  | .poll _ _ => e.pre.seen.brings (told e)
  | _ => (told e).map fun l => ⟨e.pre.seen, l, e.post.seen⟩

theorem retold_labels (e : Entry ServerApp AppInput) : (retold e).map (·.label) = told e := by
  unfold retold
  split
  · exact Server.brings_labels _ _
  · rw [List.map_map]
    exact List.map_id _

variable {m : Bytes → Nat} {app app' : ServerApp} {program : Program INetwork (Except LogicError Logic)}
variable {phase : AppPhase} {final : List SentPacket}

/-- The logic cannot tell its network from what is seen of it. -/
theorem perform_seen (m : Bytes → Nat) (hs : app.network.Sound) (phase : AppPhase)
    (hend : Foretold final (program.run device (app.network, app.sent)).2) :
    settledOr (onNetwork (foreseen m final) program (app.network.seen app.sent)) =
      (app.perform program phase).map fun app' => app'.seen.processor := by
  obtain ⟨hresult, hnetwork⟩ := Program.run_simulates (P := fun s => s.1.Sound) (F := Foretold final)
    (R := fun s n => n = s.1.seen s.2) device_sound device_back
    (fun call s n hs hn hend => device_seen m call s n hs hn hend) program
    (s := (app.network, app.sent)) hs rfl hend
  unfold settledOr onNetwork perform
  rw [← hresult, hnetwork]
  obtain ⟨result, network, sent⟩ := program.run device (app.network, app.sent)
  cases result with
  | error e => rfl
  | ok logic => rfl

theorem perform_ran (h : app.perform program phase = .ok app') :
    (program.run device (app.network, app.sent)).2 = (app'.network, app'.sent) ∧
      app'.phase = phase := by
  unfold perform at h
  generalize program.run device (app.network, app.sent) = ran at h ⊢
  obtain ⟨result, network, sent⟩ := ran
  cases result with
  | error e => cases h
  | ok logic =>
    obtain rfl := Except.ok.inj h
    exact ⟨rfl, rfl⟩

/-- From `app` to `app'`, and on the server that is seen `entries` have happened. -/
structure Shows (m : Bytes → Nat) (app : ServerApp) (entries : List (Entry Server Input))
    (app' : ServerApp) : Prop where
  sound : app'.network.Sound
  back : ∀ final, Foretold final (app'.network, app'.sent) → Foretold final (app.network, app.sent)
  seen : ∀ final, Foretold final (app'.network, app'.sent) →
    ∀ (p : PacketProcessor) (history : List (Entry Server Input)),
      ServerRun (foreseen m final) p history app.seen →
        ServerRun (foreseen m final) p (history ++ entries) app'.seen

/-- A part of `Update`, on the network of `app1`, is the step `l` of the server that is seen. -/
theorem perform_shows {app1 : ServerApp} {l : Input} (hsound : app.seen.Sound)
    (h1 : app1.network.Sound)
    (hback : ∀ final, Foretold final (app1.network, app1.sent) →
      Foretold final (app.network, app.sent))
    (hstep : ∀ host : Host, host.multiByteToWideChar = m → app.seen.step host l =
      some ((settledOr (onNetwork host program (app1.network.seen app1.sent))).map fun p =>
        ⟨p, decide (phase = .updating true)⟩)) :
    ∃ app', app1.perform program phase = .ok app' ∧
      Shows m app [⟨app.seen, l, app'.seen⟩] app' := by
  have hkept := Program.run_invariant (P := fun s => s.1.Sound) device_sound program
    (s := (app1.network, app1.sent)) h1
  have hsame := fun final => hstep (foreseen m final) rfl
  generalize hend : (program.run device (app1.network, app1.sent)).2 = after at hkept
  cases hperform : app1.perform program phase with
  | error e =>
    -- the server would throw too
    have hnow : Foretold after.2 (program.run device (app1.network, app1.sent)).2 :=
      hend ▸ Foretold.now after
    have hthrown := hsame after.2
    rw [perform_seen m h1 phase hnow, hperform] at hthrown
    obtain ⟨c', -, e, -⟩ := hsound.step_returns hthrown
    cases e
  | ok app' =>
    obtain ⟨hran, hphase⟩ := perform_ran hperform
    obtain ⟨hnetwork, hsent⟩ := Prod.mk.inj (hran.symm.trans hend)
    have hfinal : ∀ final, Foretold final (app'.network, app'.sent) →
        Foretold final (program.run device (app1.network, app1.sent)).2 := by
      intro final hfinal
      rw [hran]
      exact hfinal
    refine ⟨app', rfl, hnetwork ▸ hkept, fun final h => ?_, fun final h p history hrun => ?_⟩
    · exact hback final (Program.run_back device_sound device_back program h1 (hfinal final h))
    · have htaken := hsame final
      rw [perform_seen m h1 phase (hfinal final h), hperform, ← hphase] at htaken
      have htaken : ServerStep (foreseen m final) app.seen l app'.seen := htaken
      exact hrun.snoc htaken

/-- A turn of the network lets its events happen. -/
theorem tells_shows {network : TcpNetwork} {new : List NetworkEvent} (hsound : network.Sound)
    (htells : Tells app.network new network) (hphase : app.phase ≠ .updating true)
    (hnext : phase ≠ .updating true) :
    Shows m app (app.seen.brings (new.map Input.ofEvent))
      { app with network := network, phase := phase } where
  sound := hsound
  back _ h := htells.foretold h
  seen final _ p history hrun := by
    have hbrought := hrun.brought new
    have hsame : seen { app with network := network, phase := phase } = app.seen.withNetwork
        ((new.map Input.ofEvent).foldl Network.bring app.seen.network) := by
      unfold seen Server.withNetwork Server.network
      dsimp only
      rw [htells.seen, decide_eq_false hnext, decide_eq_false hphase]
      rfl
    rw [hsame]
    exact hbrought

/-- What an input does is shown, and no input makes the program throw. -/
theorem step_shows (hs : app.network.Sound) (hsound : app.seen.Sound) {l : AppInput}
    {r : Except LogicError ServerApp} (h : app.step m l = some r) :
    ∃ app', r = .ok app' ∧ Shows m app (retold ⟨app, l, app'⟩) app' := by
  unfold step at h
  cases l with
  | poll key os =>
    dsimp only at h
    split at h
    · cases h
    rename_i hphase
    have hphase : app.phase ≠ .updating true := by
      rw [not_not.mp hphase]
      simp
    have hnew : ∀ {network : TcpNetwork} {new : List NetworkEvent} {phase : AppPhase},
        Tells app.network new network →
          retold ⟨app, .poll key os, { app with network := network, phase := phase }⟩ =
            app.seen.brings (new.map Input.ofEvent) := by
      intro network new phase htells
      show app.seen.brings ((network.events.drop app.network.events.length).map Input.ofEvent) = _
      rw [htells.events, List.drop_left]
    split at h
    · have htells := Tells.refl app.network
      refine ⟨_, (Option.some.inj h).symm, ?_⟩
      rw [hnew htells]
      exact tells_shows hs htells hphase (by simp)
    · obtain ⟨⟨go, network⟩, e, h⟩ := Option.map_eq_some_iff.mp h
      obtain ⟨new, htells⟩ := run_tells hs e
      refine ⟨_, h.symm, ?_⟩
      rw [hnew htells]
      refine tells_shows (run_sound hs e) htells hphase ?_
      cases go with
      | true => simp
      | false => simp
  | beginUpdate traversal now =>
    dsimp only at h
    split at h
    · cases h
    rename_i hphase
    obtain rfl := Option.some.inj h
    refine perform_shows hsound hs (fun _ hfinal => hfinal) fun host _ => ?_
    unfold Server.step seen
    rw [not_not.mp hphase]
    dsimp only
    rw [beginUpdate_on]
    rfl
  | event loginNow gameNow =>
    dsimp only at h
    split at h
    · cases h
    rename_i hphase
    have hpop := tryPopEvent_seen app.network app.sent
    split at h
    · cases h
    rename_i event network hevent
    obtain rfl := Option.some.inj h
    rw [hevent] at hpop
    have hpopped : network.Sound ∧ ∀ final, Foretold final (network, app.sent) →
        Foretold final (app.network, app.sent) := by
      unfold tryPopEvent at hevent
      split at hevent
      · cases hevent
      · rename_i hevents
        cases hevent
        exact ⟨(moved_popped hs hevents).sound, fun _ hfinal => hfinal⟩
    refine perform_shows hsound hpopped.1 hpopped.2 fun host hhost => ?_
    unfold Server.step seen Server.withNetwork Server.network
    rw [not_not.mp hphase]
    dsimp only
    have hnetwork : (app.logic.on (app.network.seen app.sent)).network =
      app.network.seen app.sent := rfl
    rw [hnetwork, ← hpop, ← hhost]
    show some ((PacketProcessor.handleEvent host (app.logic.on (network.seen app.sent)) event
      loginNow gameNow).map fun p => Server.mk p true) = _
    rw [handleEvent_on]
    rfl
  | endUpdate first second traversal now =>
    dsimp only at h
    split at h
    · cases h
    rename_i hphase
    obtain ⟨hphase, hempty⟩ := not_or.mp hphase
    have hpop := tryPopEvent_seen app.network app.sent
    rw [Option.not_isSome_iff_eq_none.mp hempty] at hpop
    obtain rfl := Option.some.inj h
    refine perform_shows hsound hs (fun _ hfinal => hfinal) fun host _ => ?_
    unfold Server.step seen Server.network
    rw [not_not.mp hphase]
    dsimp only
    have hnetwork : (app.logic.on (app.network.seen app.sent)).network =
      app.network.seen app.sent := rfl
    rw [hnetwork, ← hpop, endUpdate_on]
    rfl

theorem init_seen {config : ServerConfig} {listening : Bool} {app0 : ServerApp}
    (hinit : init config listening = .ok (some app0)) :
    ∃ p, PacketProcessor.make {} config.loginTimeout = .ok p ∧ app0.network.Sound ∧
      app0.seen = { processor := p } := by
  unfold init at hinit
  split at hinit
  · cases hinit
  split at hinit
  · cases hinit
  rename_i network hnetwork
  split at hinit
  · cases hinit
  cases hmake : PacketProcessor.make {} config.loginTimeout with
  | error e =>
    rw [hmake] at hinit
    cases hinit
  | ok p =>
    rw [hmake] at hinit
    obtain rfl := Option.some.inj (Except.ok.inj hinit)
    refine ⟨p, rfl, (tcp_run hnetwork .start).1, ?_⟩
    have hempty : network.seen [] = p.network := by
      rw [(PacketProcessor.make_eq hmake).2]
      unfold TcpNetwork.init at hnetwork
      split at hnetwork
      · cases hnetwork
        rfl
      · cases hnetwork
    show Server.mk (p.logic.on (network.seen [])) false = _
    rw [hempty, on_logic]

/-- What has been seen of a run is a run of the server. -/
theorem run_shows {config : ServerConfig} {listening : Bool} {app0 : ServerApp}
    (hinit : init config listening = .ok (some app0)) {p : PacketProcessor}
    (hp : PacketProcessor.make {} config.loginTimeout = .ok p)
    {history : List (Entry ServerApp AppInput)} (hrun : AppRun m app0 history app) :
    app.network.Sound ∧ ∀ final, Foretold final (app.network, app.sent) →
      ServerRun (foreseen m final) p (history.flatMap retold) app.seen := by
  induction hrun with
  | start =>
    obtain ⟨p', hp', hsound, hseen⟩ := init_seen hinit
    obtain rfl := Except.ok.inj (hp.symm.trans hp')
    refine ⟨hsound, fun final _ => ?_⟩
    rw [hseen]
    exact .start
  | @snoc history app app' l hbefore htaken ih =>
    obtain ⟨hs, hseen⟩ := ih
    have hnow := hseen _ (Foretold.now (app.network, app.sent))
    obtain ⟨_, e, hshows⟩ := step_shows hs (hnow.sound hp) htaken
    obtain rfl := Except.ok.inj e
    refine ⟨hshows.sound, fun final hfinal => ?_⟩
    rw [List.flatMap_append, List.flatMap_singleton]
    exact hshows.seen final hfinal p _ (hseen final (hshows.back final hfinal))

/-- What an entry is to the server are steps of it. -/
theorem step_retold {config : ServerConfig} {listening : Bool} {app0 : ServerApp}
    (hinit : init config listening = .ok (some app0))
    {history : List (Entry ServerApp AppInput)} (hrun : AppRun m app0 history app) {l : AppInput}
    (htaken : AppStep m app l app') :
    app.network.Sound ∧ app'.network.Sound ∧ app.seen.Sound ∧
      ∀ e ∈ retold ⟨app, l, app'⟩, ServerStep (foreseen m app'.sent) e.pre e.label e.post := by
  obtain ⟨p, hp, -⟩ := init_seen hinit
  obtain ⟨hs, hseen⟩ := run_shows hinit hp hrun
  have hsound := (hseen _ (Foretold.now (app.network, app.sent))).sound hp
  obtain ⟨hs', hseen'⟩ := run_shows hinit hp (hrun.snoc htaken)
  refine ⟨hs, hs', hsound, fun e he => ?_⟩
  have hall := hseen' _ (Foretold.now (app'.network, app'.sent))
  rw [List.flatMap_append, List.flatMap_singleton] at hall
  obtain ⟨-, -, -, -, hstep⟩ := hall.split (List.mem_append_right _ he)
  exact hstep

/-- The program after an input that can come. -/
def next (m : Bytes → Nat) (app : ServerApp) (l : AppInput) : Option ServerApp :=
  match app.step m l with
  | some (.ok app') => some app'
  | _ => none

theorem step_of_next {l : AppInput} (h : app.next m l = some app') : AppStep m app l app' := by
  unfold next at h
  split at h
  · rename_i happ
    rw [← Option.some.inj h]
    exact happ
  · cases h

/-- A run of `inputs` that ends as `check` says. -/
theorem played (m : Bytes → Nat) (app : ServerApp) (inputs : List AppInput)
    (check : List (Entry ServerApp AppInput) → ServerApp → Bool)
    (h : (play (next m) app inputs).any (fun r => check r.1 r.2) = true) :
    ∃ history app', AppRun m app history app' ∧ check history app' = true :=
  Run.played (fun _ _ _ => step_of_next) h

end ServerApp

open ServerApp

/-- In all its runs the program is a run of the server: what its logic sees is in a state that the
server reaches when the events which the network has queued happen to it and the parts of `Update`
are taken as the program takes them. Nothing it does throws, and no turn of the network fails to
return. -/
theorem app_refines {config : ServerConfig} {listening : Bool} {app0 app : ServerApp}
    {m : Bytes → Nat} {history : List (Entry ServerApp AppInput)}
    (hinit : ServerApp.init config listening = .ok (some app0)) (hrun : AppRun m app0 history app) :
    (∃ host p history', host.multiByteToWideChar = m ∧
      PacketProcessor.make {} config.loginTimeout = .ok p ∧ ServerRun host p history' app.seen ∧
        history'.map (·.label) = history.flatMap told) ∧
    (∀ l e, app.step m l ≠ some (.error e)) ∧
    (app.phase = .polling → ∀ key os, ∃ app', app.step m (.poll key os) = some (.ok app')) := by
  obtain ⟨p, hp, -⟩ := init_seen hinit
  obtain ⟨hs, hseen⟩ := run_shows hinit hp hrun
  have hrun' := hseen _ (Foretold.now (app.network, app.sent))
  have hlabels : (history.flatMap retold).map (·.label) = history.flatMap told := by
    rw [List.map_flatMap]
    exact congrArg (List.flatMap · history) (funext retold_labels)
  refine ⟨⟨_, p, _, rfl, hp, hrun', hlabels⟩, fun l e herror => ?_, fun hphase key os => ?_⟩
  · obtain ⟨app', hok, -⟩ := step_shows hs (hrun'.sound hp) herror
    cases hok
  · unfold ServerApp.step
    dsimp only
    rw [if_neg (not_not.mpr hphase)]
    split
    · exact ⟨_, rfl⟩
    · cases hselect : os.select with
      | none =>
        unfold TcpNetwork.run
        rw [hselect]
        exact ⟨_, rfl⟩
      | some sets =>
        obtain ⟨readable, writable⟩ := sets
        obtain ⟨t1, -, -, e⟩ := TcpNetwork.run_polled hs hselect
        rw [e]
        exact ⟨_, rfl⟩

/-- The request of a login. -/
def loginChunk : Chunk := ⟨[0, 5, 0, 1, 97], by decide, by decide⟩

/-- One connection is accepted, and its session logs in. -/
def loginTurns : List AppInput :=
  let quiet : Sockets := ⟨some (fun _ => true, fun _ => false), fun _ => .wouldBlock,
    fun _ => .wouldBlock, fun _ => .wouldBlock⟩
  let updated : List AppInput := [.beginUpdate .ascending 0, .event 0 0,
    .endUpdate (.ascending, 0) (.ascending, 0) .ascending 0]
  .poll none { quiet with accept := fun n => if n = 0 then .connection true 0 else .wouldBlock } ::
    updated ++
  .poll (some 'x') { quiet with recv := fun _ => .data loginChunk } ::
    updated

theorem app_refines_login : ∃ app0 history app host p history',
    ServerApp.init {} true = .ok (some app0) ∧ AppRun (fun b => b.length) app0 history app ∧
      app.sent ≠ [] ∧ PacketProcessor.make {} (seconds 10) = .ok p ∧
        ServerRun host p history' app.seen ∧ history'.map (·.label) = history.flatMap told := by
  have hinit : ∃ app0, ServerApp.init {} true = .ok (some app0) ∧
      (play (ServerApp.next fun b => b.length) app0 loginTurns).any
        (fun r => decide (r.2.sent ≠ [])) = true := ⟨_, rfl, by decide +kernel⟩
  obtain ⟨app0, hinit, hplayed⟩ := hinit
  obtain ⟨history, app, hrun, hsent⟩ := ServerApp.played (fun b => b.length) app0 loginTurns
    (fun _ app => decide (app.sent ≠ [])) hplayed
  obtain ⟨⟨host, p, history', -, hp, hrun', hlabels⟩, -⟩ := app_refines hinit hrun
  exact ⟨app0, history, app, host, p, history', hinit, hrun, of_decide_eq_true hsent, hp, hrun',
    hlabels⟩

end SelectServer
