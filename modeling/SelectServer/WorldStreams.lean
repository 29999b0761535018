import SelectServer.LinkStreams
import SelectServer.UpdateTermination

/- The whole system carries its packets. In every run, whichever programs take their
   turns and whatever the system answers, what a client has popped is the beginning
   of what the server's logic has sent it (`Carries.heard`), what the logic has popped
   of a session is the beginning of what its client has sent (`Carries.popped`), and
   neither end's `Run` ever fails over the bytes that it reads: those of a client by
   `Link.Sound.external`, those of the server by `Carries.readable`. -/
namespace SelectServer
open Wire (Bytes)
open Histories Programs TcpNetwork

/-! ## A part of `Update` -/

theorem packetsOf_session (s : SessionId) (events : List NetworkEvent) :
    packetsOf s (ofSession s events) = packetsOf s events := by
  unfold packetsOf ofSession
  rw [List.filter_filter]
  congr 2
  funext e
  by_cases hs : e.session = s
  · simp [hs]
  · simp [hs]

/-- A session that is disconnected has its packets queued all the same. -/
theorem Network.Quits.packets {n n' : Network} (h : Network.Quits n n') (s : SessionId) :
    packetsOf s n'.events = packetsOf s n.events := by
  rw [← packetsOf_session, h.queue, packetsOf_append, packetsOf_session]
  split
  · exact List.append_nil _
  · exact List.append_nil _

namespace ServerApp
variable {m : Bytes → Nat} {app app' : ServerApp} {s : SessionId} {host : Host}

/-- What a part of `Update` does to a session, after `popped` has been popped. -/
structure Treats (app : ServerApp) (popped : List NetworkEvent) (app' : ServerApp) (s : SessionId) :
    Prop where
  events : ∃ rest, app.network.events = popped ++ rest ∧
    packetsOf s app'.network.events = packetsOf s rest
  posts : Posts s (app.network, app.sent) (app'.network, app'.sent)

/-- A part of `Update` calls the network. -/
theorem perform_posts {app1 : ServerApp} {program : Program INetwork (Except LogicError Logic)}
    {phase : AppPhase} (h : app1.perform program phase = .ok app') (h1 : app1.network.Sound)
    (s : SessionId) : Posts s (app1.network, app1.sent) (app'.network, app'.sent) := by
  have hposts := posts_run program s (app1.network, app1.sent) h1
  rw [(perform_ran h).1] at hposts
  exact hposts

theorem begin_treats {traversal : Traversal RoomId} {now : Time}
    (happ : AppStep m app (.beginUpdate traversal now) app') (hs : app.network.Sound)
    (hsound : app.seen.Sound)
    (hstep : ServerStep host app.seen (.beginUpdate traversal now) app'.seen) (s : SessionId) :
    Treats app [] app' s where
  events := by
    obtain ⟨p', hp', e⟩ := Server.step_begin hstep
    have hquits := PacketProcessor.sweepRooms_quits hsound.rooms hp'
    have hnetwork : p'.network = app'.network.seen app'.sent := congrArg Server.network e.symm
    rw [hnetwork] at hquits
    exact ⟨app.network.events, rfl, hquits.packets s⟩
  posts := by
    unfold AppStep ServerApp.step at happ
    dsimp only at happ
    split at happ
    · cases happ
    · exact perform_posts (Option.some.inj happ) hs s

theorem end_treats {first second : Traversal SessionId × Time} {traversal : Traversal RoomId}
    {now : Time} (happ : AppStep m app (.endUpdate first second traversal now) app')
    (hs : app.network.Sound) (hsound : app.seen.Sound)
    (hstep : ServerStep host app.seen (.endUpdate first second traversal now) app'.seen)
    (s : SessionId) : Treats app [] app' s where
  events := by
    obtain ⟨p', hp', e⟩ := Server.step_end hstep
    have hquits := PacketProcessor.endUpdate_quits hsound.rooms hp'
    have hnetwork : p'.network = app'.network.seen app'.sent := congrArg Server.network e.symm
    rw [hnetwork] at hquits
    exact ⟨app.network.events, rfl, hquits.packets s⟩
  posts := by
    unfold AppStep ServerApp.step at happ
    dsimp only at happ
    split at happ
    · cases happ
    · exact perform_posts (Option.some.inj happ) hs s

theorem event_treats {loginNow gameNow : Time}
    (happ : AppStep m app (.event loginNow gameNow) app') (hs : app.network.Sound)
    (hsound : app.seen.Sound)
    (hstep : ServerStep host app.seen (.event loginNow gameNow) app'.seen) (s : SessionId) :
    Treats app (app.network.events.take 1) app' s where
  events := by
    obtain ⟨event, rest, p', hevents, hp', e⟩ := Server.step_event hstep
    have hquits : Network.Quits { app.seen.network with events := rest } p'.network :=
      PacketProcessor.handleEvent_quits
        (p := { app.seen.processor with network := { app.seen.network with events := rest } })
        hsound.rooms hp'
    have hnetwork : p'.network = app'.network.seen app'.sent := congrArg Server.network e.symm
    rw [hnetwork] at hquits
    have hevents : app.network.events = event :: rest := hevents
    refine ⟨rest, ?_, hquits.packets s⟩
    rw [hevents]
    rfl
  posts := by
    unfold AppStep ServerApp.step at happ
    dsimp only at happ
    split at happ
    · cases happ
    split at happ
    · cases happ
    rename_i event network hpop
    have hpopped : network.Sound ∧ ∃ events, network = { app.network with events := events } := by
      unfold tryPopEvent at hpop
      split at hpop
      · cases hpop
      · rename_i hevents
        cases hpop
        exact ⟨(moved_popped hs hevents).sound, _, rfl⟩
    obtain ⟨hs1, events, rfl⟩ := hpopped
    have hposts := perform_posts (Option.some.inj happ) hs1 s
    exact ⟨hposts.last, hposts.posted⟩

end ServerApp

/-! ## The connections -/

namespace World

/-- The server's end of the connection of `s`. -/
structure End (w : World) (s : SessionId) (e : ServerEnd) : Prop where
  accepted : e.accepted = payloads (toSession s w.server.sent)
  queued : e.queued = packetsOf s w.server.network.events
  popped : e.popped = packetsOf s w.taken
  connected : ∀ client, w.server.network.session s = some client →
    e.gone = false ∧ client.sendBuffer = e.sendBuffer ∧ client.recvBuffer = e.recvBuffer
  unborn : w.server.network.lastSessionId < s →
    e.gone = false ∧ e.accepted = [] ∧ e.recvBuffer = []

/-- The connection of `s` carries its packets. -/
def Carries (w : World) (s : SessionId) : Prop := ∃ e, (w.links s).Sound e ∧ w.End s e

variable {m : Bytes → Nat} {w w' : World} {s : SessionId} {server : ServerApp}

theorem Carries.start {app0 : ServerApp} (hsent : app0.sent = [])
    (hnetwork : app0.network.events = [] ∧ app0.network.clients = []) (s : SessionId) :
    ({ server := app0 } : World).Carries s := by
  obtain ⟨hevents, hclients⟩ := hnetwork
  refine ⟨{}, .start, ?_, ?_, rfl, fun client hclient => ?_, fun _ => ⟨rfl, rfl, rfl⟩⟩
  · rw [hsent]
    rfl
  · rw [hevents]
    rfl
  · unfold session at hclient
    rw [hclients] at hclient
    cases hclient

theorem Carries.treated (h : w.Carries s) (hs : w.server.network.Sound) {popped : List NetworkEvent}
    (ht : ServerApp.Treats w.server popped server s) :
    ({ w with server := server, taken := w.taken ++ popped } : World).Carries s := by
  obtain ⟨e, hlink, hend⟩ := h
  obtain ⟨rest, hevents, hpackets⟩ := ht.events
  obtain ⟨packets, hsent, hbodies, hnone, hsome⟩ := ht.posts.posted
  have hlast : server.network.lastSessionId = w.server.network.lastSessionId := ht.posts.last
  have hqueued : e.queued = packetsOf s popped ++ packetsOf s rest := by
    rw [hend.queued, hevents, packetsOf_append]
  refine ⟨_, (hlink.taken hqueued).posted hbodies, ?_, ?_, ?_, fun client' hclient' => ?_,
    fun hunborn => ?_⟩
  · show e.accepted ++ payloads packets = payloads (toSession s server.sent)
    have hsent : toSession s server.sent = toSession s w.server.sent ++ packets := hsent
    rw [hsent, payloads_append, hend.accepted]
  · exact hpackets.symm
  · show e.popped ++ packetsOf s popped = packetsOf s (w.taken ++ popped)
    rw [packetsOf_append, hend.popped]
  · obtain ⟨client, hclient, hrecv, hsend⟩ := hsome client' hclient'
    obtain ⟨hopen, hsend0, hrecv0⟩ := hend.connected client hclient
    refine ⟨hopen, ?_, hrecv.trans hrecv0⟩
    rw [hsend, hsend0]
  · have hunborn : server.network.lastSessionId < s := hunborn
    rw [hlast] at hunborn
    obtain ⟨hopen, haccepted, hrecv⟩ := hend.unborn hunborn
    refine ⟨hopen, ?_, hrecv⟩
    show e.accepted ++ payloads packets = []
    rw [haccepted, (hnone (session_unborn hs hunborn)).1]
    rfl

theorem Carries.polled (h : w.Carries s) (hs : w.server.network.Sound) {os : Sockets}
    (hallows : w.allows os = true) {go : Bool}
    (hrun : w.server.network.run os = some (go, server.network))
    (hsent : server.sent = w.server.sent) :
    ({ w with
      server := server
      links := fun s => (w.links s).polled (w.server.network.bytesRead os s)
        (w.server.network.bytesSent server.network s) } : World).Carries s := by
  obtain ⟨e, hlink, hend⟩ := h
  obtain ⟨hserved, hjoined⟩ := run_session hs hrun s
  obtain ⟨new, htells⟩ := run_tells hs hrun
  have hlast := htells.last
  cases hsession : w.server.network.session s with
  | none =>
    obtain ⟨hcases, hpackets⟩ := hjoined hsession
    have hread : w.server.network.bytesRead os s = [] := by
      unfold bytesRead
      rw [hsession]
    have hsend : w.server.network.bytesSent server.network s = [] := by
      unfold bytesSent
      rw [hsession]
    have hsame : (w.links s).polled [] [] = w.links s := by
      unfold Link.polled
      rw [List.append_nil]
      rfl
    refine ⟨e, ?_, ?_, ?_, hend.popped, fun client' hclient' => ?_, fun hunborn => ?_⟩
    · dsimp only
      rw [hread, hsend, hsame]
      exact hlink
    · show e.accepted = payloads (toSession s server.sent)
      rw [hsent]
      exact hend.accepted
    · exact hend.queued.trans hpackets.symm
    · have hclient' : server.network.session s = some client' := hclient'
      rcases hcases with hout | ⟨hlt, hnew⟩
      · rw [hout, hsession] at hclient'
        cases hclient'
      · -- a session that was accepted in this `Run`
        rw [hnew] at hclient'
        obtain rfl := Option.some.inj hclient'
        obtain ⟨hopen, haccepted, hrecv⟩ := hend.unborn hlt
        obtain ⟨consumed, hdown⟩ := hlink.down
        exact ⟨hopen, (hdown.unsent haccepted).symm, hrecv.symm⟩
    · exact hend.unborn (UInt64.lt_of_le_of_lt hlast hunborn)
  | some client =>
    obtain ⟨hopen, hsendBuffer, hrecvBuffer⟩ := hend.connected client hsession
    obtain ⟨hin, hid⟩ := session_some hsession
    subst hid
    unfold allows at hallows
    have hanswer := List.all_eq_true.mp hallows client hin
    rw [Bool.and_eq_true, List.isPrefixOf_iff_prefix] at hanswer
    have hread : w.server.network.bytesRead os client.id =
        ((w.server.network.receivedBy os client.id).map Received.bytes).getD [] := by
      unfold bytesRead
      rw [hsession]
      cases w.server.network.receivedBy os client.id with
      | none => rfl
      | some received => rfl
    rw [hread] at hanswer
    obtain ⟨e', hlink', haccepted, hpopped, ⟨queued, hpackets, hqueued⟩, hconnected⟩ :=
      hlink.exchanged hopen hsession ⟨hsendBuffer, hrecvBuffer⟩ hanswer.1 hanswer.2
        (hserved client hsession)
    rw [← hread] at hlink'
    refine ⟨e', hlink', ?_, ?_, ?_, hconnected, fun hunborn => ?_⟩
    · show e'.accepted = payloads (toSession client.id server.sent)
      rw [haccepted, hsent]
      exact hend.accepted
    · exact hqueued.trans (by rw [hend.queued]; exact hpackets.symm)
    · exact hpopped.trans hend.popped
    · have hold := hs.issued _ (session_mem hsession)
      exact absurd (UInt64.le_trans hold hlast) (UInt64.not_le.mpr hunborn)

theorem Carries.client (h : w.Carries s) {s' : SessionId} {l : ClientInput} {link : Link}
    (hlink : (w.links s').step l = some link) :
    ({ w with links := Function.update w.links s' link } : World).Carries s := by
  obtain ⟨e, hsound, hend⟩ := h
  refine ⟨e, ?_, hend.accepted, hend.queued, hend.popped, hend.connected, hend.unborn⟩
  dsimp only
  by_cases hs : s = s'
  · subst hs
    rw [Function.update_self]
    exact hsound.step hlink
  · rw [Function.update_of_ne hs]
    exact hsound

/-- Whatever happens, the connection goes on carrying its packets. -/
theorem Carries.step (h : w.Carries s) {config : ServerConfig} {listening : Bool} {app0 : ServerApp}
    (hinit : ServerApp.init config listening = .ok (some app0))
    {history : List (Entry World WorldInput)} (hrun : WorldRun m app0 history w) {l : WorldInput}
    (htaken : WorldStep m w l w') : w'.Carries s := by
  have hserver := run_server hrun
  have hnothing : ∀ {server}, ServerApp.Treats w.server [] server s →
      w.server.network.Sound → ({ w with server := server } : World).Carries s := by
    intro server ht hs
    have htreated := h.treated hs ht
    rw [List.append_nil] at htreated
    exact htreated
  cases step_cases htaken with
  | quit happ hsame =>
    obtain ⟨e, hlink, hend⟩ := h
    obtain ⟨hnetwork, hsent⟩ := hsame
    exact ⟨e, hlink, ⟨by rw [hsent]; exact hend.accepted, by rw [hnetwork]; exact hend.queued,
      hend.popped, by rw [hnetwork]; exact hend.connected, by rw [hnetwork]; exact hend.unborn⟩⟩
  | polled happ hallows hpoll hsent =>
    obtain ⟨hs, -⟩ := ServerApp.step_retold hinit hserver happ
    exact h.polled hs hallows hpoll hsent
  | begun happ =>
    obtain ⟨hs, -, hsound, hsteps⟩ := ServerApp.step_retold hinit hserver happ
    exact hnothing (ServerApp.begin_treats happ hs hsound (hsteps _ (List.mem_singleton_self _)) s) hs
  | handled happ =>
    obtain ⟨hs, -, hsound, hsteps⟩ := ServerApp.step_retold hinit hserver happ
    exact h.treated hs
      (ServerApp.event_treats happ hs hsound (hsteps _ (List.mem_singleton_self _)) s)
  | ended happ =>
    obtain ⟨hs, -, hsound, hsteps⟩ := ServerApp.step_retold hinit hserver happ
    exact hnothing (ServerApp.end_treats happ hs hsound (hsteps _ (List.mem_singleton_self _)) s) hs
  | client hlink => exact h.client hlink

theorem init_empty {config : ServerConfig} {listening : Bool} {app0 : ServerApp}
    (hinit : ServerApp.init config listening = .ok (some app0)) :
    app0.sent = [] ∧ app0.network.events = [] ∧ app0.network.clients = [] := by
  unfold ServerApp.init at hinit
  split at hinit
  · cases hinit
  split at hinit
  · cases hinit
  rename_i network hnetwork
  split at hinit
  · cases hinit
  have hempty : network.events = [] ∧ network.clients = [] := by
    unfold TcpNetwork.init at hnetwork
    split at hnetwork
    · cases hnetwork
      exact ⟨rfl, rfl⟩
    · cases hnetwork
  cases hmake : PacketProcessor.make {} config.loginTimeout with
  | error e =>
    rw [hmake] at hinit
    cases hinit
  | ok p =>
    rw [hmake] at hinit
    obtain rfl := Option.some.inj (Except.ok.inj hinit)
    exact ⟨rfl, hempty⟩

theorem run_carries {config : ServerConfig} {listening : Bool} {app0 : ServerApp}
    (hinit : ServerApp.init config listening = .ok (some app0))
    {history : List (Entry World WorldInput)} (hrun : WorldRun m app0 history w) (s : SessionId) :
    w.Carries s := by
  induction hrun with
  | start =>
    obtain ⟨hsent, hnetwork⟩ := init_empty hinit
    exact .start hsent hnetwork s
  | snoc hbefore htaken ih => exact ih.step hinit hbefore htaken

/-- What a client has popped is the beginning of what it was sent, and all of it if nothing of that is
under way. -/
theorem Carries.heard (h : w.Carries s) :
    (w.links s).client.heard <+: (toSession s w.server.sent).map SentPacket.packet ∧
      ((w.links s).client.exit = none → (w.links s).down = [] →
        (∀ client, w.server.network.session s = some client → client.sendBuffer = []) →
        s ∈ w.server.network.ids →
          (w.links s).client.heard = (toSession s w.server.sent).map SentPacket.packet) := by
  obtain ⟨e, hlink, hend⟩ := h
  obtain ⟨consumed, hdown⟩ := hlink.down
  obtain ⟨⟨later, hfirst⟩, -, hall⟩ := hdown.delivered
  have hback : ∀ packets : List ClientPacket,
      (packets.map ClientPacket.payload).map TcpClient.packetOf = packets := by
    intro packets
    rw [List.map_map]
    exact List.map_id packets
  have haccepted : e.accepted.map TcpClient.packetOf =
      (toSession s w.server.sent).map SentPacket.packet := by
    rw [hend.accepted, payloads, List.map_map]
    rfl
  have hfirst : (w.links s).client.heard.map ClientPacket.payload ++ later = e.accepted := hfirst
  refine ⟨⟨later.map TcpClient.packetOf, ?_⟩, fun hexit hwire hbuffer hin => ?_⟩
  · rw [← haccepted, ← hfirst, List.map_append, hback]
  · have hopen : ((w.links s).downward e).fault = none := by
      unfold Link.downward
      rw [hexit]
      rfl
    have hsend : e.sendBuffer = [] := by
      cases hsession : w.server.network.session s with
      | none => exact absurd hin (session_none.mp hsession)
      | some client =>
        obtain ⟨-, hsame, -⟩ := hend.connected client hsession
        rw [← hsame]
        exact hbuffer client hsession
    have hsame : (w.links s).client.heard.map ClientPacket.payload = e.accepted :=
      hall hopen hwire hsend rfl
    rw [← haccepted, ← hsame, hback]

/-- What the logic has popped of a session is the beginning of what its client has sent, and all of it
if nothing of that is under way. -/
theorem Carries.popped (h : w.Carries s) :
    packetsOf s w.taken <+: (w.links s).client.asked ∧
      ((w.links s).client.exit = none → (w.links s).client.tcp.sendBuffer = [] → (w.links s).up = [] →
        packetsOf s w.server.network.events = [] → s ∈ w.server.network.ids →
          packetsOf s w.taken = (w.links s).client.asked) := by
  obtain ⟨e, hlink, hend⟩ := h
  obtain ⟨sendBuffer, consumed, hup, hbuffer⟩ := hlink.up
  obtain ⟨hfirst, -, hall⟩ := hup.delivered
  rw [← hend.popped, ← hend.queued]
  refine ⟨hfirst, fun hexit hsend hwire hqueued hin => ?_⟩
  have hopen : ((w.links s).upward e).fault = none := by
    cases hsession : w.server.network.session s with
    | none => exact absurd hin (session_none.mp hsession)
    | some client =>
      obtain ⟨hopen, -⟩ := hend.connected client hsession
      unfold Link.upward
      rw [hopen]
      rfl
  exact hall hopen hwire ((hbuffer hexit).trans hsend) hqueued

/-- What is on the way to the server is nothing that it has to refuse. -/
theorem Carries.readable (h : w.Carries s) {client : ClientSession}
    (hsession : w.server.network.session s = some client) {chunk : Chunk}
    (hchunk : chunk.bytes <+: (w.links s).up) (t : TcpNetwork) :
    ∃ result t', t.receiveClient client (.data chunk) = some (result, t') ∧
      ∀ fault, result = .error fault → fault = .queueFull := by
  obtain ⟨e, hlink, hend⟩ := h
  obtain ⟨hopen, -, hrecv⟩ := hend.connected client hsession
  obtain ⟨sendBuffer, consumed, hup, -⟩ := hlink.up
  have hfault : ((w.links s).upward e).fault = none := by
    unfold Link.upward
    rw [hopen]
    rfl
  rw [← hrecv] at hup
  obtain ⟨result, new, hreceive, hcases⟩ := receiveClient_sound t hup hfault hchunk
  refine ⟨result, _, hreceive, fun fault hresult => ?_⟩
  rcases hcases with ⟨rest, hok, -⟩ | ⟨herror, -⟩
  · rw [hok] at hresult
    cases hresult
  · exact Except.error.inj (hresult.symm.trans herror)

end World

end SelectServer
