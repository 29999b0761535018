import SelectServer.ClientSync
import SelectServer.WorldStreams

/- What the players see, across the whole system. A session that is cut off in the
   middle of a step has been sent the beginning of what the step sends it (`Cuts`),
   so what the server has sent to any session, whatever became of it, is accepted
   by a client; and a client has heard the beginning of that. While it is connected
   and nothing is under way to it, a player's board is the one of the room
   (`players_shown`). -/
namespace SelectServer
open Wire (Bytes)
open Histories TcpNetwork

/-! ## A session that is cut off -/

namespace Network
variable {host : Host} {n n1 n' : Network} {packets more : List SentPacket} {s : SessionId}

/-- Of `packets`, each session has been sent the first ones, and none if it was not connected. -/
def Cuts (n : Network) (packets : List SentPacket) (n' : Network) : Prop :=
  ∀ s, ∃ first, toSession s n'.sent = toSession s n.sent ++ first ∧ first <+: toSession s packets ∧
    (s ∉ n.connected → first = [])

theorem Cuts.still (h : n'.sent = n.sent) : Cuts n packets n' := by
  intro s
  exact ⟨[], by rw [h, List.append_nil], List.nil_prefix, fun _ => rfl⟩

theorem cuts_post (host : Host) (n : Network) (packet : SentPacket)
    (h : Cuts (n.post host packet) packets n') : Cuts n (packet :: packets) n' := by
  intro s
  obtain ⟨first, e, hfirst, hout⟩ := h s
  have hpackets : toSession s (packet :: packets) =
      toSession s [packet] ++ toSession s packets :=
    toSession_append s [packet] packets
  have hother : packet.session ≠ s → toSession s [packet] = [] := by
    intro hs
    unfold toSession
    rw [List.filter_cons_of_neg (by simpa using hs), List.filter_nil]
  have hcases := post_cases host n packet
  generalize n.post host packet = n1 at hcases e hout
  -- the session of `packet` is gone, so it gets nothing more
  have hgone : packet.session ∉ n1.connected → n1.sent = n.sent →
      n1.connected ⊆ n.connected → ∃ first, toSession s n'.sent = toSession s n.sent ++ first ∧
        first <+: toSession s (packet :: packets) ∧ (s ∉ n.connected → first = []) := by
    intro hnot hsent hsubset
    refine ⟨first, by rw [e, hsent], ?_, fun hs => hout fun hs1 => hs (hsubset hs1)⟩
    by_cases hs : packet.session = s
    · rw [hout (hs ▸ hnot)]
      exact List.nil_prefix
    · rw [hpackets, hother hs]
      exact hfirst
  cases hcases with
  | skipped hnot => exact hgone hnot rfl (Finset.Subset.refl _)
  | refused hin _ =>
    refine hgone ?_ disconnect_sent ?_
    · rw [disconnect_connected]
      exact Finset.notMem_erase _ _
    · rw [disconnect_connected]
      exact Finset.erase_subset _ _
  | taken hin _ =>
    refine ⟨toSession s [packet] ++ first, ?_, ?_, fun hs => ?_⟩
    · rw [e, toSession_append, List.append_assoc]
    · rw [hpackets]
      exact List.prefix_append_right_inj _ |>.mpr hfirst
    · rw [hother fun e => hs (e ▸ hin), hout hs]
      rfl

theorem cuts_deliver (host : Host) (packets : List SentPacket) :
    ∀ n : Network, Cuts n packets (n.deliver host packets) := by
  induction packets with
  | nil => exact fun _ => Cuts.still rfl
  | cons packet packets ih => exact fun n => cuts_post host n packet (ih (n.post host packet))

/-- Sessions that are disconnected before the packets get none of them. -/
theorem Cuts.after (h : Cuts n1 packets n') (hsent : n1.sent = n.sent)
    (hsubset : n1.connected ⊆ n.connected) : Cuts n packets n' := by
  intro s
  obtain ⟨first, e, hfirst, hout⟩ := h s
  exact ⟨first, by rw [e, hsent], hfirst, fun hs => hout fun hs1 => hs (hsubset hs1)⟩

/-- What is disconnected is sent nothing. -/
theorem Emits.silent (h : Emits n [] n') : n'.sent = n.sent := by
  obtain ⟨new, e, hnew⟩ := h.sent
  have hnone : new = [] := by
    cases new with
    | nil => rfl
    | cons packet new => cases (hnew packet (List.mem_cons_self ..)).1
  rw [e, hnone, List.append_nil]

end Network

open Network in
/-- What an event has the server send. -/
theorem ServerStep.event_cuts {host : Host} {c c' : Server} {loginNow gameNow : Time}
    (hc : c.Sound) (h : ServerStep host c (.event loginNow gameNow) c') :
    ∃ packets, Deed host (c.Asked (.event loginNow gameNow)) c.rooms packets c'.rooms ∧
      Cuts c.network packets c'.network := by
  obtain ⟨event, rest, p', hevents, hp', rfl⟩ := Server.step_event h
  have hpop : c.network.tryPopEvent = some (event, { c.network with events := rest }) := by
    unfold Network.tryPopEvent
    rw [hevents]
  have hquiet : ∀ {p1 : PacketProcessor}, p1.rooms = c.rooms → p1.network.sent = c.network.sent →
      ∃ packets, Deed host (c.Asked (.event loginNow gameNow)) c.rooms packets p1.rooms ∧
        Cuts c.network packets p1.network := by
    intro p1 hrooms hsent
    rw [hrooms]
    exact ⟨[], .quiet (by simp), .still hsent⟩
  have hsends : ∀ {p1 : PacketProcessor} {packets : List SentPacket},
      Deed host (c.Asked (.event loginNow gameNow)) c.rooms packets p1.rooms →
        p1.network = ({ c.network with events := rest } : Network).deliver host packets →
          ∃ packets, Deed host (c.Asked (.event loginNow gameNow)) c.rooms packets p1.rooms ∧
            Cuts c.network packets p1.network := by
    intro p1 packets hdeed hnetwork
    refine ⟨packets, hdeed, ?_⟩
    rw [hnetwork]
    exact cuts_deliver host packets _
  cases PacketProcessor.handleEvent_takes hp' with
  | skipped => exact hquiet rfl rfl
  | opened => exact hquiet rfl rfl
  | late => exact hquiet rfl disconnect_sent
  | closed _ hclosed =>
    obtain ⟨p1, packets, e, hdeed, hnetwork, -⟩ :=
      PacketProcessor.handleDisconnected_deed host (c.Asked (.event loginNow gameNow))
        { c.processor with network := { c.network with events := rest } } hc.rooms event.session
        gameNow
    obtain rfl := Except.ok.inj (e.symm.trans hclosed)
    exact hsends hdeed hnetwork
  | served htype hin hlive hserved =>
    have hasked : c.Asked (.event loginNow gameNow) event :=
      ⟨loginNow, gameNow, _, rfl, hpop, htype, hin, hlive⟩
    obtain ⟨p1, e, hresponds⟩ := PacketProcessor.processPacket_responds
      (p := { c.processor with network := { c.network with events := rest } }) hc.rooms gameNow
    obtain rfl := Except.ok.inj (e.symm.trans hserved)
    cases hresponds with
    | dropped _ hrooms hnetwork =>
      refine hquiet hrooms ?_
      rw [hnetwork]
      exact disconnect_sent
    | handled _ _ hhandled hnetwork => exact hsends (.handled hasked hhandled) hnetwork
    | chatted _ _ hrooms hnetwork hother =>
      refine hsends ?_ hnetwork
      rw [hrooms]
      exact .quiet hother

open Network in
/-- What a step sends, with what each session gets of it. -/
theorem ServerStep.cuts {host : Host} {c c' : Server} {l : Input} (hc : c.Sound)
    (h : ServerStep host c l c') :
    ∃ packets, Deed host (c.Asked l) c.rooms packets c'.rooms ∧
      Cuts c.network packets c'.network := by
  cases l with
  | accept now =>
    cases h
    refine ⟨[], .quiet (by simp), ?_⟩
    show Cuts c.network [] (c.network.accept now)
    exact .still (accept_sent now)
  | receive s packetId body =>
    cases h
    refine ⟨[], .quiet (by simp), ?_⟩
    show Cuts c.network [] (c.network.receive s packetId body)
    exact .still (receive_sent packetId body)
  | close s =>
    cases h
    refine ⟨[], .quiet (by simp), ?_⟩
    show Cuts c.network [] (c.network.disconnect s)
    exact .still disconnect_sent
  | beginUpdate traversal now =>
    obtain ⟨p', hp', rfl⟩ := Server.step_begin h
    obtain ⟨p1, packets, e, hdeed, hnetwork, -⟩ :=
      c.processor.sweepRooms_deed host (c.Asked (.beginUpdate traversal now)) hc.rooms traversal now
    obtain rfl := Except.ok.inj (e.symm.trans hp')
    refine ⟨packets, hdeed, ?_⟩
    show Cuts c.network packets p1.network
    rw [hnetwork]
    exact cuts_deliver host packets _
  | endUpdate first second traversal now =>
    obtain ⟨p', hp', rfl⟩ := Server.step_end h
    obtain ⟨hrooms, hemits⟩ := PacketProcessor.checkLoginTimeouts_twice c.processor first second
    unfold PacketProcessor.endUpdate at hp'
    dsimp only at hp'
    generalize (c.processor.checkLoginTimeouts first.1 first.2).checkLoginTimeouts second.1
      second.2 = p at hrooms hemits hp'
    have hok : p.rooms.Ok := by
      rw [hrooms]
      exact hc.rooms
    obtain ⟨p1, packets, e, hdeed, hnetwork, -⟩ :=
      p.sweepRooms_deed host (c.Asked (.endUpdate first second traversal now)) hok traversal now
    obtain rfl := Except.ok.inj (e.symm.trans hp')
    rw [hrooms] at hdeed
    refine ⟨packets, hdeed, ?_⟩
    show Cuts c.network packets p1.network
    rw [hnetwork]
    exact (cuts_deliver host packets _).after hemits.silent hemits.connected
  | event => exact h.event_cuts hc

/-- The beginning of what is accepted is accepted. -/
theorem hear_prefix {v v' : ClientGameView} {first notices : List Notice} (hfirst : first <+: notices)
    (h : hear v notices = some v') : ∃ v1, hear v first = some v1 := by
  obtain ⟨later, rfl⟩ := hfirst
  obtain ⟨v1, hv1, -⟩ := hear_append_some h
  exact ⟨v1, hv1⟩

/-- All that a session was ever sent is accepted, whatever became of the session. -/
theorem ServerRun.acceptable {host : Host} {timeout : Time} {p : PacketProcessor}
    (hmake : PacketProcessor.make {} timeout = .ok p) {history : List (Entry Server Input)}
    {c : Server} (hrun : ServerRun host p history c) (hready : ReadyInTime history) (s : SessionId) :
    ∃ v, hear {} (hears s c.network.sent) = some v := by
  induction hrun with
  | start =>
    have hnetwork : p.network = {} := (PacketProcessor.make_eq hmake).2
    show ∃ v, hear {} (hears s p.network.sent) = some v
    rw [hnetwork]
    exact ⟨{}, rfl⟩
  | @snoc before c c' l hbefore taken ih =>
    obtain ⟨v, hv⟩ := ih hready.before
    obtain ⟨hshelved, hfollowed⟩ := ServerRun.followed hmake hbefore hready.before
    have hc := ServerRun.sound hmake hbefore
    obtain ⟨packets, hdeed, hcuts⟩ := taken.cuts hc
    obtain ⟨first, e, hfirst, hout⟩ := hcuts s
    have hmore : hears s c'.network.sent =
        hears s c.network.sent ++ heard (first.map SentPacket.packet) := by
      rw [hears, e, List.map_append, heard_append]
      rfl
    rw [hmore, hear_append, hv]
    by_cases hs : s ∈ c.network.connected
    · obtain ⟨v', hv', hup, hawaits⟩ := hfollowed s hs
      obtain rfl := Option.some.inj (hv.symm.trans hv')
      have htimely : ∀ r, c.rooms.Queued r → ¬ c.rooms.Readies (c.Asked l) r :=
        hready ⟨c, l, c'⟩ (List.mem_append_right _ (List.mem_singleton_self _))
      have hacts := hdeed.acts hc.rooms hc.asked_id
        (hshelved.permits hc.rooms (fun _ => htimely)
          (fun r => hshelved.not_starts trivial) s) s
      obtain ⟨v', hall, -⟩ := hacts.accepted hup hawaits
      refine hear_prefix ?_ hall
      obtain ⟨later, hlater⟩ := hfirst
      refine ⟨heard (later.map SentPacket.packet), ?_⟩
      rw [← heard_append, ← List.map_append, hlater]
      rfl
    · rw [hout hs]
      exact ⟨v, rfl⟩

/-! ## The clients -/

theorem watch_append (v : ClientGameView) (a b : List ClientPacket) :
    watch v (a ++ b) = (watch v a).bind fun v' => watch v' b := by
  rw [watch_eq, heard_append, hear_append, watch_eq]
  cases hear v (heard a) with
  | none => rfl
  | some v' => exact (watch_eq b v').symm

/-- A client's view is the one of what it has heard, unless it left for that. -/
structure ClientApp.Viewing (c : ClientApp) : Prop where
  game : c.exit ≠ some .response → watch {} c.heard = some c.game
  refused : c.exit = some .response → watch {} c.heard = none

namespace ClientApp
variable {c c' : ClientApp}

theorem Viewing.same (h : c.Viewing) (hheard : c'.heard = c.heard) (hgame : c'.game = c.game)
    (hexit : c.exit = none) (hleft : c'.exit ≠ some .response) : c'.Viewing where
  game _ := by
    rw [hheard, hgame]
    exact h.game (by rw [hexit]; simp)
  refused he := absurd he hleft

theorem Viewing.step (h : c.Viewing) {l : ClientInput} (hstep : c.step l = some c') : c'.Viewing := by
  unfold ClientApp.step at hstep
  split at hstep
  · cases hstep
  rename_i hrunning
  have hexit : c.exit = none := by simpa using hrunning
  have hwatch := h.game (by rw [hexit]; simp)
  cases l with
  | inputFinished =>
    cases hstep
    exact h.same rfl rfl hexit (by simp [leave])
  | line text =>
    cases text with
    | none =>
      cases hstep
      exact h
    | some text =>
      cases hstep
      have hcommand := c.command_spec text
      generalize c.command text = c' at hcommand ⊢
      cases hcommand with
      | nothing => exact h
      | asked => exact h.same rfl rfl hexit (by simp [hexit])
      | left => exact h.same rfl rfl hexit (by simp [leave])
  | run os =>
    obtain ⟨⟨fault, tcp⟩, hrun, hturn⟩ := Option.map_eq_some_iff.mp hstep
    cases fault with
    | some fault =>
      cases hturn
      exact h.same rfl rfl hexit (by simp [leave])
    | none =>
      have hturn : respond tcp.packets { c with tcp := tcp } = c' := hturn
      rw [← hturn]
      have hrespond := respond_spec tcp.packets { c with tcp := tcp } rfl
      generalize respond tcp.packets { c with tcp := tcp } = c1 at hrespond ⊢
      cases hrespond with
      -- the client goes on as long as `ProcessResponse` accepts what comes
      | all hall =>
        refine ⟨fun _ => ?_, fun he => ?_⟩
        · rw [watch_append, hwatch]
          exact hall
        · have he : c.exit = some .response := he
          rw [hexit] at he
          cases he
      | refused hfirst hnone hheard hasked hleft htcp =>
        refine ⟨fun he => absurd hleft he, fun _ => ?_⟩
        rw [hheard, watch_append, hwatch]
        exact hnone

end ClientApp

namespace World
variable {m : Bytes → Nat} {w : World} {app0 : ServerApp}

/-- A step of a connection is a step of its client. -/
theorem link_client {k k' : Link} {l : ClientInput} (h : k.step l = some k') :
    k.client.step l = some k'.client := by
  unfold Link.step at h
  cases l with
  | line text =>
    obtain ⟨c, hc, rfl⟩ := Option.map_eq_some_iff.mp h
    exact hc
  | inputFinished =>
    obtain ⟨c, hc, rfl⟩ := Option.map_eq_some_iff.mp h
    exact hc
  | run os =>
    dsimp only at h
    split at h
    · obtain ⟨c, hc, rfl⟩ := Option.map_eq_some_iff.mp h
      exact hc
    · cases h

/-- A step of the system is nothing to a client, or it is a step of that client. -/
theorem step_client {w' : World} {l : WorldInput} (h : WorldStep m w l w') (s : SessionId) :
    (w'.links s).client = (w.links s).client ∨
      ∃ l', l = .client s l' ∧ (w.links s).client.step l' = some (w'.links s).client := by
  cases step_cases h with
  | quit => exact .inl rfl
  | polled => exact .inl rfl
  | begun => exact .inl rfl
  | handled => exact .inl rfl
  | ended => exact .inl rfl
  | @client s' l link hlink =>
    dsimp only
    by_cases hs : s = s'
    · subst hs
      rw [Function.update_self]
      exact .inr ⟨l, rfl, link_client hlink⟩
    · rw [Function.update_of_ne hs]
      exact .inl rfl

theorem run_viewing {history : List (Entry World WorldInput)} (hrun : WorldRun m app0 history w)
    (s : SessionId) : (w.links s).client.Viewing := by
  induction hrun with
  | start => exact ⟨fun _ => rfl, fun h => by cases h⟩
  | snoc _ htaken ih =>
    rcases step_client htaken s with hsame | ⟨l', -, hstep⟩
    · rw [hsame]
      exact ih
    · exact ih.step hstep

/-- What the logic has done in a run of the system. -/
def logicHistory (history : List (Entry World WorldInput)) : List (Entry Server Input) :=
  (history.filterMap serverEntry).flatMap ServerApp.retold

/-- Nothing is on the way to the client of `s`, which is connected. -/
structure Quiet (w : World) (s : SessionId) : Prop where
  running : (w.links s).client.exit = none
  connected : s ∈ w.server.network.ids
  wire : (w.links s).down = []
  sent : ∀ client, w.server.network.session s = some client → client.sendBuffer = []

theorem run_logic {config : ServerConfig} {listening : Bool}
    (hinit : ServerApp.init config listening = .ok (some app0))
    {history : List (Entry World WorldInput)} (hrun : WorldRun m app0 history w) :
    ∃ p, PacketProcessor.make {} config.loginTimeout = .ok p ∧
      ServerRun (foreseen m w.server.sent) p (logicHistory history) w.server.seen := by
  obtain ⟨p, hp, -⟩ := ServerApp.init_seen hinit
  obtain ⟨-, hseen⟩ := ServerApp.run_shows hinit hp (run_server hrun)
  exact ⟨p, hp, hseen _ (Foretold.now (w.server.network, w.server.sent))⟩

/-- The view of a client with nothing under way is up to date. -/
theorem Quiet.upToDate {config : ServerConfig} {listening : Bool}
    (hinit : ServerApp.init config listening = .ok (some app0))
    {history : List (Entry World WorldInput)} (hrun : WorldRun m app0 history w) {s : SessionId}
    (h : w.Quiet s) : UpToDate s w.server.logic.rooms (w.links s).client.game := by
  obtain ⟨p, hp, hlogic⟩ := run_logic hinit hrun
  have hheard := (run_carries hinit hrun s).heard.2 h.running h.wire h.sent h.connected
  have hview := (run_viewing hrun s).game (by rw [h.running]; simp)
  rw [hheard, watch_eq] at hview
  exact ServerRun.upToDate hp hlogic s (List.mem_toFinset.mpr h.connected) _ hview

/-- No client leaves because of what the server has sent it. -/
theorem run_not_refused {config : ServerConfig} {listening : Bool}
    (hinit : ServerApp.init config listening = .ok (some app0))
    {history : List (Entry World WorldInput)} (hrun : WorldRun m app0 history w)
    (hready : ReadyInTime (logicHistory history)) (s : SessionId) :
    (w.links s).client.exit ≠ some .response := by
  intro hexit
  obtain ⟨p, hp, hlogic⟩ := run_logic hinit hrun
  obtain ⟨v, hv⟩ := ServerRun.acceptable hp hlogic hready s
  obtain ⟨⟨later, hfirst⟩, -⟩ := (run_carries hinit hrun s).heard
  have hnone := (run_viewing hrun s).refused hexit
  have hfirst : heard (w.links s).client.heard <+: hears s w.server.sent := by
    refine ⟨heard later, ?_⟩
    rw [← heard_append, hfirst]
    rfl
  obtain ⟨v', hv'⟩ := hear_prefix hfirst hv
  rw [watch_eq, hv'] at hnone
  cases hnone

end World

open World

/-- In every run of the system: a client that runs and is connected, with nothing under way to it, shows
its player the game of the room, so that two such players of one game have the same view of it; and if no
`ROOM_READY_REQ` is taken in a room with a result still queued, no client ever leaves because of what
the server has sent it. -/
theorem players_shown {config : ServerConfig} {listening : Bool} {app0 : ServerApp}
    {m : Bytes → Nat} {history : List (Entry World WorldInput)} {w : World}
    (hinit : ServerApp.init config listening = .ok (some app0)) (hrun : WorldRun m app0 history w) :
    (∀ s r room, w.Quiet s → w.server.logic.rooms.On r room → s ∈ room.members →
      Mirrors (w.links s).client.game room) ∧
    (∀ s s' r room, w.Quiet s → w.Quiet s' → w.server.logic.rooms.On r room → s ∈ room.members →
      s' ∈ room.members → (w.links s).client.game = (w.links s').client.game) ∧
    (ReadyInTime (logicHistory history) → ∀ s, (w.links s).client.exit ≠ some .response) := by
  have hshown : ∀ s r room, w.Quiet s → w.server.logic.rooms.On r room → s ∈ room.members →
      Mirrors (w.links s).client.game room :=
    fun s r room hquiet hon hs => (hquiet.upToDate hinit hrun).mirrors r room hon hs
  refine ⟨hshown, fun s s' r room hquiet hquiet' hon hs hs' => ?_, fun hready s hexit => ?_⟩
  · obtain ⟨hroom, hgame, hplaying, hstate, hturn, hcount, hcells⟩ := hshown s r room hquiet hon hs
    obtain ⟨hroom', hgame', hplaying', hstate', hturn', hcount', hcells'⟩ :=
      hshown s' r room hquiet' hon hs'
    have hmoves := UInt32.toNat_inj.mp (hcount.trans hcount'.symm)
    generalize (w.links s).client.game = v at *
    generalize (w.links s').client.game = v' at *
    cases v
    cases v'
    simp_all
  · exact run_not_refused hinit hrun hready s hexit

/-! ## A game -/

/-- All of what is on the way. -/
def Received.whole (wire : Bytes) : Received :=
  match chunk? wire wire.length with
  | some chunk => .data chunk
  | none => .wouldBlock

namespace World

/-- The inputs that are chosen one after the other, each in the state that is reached. -/
def script (m : Bytes → Nat) (w : World) : List (World → WorldInput) → List WorldInput
  | [] => []
  | choose :: choices =>
    choose w :: match w.step m (choose w) with
      | some w' => w'.script m choices
      | none => []

/-- A run from the start of the server by `choices`, which ends as `check` says. -/
theorem scripted (choices : List (World → WorldInput))
    (check : List (Entry World WorldInput) → World → Bool)
    (h : ∃ app0, ServerApp.init {} true = .ok (some app0) ∧
      (play (step fun b => b.length) { server := app0 }
        (script (fun b => b.length) { server := app0 } choices)).any
          (fun r => check r.1 r.2) = true) :
    ∃ app0 history w, ServerApp.init {} true = .ok (some app0) ∧
      WorldRun (fun b => b.length) app0 history w ∧ check history w = true := by
  obtain ⟨app0, hinit, hplayed⟩ := h
  have hrun : ∃ history w, WorldRun (fun b => b.length) app0 history w ∧ check history w = true :=
    Run.played (fun _ _ _ htaken => htaken) hplayed
  obtain ⟨history, w, hrun, hcheck⟩ := hrun
  exact ⟨app0, history, w, hinit, hrun, hcheck⟩

/-- The server reads and sends all it can, and accepts `connections`. -/
def serverTurn (connections : Nat) (w : World) : WorldInput :=
  .server (.poll none
    { select := some (fun _ => true, fun _ => true)
      recv := fun s => .whole (w.links s).up
      send := fun s => .bytes (((w.server.network.session s).map (·.sendBuffer)).getD []).length
      accept := fun n => if n < connections then .connection true 0 else .wouldBlock })

/-- The client reads and sends all it can. -/
def clientTurn (s : SessionId) (w : World) : WorldInput :=
  .client s (.run
    { select := some (true, true)
      recv := .whole (w.links s).down
      send := .bytes (w.links s).client.tcp.sendBuffer.length })

/-- One `Update` with `events` events. -/
def serverUpdate (events : Nat) : List (World → WorldInput) :=
  (fun _ => .server (.beginUpdate .ascending 0)) ::
    List.replicate events (fun _ => .server (.event 0 0)) ++
      [fun _ => .server (.endUpdate (.ascending, 0) (.ascending, 0) .ascending 0)]

/-- The player of `s` types a line, and all that follows from it is carried to both players. -/
def typed (s : SessionId) (line : List Char) : List (World → WorldInput) :=
  [fun _ => .client s (.line (some (SelectServer.ascii line))), clientTurn s, serverTurn 0] ++
    serverUpdate 1 ++ [serverTurn 0] ++ serverUpdate 0 ++ [clientTurn 1, clientTurn 2]

/-- Two players meet, and the first stone is placed. -/
def firstStone : List (World → WorldInput) :=
  [serverTurn 2] ++ serverUpdate 2 ++
    typed 1 ['l', 'o', 'g', 'i', 'n', ' ', 'a'] ++ typed 2 ['l', 'o', 'g', 'i', 'n', ' ', 'b'] ++
    typed 1 ['c', 'r', 'e', 'a', 't', 'e', ' ', 'r'] ++ typed 2 ['e', 'n', 't', 'e', 'r', ' ', '1'] ++
    typed 2 ['r', 'e', 'a', 'd', 'y', ' ', 'o', 'n'] ++ typed 1 ['s', 't', 'a', 'r', 't'] ++
    typed 1 ['m', 'o', 'v', 'e', ' ', '7', ' ', '7']

/-- `Quiet`, computed. -/
def isQuiet (w : World) (s : SessionId) : Bool :=
  decide ((w.links s).client.exit = none ∧ (w.links s).down = [] ∧ s ∈ w.server.network.ids) &&
    (w.server.network.session s).all fun client => client.sendBuffer.isEmpty

theorem isQuiet_quiet {w : World} {s : SessionId} (h : w.isQuiet s = true) : w.Quiet s := by
  simp only [isQuiet, Bool.and_eq_true, decide_eq_true_eq, Option.all_eq_true,
    List.isEmpty_iff] at h
  obtain ⟨⟨hrunning, hwire, hin⟩, hsent⟩ := h
  exact ⟨hrunning, hin, hwire, hsent⟩

/-- Both players are up to date in a game with one stone. -/
def stonePlaced (history : List (Entry World WorldInput)) (w : World) : Bool :=
  (logicHistory history).all undisturbing && w.isQuiet 1 && w.isQuiet 2 &&
    (w.server.logic.rooms.rooms[(1 : RoomId)]?).any fun room =>
      decide (room.phase = .playing ∧ room.game.moveCount = 1 ∧ 1 ∈ room.members ∧ 2 ∈ room.members)

end World

theorem players_shown_stone : ∃ app0 history w room, ServerApp.init {} true = .ok (some app0) ∧
    WorldRun (fun b => b.length) app0 history w ∧ ReadyInTime (logicHistory history) ∧
      room.game.moveCount = 1 ∧ Mirrors (w.links 1).client.game room ∧
        (w.links 1).client.game = (w.links 2).client.game ∧
          (w.links 1).client.exit ≠ some .response := by
  obtain ⟨app0, history, w, hinit, hrun, hcheck⟩ :=
    scripted firstStone stonePlaced ⟨_, rfl, by decide +kernel⟩
  simp only [stonePlaced, Bool.and_eq_true, Option.any_eq_true, decide_eq_true_eq,
    List.all_eq_true] at hcheck
  obtain ⟨⟨⟨hall, h1⟩, h2⟩, room, hroom, hphase, hmoves, hin1, hin2⟩ := hcheck
  have hready : ReadyInTime (logicHistory history) := by
    rintro e he r hq ⟨event, ready, u, room, hasked, -⟩
    exact undisturbing_asked (hall e he) hq event hasked
  obtain ⟨hmirrors, hsame, hstays⟩ := players_shown hinit hrun
  exact ⟨app0, history, w, room, hinit, hrun, hready, hmoves,
    hmirrors 1 1 room (isQuiet_quiet h1) ⟨hroom, hphase⟩ hin1,
    hsame 1 2 1 room (isQuiet_quiet h1) (isQuiet_quiet h2) ⟨hroom, hphase⟩ hin1 hin2,
    hstays hready 1⟩

end SelectServer
