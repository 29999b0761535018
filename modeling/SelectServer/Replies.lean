import SelectServer.Server

/- The reply to a request. Whatever else a handler sends are notifications, whose
   ids answer no request, so the packets with the response id that reach the
   requester are the replies. A request is answered once unless it is a chat
   message that is accepted: `HandleChat` sends its result twice. -/
namespace SelectServer
open Wire (Bytes)
open Histories

/-- The packets that a step has sent to `s`. -/
def sentTo (s : SessionId) (c c' : Server) : List SentPacket :=
  toSession s (c'.network.sent.drop c.network.sent.length)

/-- How many packets with the id `rid` a step has sent to `s`. -/
def replyCount (s : SessionId) (rid : UInt16) (c c' : Server) : Nat :=
  (sentTo s c c').countP (·.packetId = rid)

/-- A step answers `s` exactly once, or sends it nothing and disconnects it. -/
def Answered (s : SessionId) (rid : UInt16) (c c' : Server) : Prop :=
  replyCount s rid c c' = 1 ∨ (sentTo s c c' = [] ∧ s ∉ c'.network.connected)

/-! ## Notifications -/

theorem responseId?_response (packetId : UInt16) :
    ∀ rid, responseId? packetId = some rid → rid ∉ notificationIds := by
  -- one row of the table
  have hrow : ∀ {p : Prop} [Decidable p] {a : UInt16} {o : Option UInt16}, a ∉ notificationIds →
      (∀ rid, o = some rid → rid ∉ notificationIds) →
        ∀ rid, (if p then some a else o) = some rid → rid ∉ notificationIds := by
    intro p _ a o ha ho rid h
    by_cases hp : p
    · rw [if_pos hp] at h
      exact Option.some.inj h ▸ ha
    · rw [if_neg hp] at h
      exact ho rid h
  unfold responseId?
  repeat (refine hrow (by decide) ?_)
  intro rid h
  cases h

theorem notifies_moveOuts (m : RoomManager) (move : AcceptedMove) : Notifies (moveOuts m move) := by
  unfold moveOuts
  split
  · simp [Notifies]
  split
  · simp [Notifies]
  · exact notifies_toAll _ _ (by decide)

/-! ## The reply among them -/

/-- A handler sends one reply, between notifications. -/
theorem Handled.reply {host : Host} {m m' : RoomManager} {event : NetworkEvent} {rid : UInt16}
    {packets : List SentPacket} (h : Handled host m event rid packets m') :
    ∃ before body after, packets = before ++ ⟨event.session, rid, body⟩ :: after ∧
      Notifies before ∧ Notifies after := by
  have hnone : Notifies [] := by simp [Notifies]
  have hroom : ∀ m r change nickname, Notifies (memberOuts m r change nickname ++ stateOuts m r) :=
    fun m r change nickname =>
      (notifies_memberOuts m r change nickname).append (notifies_stateOuts m r)
  cases h with
  | idle => exact ⟨[], _, [], rfl, hnone, hnone⟩
  | answered => exact ⟨[], _, [], rfl, hnone, hnone⟩
  | created => exact ⟨[], _, _, rfl, hnone, hroom _ _ _ _⟩
  | entered => exact ⟨[], _, _, rfl, hnone, hroom _ _ _ _⟩
  | readied => exact ⟨[], _, _, rfl, hnone, notifies_stateOuts _ _⟩
  | started => exact ⟨[], _, _, rfl, hnone, notifies_stateOuts _ _⟩
  | moved => exact ⟨[], _, _, rfl, hnone, notifies_moveOuts _ _⟩
  | left => exact ⟨_, _, _, rfl, notifies_flushOuts _, hroom _ _ _ _⟩
  | stayed => exact ⟨_, _, [], rfl, notifies_flushOuts _, hnone⟩

/-- Notifications hold no reply. -/
theorem Notifies.replies {packets : List SentPacket} (h : Notifies packets) {rid : UInt16}
    (hrid : rid ∉ notificationIds) (s : SessionId) :
    (toSession s packets).countP (·.packetId = rid) = 0 := by
  rw [List.countP_eq_zero]
  intro packet hpacket
  have hid := h packet (List.mem_filter.mp hpacket).1
  simp only [decide_eq_true_eq]
  rintro rfl
  exact hrid hid

theorem toSession_cons_self (s : SessionId) (rid : UInt16) (body : Bytes) (rest : List SentPacket) :
    toSession s (⟨s, rid, body⟩ :: rest) = ⟨s, rid, body⟩ :: toSession s rest := by
  simp [toSession]

theorem Handled.reply_once {host : Host} {m m' : RoomManager} {event : NetworkEvent} {rid : UInt16}
    {packets : List SentPacket} (h : Handled host m event rid packets m')
    (hrid : rid ∉ notificationIds) :
    (toSession event.session packets).countP (·.packetId = rid) = 1 := by
  obtain ⟨before, body, after, rfl, hbefore, hafter⟩ := h.reply
  rw [toSession_append, toSession_cons_self, List.countP_append, List.countP_cons,
    hbefore.replies hrid, hafter.replies hrid]
  simp

/-! ## Steps -/

theorem Network.deliver_sent (host : Host) (n : Network) (packets : List SentPacket) (s : SessionId)
    (h : s ∈ (n.deliver host packets).connected) :
    toSession s ((n.deliver host packets).sent.drop n.sent.length) = toSession s packets := by
  have hemits := emits_deliver host packets n
  obtain ⟨new, e, -⟩ := hemits.sent
  have hcomplete := hemits.complete s h
  rw [e, toSession_append] at hcomplete
  rw [e, List.drop_left]
  exact List.append_cancel_left hcomplete

/-- The step that handles a packet of a connected session in time. -/
theorem Server.Sound.packet_step {host : Host} {c : Server} (hc : c.Sound) {e : NetworkEvent}
    {network : Network} (hpop : c.network.tryPopEvent = some (e, network))
    (hpacket : e.type = .packet) (hs : e.session ∈ c.network.connected) {loginNow gameNow : Time}
    (hlogin : c.processor.isLoginExpired e.session loginNow = false)
    {r : Except LogicError Server} (hstep : c.step host (.event loginNow gameNow) = some r) :
    ∃ p', r = .ok ⟨p', true⟩ ∧ Responds host (c.withNetwork network).processor e p' ∧
      network.connected = c.network.connected ∧ network.sent = c.network.sent := by
  have hnetwork : network.connected = c.network.connected ∧ network.sent = c.network.sent := by
    unfold Network.tryPopEvent at hpop
    split at hpop
    · cases hpop
    · cases hpop
      exact ⟨rfl, rfl⟩
  have hconnected : (c.withNetwork network).processor.network.isConnected e.session = true := by
    simp [Server.withNetwork, Network.isConnected, hnetwork.1, hs]
  have hlogin' : (c.withNetwork network).processor.isLoginExpired e.session loginNow = false :=
    hlogin
  simp only [Server.step] at hstep
  split at hstep
  · cases hstep
  obtain ⟨p', e', hresponds⟩ : ∃ p',
      PacketProcessor.processPacket host (c.withNetwork network).processor e gameNow = .ok p' ∧
        Responds host (c.withNetwork network).processor e p' :=
    PacketProcessor.processPacket_responds (p := (c.withNetwork network).processor) hc.rooms gameNow
  simp only [hpop, PacketProcessor.handleEvent, hpacket, hconnected, hlogin', e'] at hstep
  exact ⟨p', (Option.some.inj hstep).symm, hresponds, hnetwork⟩

/-- In every reachable state, a request of a session that is connected, logged in on time and
takes its packets is answered once, or disconnects the session with no answer, exactly if it is
not a chat message that is accepted. -/
theorem answered_iff {host : Host} {timeout : Time} {p : PacketProcessor}
    {history : List (Entry Server Input)} {c : Server} {e : NetworkEvent} {network : Network}
    {loginNow gameNow : Time} {rid : UInt16} {r : Except LogicError Server}
    (hmake : PacketProcessor.make {} timeout = .ok p) (hrun : ServerRun host p history c)
    (hpop : c.network.tryPopEvent = some (e, network)) (hpacket : e.type = .packet)
    (hs : e.session ∈ c.network.connected)
    (hlogin : c.processor.isLoginExpired e.session loginNow = false)
    (hrid : responseId? e.packetId = some rid) (hserves : host.Serves e.session)
    (hstep : c.step host (.event loginNow gameNow) = some r) :
    ∃ c', r = .ok c' ∧ (Answered e.session rid c c' ↔
      ¬ (e.packetId = chatReq ∧ ChatAccepted host c.rooms e)) := by
  obtain ⟨p', rfl, hresponds, hconnected, hsent⟩ :=
    (hrun.sound hmake).packet_step hpop hpacket hs hlogin hstep
  refine ⟨_, rfl, ?_⟩
  have hs' : e.session ∈ (c.withNetwork network).processor.network.connected := by
    show e.session ∈ network.connected
    rw [hconnected]
    exact hs
  -- what a row of sends delivers to the requester, who stays connected
  have hdeliver : ∀ packets,
      p'.network = (c.withNetwork network).processor.network.deliver host packets →
        e.session ∈ p'.network.connected ∧
          sentTo e.session c ⟨p', true⟩ = toSession e.session packets := by
    intro packets hnetwork
    have hstay := Network.served_deliver hserves packets hs'
    refine ⟨hnetwork ▸ hstay, ?_⟩
    show toSession e.session (p'.network.sent.drop c.network.sent.length) = _
    rw [hnetwork, ← hsent]
    exact Network.deliver_sent host network packets e.session hstay
  cases hresponds with
  | dropped hchat _ hnetwork =>
    refine iff_of_true (Or.inr ⟨?_, ?_⟩) fun h => hchat h.1 h.2
    · show toSession e.session (p'.network.sent.drop c.network.sent.length) = []
      rw [hnetwork, Network.disconnect_sent, ← hsent]
      simp [Server.withNetwork, toSession]
    · show e.session ∉ p'.network.connected
      rw [hnetwork, Network.disconnect_connected]
      simp
  | handled hrid' hchat h hnetwork =>
    obtain rfl := Option.some.inj (hrid.symm.trans hrid')
    refine iff_of_true (Or.inl ?_) fun h => hchat h.1 h.2
    rw [replyCount, (hdeliver _ hnetwork).2]
    exact h.reply_once (responseId?_response _ _ hrid)
  | chatted hid hchat _ hnetwork _ hreplies =>
    obtain ⟨hstay, hto⟩ := hdeliver _ hnetwork
    refine iff_of_false ?_ fun h => h ⟨hid, hchat⟩
    obtain ⟨targets, body, rfl⟩ := hreplies hserves hs'
    have hres : rid = chatRes := by
      rw [hid] at hrid
      exact (Option.some.inj hrid).symm
    rintro (hone | ⟨-, hgone⟩)
    · rw [replyCount, hto, toSession_cons_self, toSession_cons_self, hres, List.countP_cons,
        List.countP_cons, (notifies_toAll targets body (by decide)).replies (by decide)] at hone
      simp at hone
    · exact hgone hstay

/-! ## Two requests -/

instance (s : SessionId) (rid : UInt16) (c c' : Server) : Decidable (Answered s rid c c') :=
  inferInstanceAs (Decidable (_ ∨ _))

/-- The next event of `c` is this request, of a session that is connected and logged in in time. -/
def Server.Asks (c : Server) (s : SessionId) (packetId : UInt16) (body : Bytes) : Prop :=
  c.network.events = [{ session := s, packetId := packetId, body := body }] ∧
    s ∈ c.network.connected ∧ c.processor.isLoginExpired s 0 = false

instance (c : Server) (s : SessionId) (packetId : UInt16) (body : Bytes) :
    Decidable (c.Asks s packetId body) :=
  inferInstanceAs (Decidable (_ ∧ _))

theorem Server.Asks.pop {c : Server} {s : SessionId} {packetId : UInt16} {body : Bytes}
    (h : c.Asks s packetId body) :
    c.network.tryPopEvent = some ({ session := s, packetId := packetId, body := body },
      { c.network with events := [] }) := by
  rw [Network.tryPopEvent, h.1]

theorem answered_iff_login : ∃ history c c',
    ServerRun Host.ascii PacketProcessor.fresh history c ∧ c.Asks 1 loginReq [97] ∧
      c.step Host.ascii (.event 0 0) = some (.ok c') ∧ Answered 1 loginRes c c' := by
  obtain ⟨history, c, hrun, hcheck⟩ := ServerRun.played Host.ascii PacketProcessor.fresh
    [.accept 0, .beginUpdate .ascending 0, .event 0 0, .receive 1 loginReq [97]]
    (fun _ c => decide (c.Asks 1 loginReq [97]) && (c.next Host.ascii (.event 0 0)).isSome)
    (by decide +kernel)
  rw [Bool.and_eq_true, decide_eq_true_eq] at hcheck
  obtain ⟨hasks, hnext⟩ := hcheck
  obtain ⟨c', hc'⟩ := Option.isSome_iff_exists.mp hnext
  have hstep := Server.step_of_next hc'
  obtain ⟨c1, e, hiff⟩ := answered_iff PacketProcessor.make_fresh hrun hasks.pop rfl hasks.2.1
    hasks.2.2 rfl (fun _ _ _ => rfl) hstep
  obtain rfl := Except.ok.inj e
  have hlogin : ¬ (loginReq = chatReq ∧ ChatAccepted Host.ascii c.rooms
      { session := 1, packetId := loginReq, body := [97] }) := fun h => absurd h.1 (by decide)
  exact ⟨history, c, c', hrun, hasks, hstep, hiff.mpr hlogin⟩

/-- A chat message in a room is answered twice. -/
theorem chat_answered_twice : ∃ history c c',
    ServerRun Host.ascii PacketProcessor.fresh history c ∧ c.Asks 1 chatReq [104, 105] ∧
      Host.ascii.Serves 1 ∧ c.step Host.ascii (.event 0 0) = some (.ok c') ∧
        replyCount 1 chatRes c c' = 2 ∧ ¬ Answered 1 chatRes c c' := by
  obtain ⟨history, c, hrun, hcheck⟩ := ServerRun.played Host.ascii PacketProcessor.fresh
    (pairedInputs ++ [.receive 1 chatReq [104, 105]])
    (fun _ c => decide (c.Asks 1 chatReq [104, 105]) && (c.next Host.ascii (.event 0 0)).any
      fun c' => decide (replyCount 1 chatRes c c' = 2 ∧ ¬ Answered 1 chatRes c c'))
    (by decide +kernel)
  rw [Bool.and_eq_true, decide_eq_true_eq] at hcheck
  obtain ⟨hasks, hnext⟩ := hcheck
  obtain ⟨c', hc', htwice⟩ := (Option.any_eq_true _ _).mp hnext
  rw [decide_eq_true_eq] at htwice
  exact ⟨history, c, c', hrun, hasks, fun _ _ _ => rfl, Server.step_of_next hc', htwice⟩

end SelectServer
