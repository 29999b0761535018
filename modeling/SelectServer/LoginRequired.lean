import SelectServer.Server

/- A session that is not logged in. No handler checks this for all of them: each
   looks the session up on its own, or leaves it to the operation it calls, and each
   stops there. So whatever such a session sends but a login, it gets one reply or
   is disconnected, and nothing else changes (`login_required`). -/
namespace SelectServer
open Wire (Bytes)

/-! ## The operations -/

namespace RoomManager
variable {m : RoomManager} {s : SessionId}

/-- Nobody is logged in on this session. -/
def Stranger (m : RoomManager) (s : SessionId) : Prop := m.users.find s = none

theorem Stranger.createRoom (h : m.Stranger s) (wideChars : Bytes → Nat) (title : Bytes) :
    RoomManager.createRoom wideChars m s title = .ok (.userNotFound, invalidRoomId, m) := by
  rw [RoomManager.createRoom, h]

theorem Stranger.enterRoom (h : m.Stranger s) (roomId : RoomId) :
    m.enterRoom s roomId = (.userNotFound, m) := by
  rw [RoomManager.enterRoom, h]

theorem Stranger.roomOf (h : m.Stranger s) : m.roomOf s = .error .userNotFound := by
  rw [RoomManager.roomOf, h]

theorem Stranger.setReady (h : m.Stranger s) (ready : Bool) :
    m.setReady s ready = (.userNotFound, m) := by
  rw [RoomManager.setReady, h.roomOf]

theorem Stranger.startGame (h : m.Stranger s) (now : Time) :
    m.startGame s now = (.userNotFound, m) := by
  rw [RoomManager.startGame, h.roomOf]

theorem Stranger.gameRoomOf (h : m.Stranger s) (r : RoomId) (g : GameId) :
    m.gameRoomOf s r g = .error .notLoggedIn := by
  rw [RoomManager.gameRoomOf, h]

theorem Stranger.placeStone (h : m.Stranger s) (r : RoomId) (g : GameId) (x y : Int)
    (out : AcceptedMove) (now : Time) :
    m.placeStone s r g x y out now = .ok (.notLoggedIn, out, m) := by
  rw [RoomManager.placeStone, h.gameRoomOf]

theorem Stranger.resign (h : m.Stranger s) (r : RoomId) (g : GameId) (now : Time) :
    m.resign s r g now = .ok (.notLoggedIn, m) := by
  rw [RoomManager.resign, h.gameRoomOf]

end RoomManager

/-! ## The handlers -/

/-- One reply to the session, or its disconnect. -/
inductive Rebuffed (host : Host) (p : PacketProcessor) (s : SessionId) : PacketProcessor → Prop
  | answered (rid : UInt16) (body : Bytes) : Rebuffed host p s (p.deliver host [⟨s, rid, body⟩])
  | dropped : Rebuffed host p s (p.disconnect s)

namespace PacketProcessor
variable {host : Host} {p : PacketProcessor} {event : NetworkEvent}

/-- A handler that returns an answer of the session. -/
def Rebuffs (host : Host) (p : PacketProcessor) (s : SessionId)
    (r : Except LogicError PacketProcessor) : Prop :=
  ∃ p', r = .ok p' ∧ Rebuffed host p s p'

theorem handleEcho_rebuffs : Rebuffed host p event.session (handleEcho host p event) := by
  rw [handleEcho, sendOrDisconnect_eq]
  exact .answered _ _

theorem handleChat_rebuffs (h : p.rooms.Stranger event.session) :
    Rebuffed host p event.session (handleChat host p event) := by
  rw [handleChat, h]
  dsimp only
  rw [sendChatResult, sendOrDisconnect_eq]
  exact .answered _ _

theorem handleRoomCreate_rebuffs (h : p.rooms.Stranger event.session) :
    Rebuffs host p event.session (handleRoomCreate host p event) := by
  unfold handleRoomCreate
  split
  · exact ⟨_, rfl, .dropped⟩
  · rw [h.createRoom]
    obtain ⟨body, hwelcome, -⟩ := welcome_refused host p event.session roomCreateRes invalidRoomId
      (by decide) (by decide : RoomResult.userNotFound ≠ .success)
    refine ⟨_, rfl, ?_⟩
    show Rebuffed host p event.session (welcome host p _ _ _ _)
    rw [hwelcome]
    exact .answered _ _

theorem handleRoomList_rebuffs :
    Rebuffed host p event.session (handleRoomList host p event) := by
  unfold handleRoomList
  split
  · exact .dropped
  dsimp only
  split
  · exact .dropped
  · rw [sendOrDisconnect_eq]
    exact .answered _ _

theorem handleRoomEnter_rebuffs (h : p.rooms.Stranger event.session) :
    Rebuffed host p event.session (handleRoomEnter host p event) := by
  unfold handleRoomEnter
  split
  · exact .dropped
  · rename_i request _
    rw [h.enterRoom]
    obtain ⟨body, hwelcome, -⟩ := welcome_refused host p event.session roomEnterRes request.roomId
      (by decide) (by decide : RoomResult.userNotFound ≠ .success)
    show Rebuffed host p event.session (welcome host p _ _ _ _)
    rw [hwelcome]
    exact .answered _ _

theorem handleRoomLeave_rebuffs (h : p.rooms.Stranger event.session) (now : Time) :
    Rebuffs host p event.session (handleRoomLeave host p event now) := by
  unfold handleRoomLeave
  split
  · exact ⟨_, rfl, .dropped⟩
  · -- the handler's own look-up, before any result is announced
    rw [h]
    obtain ⟨body, hsend, -⟩ := sendRoomActionResult_eq host p event.session roomLeaveRes
      .userNotFound invalidRoomId (by decide) (by intro e; cases e)
    refine ⟨_, rfl, ?_⟩
    rw [hsend]
    exact .answered _ _

theorem handleRoomReady_rebuffs (h : p.rooms.Stranger event.session) :
    Rebuffed host p event.session (handleRoomReady host p event) := by
  unfold handleRoomReady
  split
  · exact .dropped
  · rw [h.setReady]
    obtain ⟨body, hanswer, -⟩ := answerInRoom_refused host p event.session roomReadyRes (by decide)
      (by decide : RoomResult.userNotFound ≠ .success)
    show Rebuffed host p event.session (answerInRoom host p _ _ _)
    rw [hanswer]
    exact .answered _ _

theorem handleRoomStart_rebuffs (h : p.rooms.Stranger event.session) (now : Time) :
    Rebuffed host p event.session (handleRoomStart host p event now) := by
  unfold handleRoomStart
  split
  · exact .dropped
  · rw [h.startGame]
    obtain ⟨body, hanswer, -⟩ := answerInRoom_refused host p event.session roomStartRes (by decide)
      (by decide : RoomResult.userNotFound ≠ .success)
    show Rebuffed host p event.session (answerInRoom host p _ _ _)
    rw [hanswer]
    exact .answered _ _

theorem handleGameMove_rebuffs (h : p.rooms.Stranger event.session) (now : Time) :
    Rebuffs host p event.session (handleGameMove host p event now) := by
  unfold handleGameMove
  split
  · exact ⟨_, rfl, .dropped⟩
  · rename_i request _
    rw [h.placeStone]
    obtain ⟨body, hsend, -⟩ := sendGameMoveResult_eq host p event.session .notLoggedIn request.game
    refine ⟨_, rfl, ?_⟩
    show Rebuffed host p event.session (p.sendGameMoveResult host _ _ _).2
    rw [hsend]
    exact .answered _ _

theorem handleGameResign_rebuffs (h : p.rooms.Stranger event.session) (now : Time) :
    Rebuffs host p event.session (handleGameResign host p event now) := by
  cases hdecode : GameResignRequest.decode event.body with
  | error =>
    unfold handleGameResign
    rw [hdecode]
    exact ⟨_, rfl, .dropped⟩
  | ok request =>
    obtain ⟨body, hbody⟩ := GameMoveResponse.encode_some
      { result := .notLoggedIn, game := request.game }
    refine ⟨p.deliver host [⟨event.session, gameResignRes, body⟩], ?_, .answered _ _⟩
    rw [← sendOrDisconnect_eq]
    unfold handleGameResign
    rw [hdecode]
    simp only [h.resign, bind, Except.bind, hbody]
    rfl

theorem processPacket_rebuffs (h : p.rooms.Stranger event.session) (hid : event.packetId ≠ loginReq)
    (now : Time) : Rebuffs host p event.session (processPacket host p event now) := by
  have hdispatches := processPacket_dispatches host p event now
  generalize processPacket host p event now = r at hdispatches ⊢
  cases hdispatches with
  | login hlogin => exact absurd hlogin hid
  | echo => exact ⟨_, rfl, handleEcho_rebuffs⟩
  | chat => exact ⟨_, rfl, handleChat_rebuffs h⟩
  | roomCreate => exact handleRoomCreate_rebuffs h
  | roomList => exact ⟨_, rfl, handleRoomList_rebuffs⟩
  | roomEnter => exact ⟨_, rfl, handleRoomEnter_rebuffs h⟩
  | roomLeave => exact handleRoomLeave_rebuffs h now
  | roomReady => exact ⟨_, rfl, handleRoomReady_rebuffs h⟩
  | roomStart => exact ⟨_, rfl, handleRoomStart_rebuffs h now⟩
  | gameMove => exact handleGameMove_rebuffs h now
  | gameResign => exact handleGameResign_rebuffs h now
  | unknown => exact ⟨_, rfl, .dropped⟩

end PacketProcessor

/-! ## What becomes of the request -/

/-- The sender has one more packet, or is not connected; users, rooms, counters and results are as
they were, and so is every other session. -/
structure TurnedAway (p : PacketProcessor) (s : SessionId) (p' : PacketProcessor) : Prop where
  rooms : p'.rooms = p.rooms
  outcome : (∃ rid body, p'.network.sent = p.network.sent ++ [⟨s, rid, body⟩] ∧
      p'.network.connected = p.network.connected) ∨
    (p'.network.sent = p.network.sent ∧ s ∉ p'.network.connected)
  others : ∀ t : SessionId, t ≠ s → (t ∈ p'.network.connected ↔ t ∈ p.network.connected) ∧
    p'.loginDeadlines[t]? = p.loginDeadlines[t]?

namespace PacketProcessor
variable {host : Host} {p : PacketProcessor} {event : NetworkEvent} {s : SessionId}

/-- A session that is disconnected, whose login need not be waited for any more or still is. -/
theorem turnedAway_gone {deadlines : Map SessionId Time}
    (hdeadlines : ∀ t : SessionId, t ≠ s → deadlines[t]? = p.loginDeadlines[t]?) :
    TurnedAway p s ({ p with loginDeadlines := deadlines }.disconnect s) where
  rooms := rfl
  outcome := by
    right
    show (p.network.disconnect s).sent = p.network.sent ∧ s ∉ (p.network.disconnect s).connected
    rw [Network.disconnect_sent, Network.disconnect_connected]
    exact ⟨rfl, Finset.notMem_erase s _⟩
  others t ht := by
    refine ⟨?_, hdeadlines t ht⟩
    show t ∈ (p.network.disconnect s).connected ↔ t ∈ p.network.connected
    rw [Network.disconnect_connected, Finset.mem_erase]
    exact and_iff_right ht

theorem turnedAway_of_rebuffed {p' : PacketProcessor} (h : Rebuffed host p s p') :
    TurnedAway p s p' := by
  cases h with
  | dropped => exact turnedAway_gone fun _ _ => rfl
  | answered rid body =>
    have hpost := Network.post_cases host p.network ⟨s, rid, body⟩
    have hnetwork : (p.deliver host [⟨s, rid, body⟩]).network = p.network.post host ⟨s, rid, body⟩ :=
      rfl
    generalize p.network.post host ⟨s, rid, body⟩ = n at hpost hnetwork
    cases hpost with
    | skipped hs =>
      refine ⟨rfl, Or.inr ?_, fun t _ => ⟨by rw [hnetwork], rfl⟩⟩
      rw [hnetwork]
      exact ⟨rfl, hs⟩
    | taken =>
      refine ⟨rfl, Or.inl ⟨rid, body, ?_⟩, fun t _ => ⟨by rw [hnetwork], rfl⟩⟩
      rw [hnetwork]
      exact ⟨rfl, rfl⟩
    | refused =>
      have hgone : TurnedAway p s (p.disconnect s) := turnedAway_gone fun _ _ => rfl
      refine ⟨rfl, ?_, fun t ht => ⟨?_, rfl⟩⟩
      · rw [hnetwork]
        exact hgone.outcome
      · rw [hnetwork]
        exact (hgone.others t ht).1

/-- A packet of a session that is not logged in, unless it is a login, is answered with one packet to
its sender or costs it its connection, and changes nothing else. -/
theorem login_required {host : Host} {p : PacketProcessor} {event : NetworkEvent}
    (htype : event.type = .packet) (hid : event.packetId ≠ loginReq)
    (hstranger : p.rooms.Stranger event.session) (loginNow gameNow : Time) :
    ∃ p', p.handleEvent host event loginNow gameNow = .ok p' ∧ TurnedAway p event.session p' := by
  unfold handleEvent
  rw [htype]
  dsimp only
  split
  · -- the session has gone since it sent the packet
    rename_i hgone
    refine ⟨p, rfl, rfl, Or.inr ⟨rfl, ?_⟩, fun _ _ => ⟨Iff.rfl, rfl⟩⟩
    simpa [Network.isConnected] using hgone
  split
  · refine ⟨_, rfl, turnedAway_gone fun t ht => ?_⟩
    grind
  · obtain ⟨p', e, h⟩ := processPacket_rebuffs hstranger hid gameNow
    exact ⟨p', e, turnedAway_of_rebuffed h⟩

/-- A server that a session has connected to at 0. -/
def visited : PacketProcessor :=
  { fresh with
    network := { connected := {1}, lastSessionId := 1 }
    loginDeadlines := (∅ : Map SessionId Time).insert 1 10 }

/-- It chats before it logs in. -/
theorem login_required_chat : ∃ p',
    visited.handleEvent Host.ascii { session := 1, packetId := chatReq, body := [104, 105] } 0 0 =
        .ok p' ∧ TurnedAway visited 1 p' ∧
      p'.network.sent = [⟨1, chatRes, ChatResponse.encode ⟨.notLoggedIn⟩⟩] := by
  have hchecked : ((visited.handleEvent Host.ascii
      { session := 1, packetId := chatReq, body := [104, 105] } 0 0).toOption.any fun p' =>
        decide (p'.network.sent = [⟨1, chatRes, ChatResponse.encode ⟨.notLoggedIn⟩⟩])) = true := by
    decide +kernel
  obtain ⟨p', e, haway⟩ : ∃ p', visited.handleEvent Host.ascii
      { session := 1, packetId := chatReq, body := [104, 105] } 0 0 = .ok p' ∧
        TurnedAway visited 1 p' :=
    login_required rfl (by decide) (by rfl) 0 0
  rw [e] at hchecked
  exact ⟨p', e, haway, of_decide_eq_true hchecked⟩

end PacketProcessor
end SelectServer
