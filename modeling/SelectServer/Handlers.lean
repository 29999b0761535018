import SelectServer.Notifications

/- What each request handler does, in one relation (`Handled`): the packets it
   sends, in order, and the rooms it leaves. Everything later reads these
   constructors and not the handlers. A request that does not decode, or whose id
   has no handler, disconnects its session and does nothing else. -/
namespace SelectServer
open Wire (Bytes)

/-- The id of the response to a request, for the ids that have a handler. -/
def responseId? (packetId : UInt16) : Option UInt16 :=
  if packetId = loginReq then some loginRes
  else if packetId = echoReq then some echoRes
  else if packetId = chatReq then some chatRes
  else if packetId = roomCreateReq then some roomCreateRes
  else if packetId = roomListReq then some roomListRes
  else if packetId = roomEnterReq then some roomEnterRes
  else if packetId = roomLeaveReq then some roomLeaveRes
  else if packetId = roomReadyReq then some roomReadyRes
  else if packetId = roomStartReq then some roomStartRes
  else if packetId = gameMoveReq then some gameMoveRes
  else if packetId = gameResignReq then some gameResignRes
  else none

/-- The notification of an accepted move. -/
def moveOuts (m : RoomManager) (accepted : AcceptedMove) : List SentPacket :=
  match m.find accepted.room with
  | none => []
  | some room =>
    match (PacketProcessor.gameMove accepted).encode with
    | none => []
    | some body => toAll room.members gameMoveNtf body

/-- The calls after which no one but the caller is told anything at once. -/
def Call.Unannounced : Call → Answer → Prop
  | .login .., _ => True
  | .resign .., _ => True
  | .placeStone .., .placed result _ => result ≠ .success
  | _, _ => False

/-- A request that is answered with the packet id `rid`. -/
inductive Handled (host : Host) (m : RoomManager) (event : NetworkEvent) (rid : UInt16) :
    List SentPacket → RoomManager → Prop
  | idle {body : Bytes} (hplain : (⟨rid, body⟩ : ClientPacket).notice = .other) :
      Handled host m event rid [⟨event.session, rid, body⟩] m
  | answered {body : Bytes} {l : Call} {a : Answer} {m' : RoomManager}
      (hplain : (⟨rid, body⟩ : ClientPacket).notice = .other)
      (he : Effect host.multiByteToWideChar m l a m') (hl : l.Unannounced a)
      (hcaller : ∀ s' nickname, l = .login s' nickname → s' = event.session) :
      Handled host m event rid [⟨event.session, rid, body⟩] m'
  | created {body title nickname : Bytes} {r : RoomId} {m' : RoomManager}
      (hplain : (⟨rid, body⟩ : ClientPacket).notice = .other)
      (he : Effect host.multiByteToWideChar m (.createRoom event.session title)
        (.created .success r) m') :
      Handled host m event rid
        (⟨event.session, rid, body⟩ :: (memberOuts m' r .joined nickname ++ stateOuts m' r)) m'
  | entered {body nickname : Bytes} {r : RoomId} {m' : RoomManager}
      (hplain : (⟨rid, body⟩ : ClientPacket).notice = .other)
      (he : Effect host.multiByteToWideChar m (.enterRoom event.session r) (.room .success) m') :
      Handled host m event rid
        (⟨event.session, rid, body⟩ :: (memberOuts m' r .joined nickname ++ stateOuts m' r)) m'
  | readied {body : Bytes} {ready : Bool} {u : User} {m' : RoomManager}
      (hid : event.packetId = roomReadyReq)
      (hdecode : RoomReadyRequest.decode event.body = .ok ⟨ready⟩)
      (hplain : (⟨rid, body⟩ : ClientPacket).notice = .other)
      (hu : m.users.users[event.session]? = some u)
      (he : Effect host.multiByteToWideChar m (.setReady event.session ready)
        (.room .success) m') :
      Handled host m event rid (⟨event.session, rid, body⟩ :: stateOuts m' u.roomId) m'
  | started {body : Bytes} {now : Time} {u : User} {m' : RoomManager}
      (hid : event.packetId = roomStartReq)
      (hdecode : ∃ request, RoomStartRequest.decode event.body = .ok request)
      (hplain : (⟨rid, body⟩ : ClientPacket).notice = .other)
      (hu : m.users.users[event.session]? = some u)
      (he : Effect host.multiByteToWideChar m (.startGame event.session now)
        (.room .success) m') :
      Handled host m event rid (⟨event.session, rid, body⟩ :: stateOuts m' u.roomId) m'
  | moved {body : Bytes} {r : RoomId} {g : GameId} {x y : Int} {out move : AcceptedMove}
      {now : Time} {m' : RoomManager} (hplain : (⟨rid, body⟩ : ClientPacket).notice = .other)
      (he : Effect host.multiByteToWideChar m (.placeStone event.session r g x y out now)
        (.placed .success move) m') :
      Handled host m event rid (⟨event.session, rid, body⟩ :: moveOuts m' move) m'
  | left {body : Bytes} {u : User} {now : Time} {m' : RoomManager}
      (hleft : (⟨rid, body⟩ : ClientPacket).notice = .left)
      (he : Effect host.multiByteToWideChar m (.leaveRoom event.session .leftRoom now)
        (.room .success) m') (hu : m.users.users[event.session]? = some u) :
      Handled host m event rid
        (flushOuts m' ++ ⟨event.session, rid, body⟩ ::
          (memberOuts m' u.roomId .left u.nickname ++ stateOuts m' u.roomId))
        { m' with finishedGames := [] }
  | stayed {body : Bytes} (hplain : (⟨rid, body⟩ : ClientPacket).notice = .other) :
      Handled host m event rid (flushOuts m ++ [⟨event.session, rid, body⟩])
        { m with finishedGames := [] }

/-- A chat message that `HandleChat` takes: the sender is in a room and the message is valid. -/
def ChatAccepted (host : Host) (m : RoomManager) (event : NetworkEvent) : Prop :=
  (∃ u, m.users.users[event.session]? = some u ∧ u.state = .inRoom) ∧
    PacketProcessor.isValidChatMessage host event.body = true

/-- What a request does to the server `p`. -/
inductive Responds (host : Host) (p : PacketProcessor) (event : NetworkEvent) :
    PacketProcessor → Prop
  | dropped {p' : PacketProcessor}
      (hchat : event.packetId = chatReq → ¬ ChatAccepted host p.rooms event)
      (hrooms : p'.rooms = p.rooms)
      (hnetwork : p'.network = p.network.disconnect event.session) : Responds host p event p'
  | handled {p' : PacketProcessor} {rid : UInt16} {packets : List SentPacket}
      (hrid : responseId? event.packetId = some rid)
      (hchat : event.packetId = chatReq → ¬ ChatAccepted host p.rooms event)
      (h : Handled host p.rooms event rid packets p'.rooms)
      (hnetwork : p'.network = p.network.deliver host packets) : Responds host p event p'
  | chatted {p' : PacketProcessor} {packets : List SentPacket}
      (hid : event.packetId = chatReq) (hchat : ChatAccepted host p.rooms event)
      (hrooms : p'.rooms = p.rooms) (hnetwork : p'.network = p.network.deliver host packets)
      (hother : ∀ packet ∈ packets, packet.packet.notice = .other)
      (hserved : host.Serves event.session → event.session ∈ p.network.connected →
        ∃ targets body, packets = ⟨event.session, chatRes, ChatResponse.encode ⟨.success⟩⟩ ::
          ⟨event.session, chatRes, ChatResponse.encode ⟨.success⟩⟩ ::
            toAll targets chatNtf body) : Responds host p event p'

namespace PacketProcessor
variable {host : Host} {p : PacketProcessor} {event : NetworkEvent}

/-! ## The table -/

/-- What `ProcessPacket` does, by the id of the packet. -/
inductive Dispatches (host : Host) (p : PacketProcessor) (event : NetworkEvent) (now : Time) :
    Except LogicError PacketProcessor → Prop
  | login (hid : event.packetId = loginReq) :
      Dispatches host p event now (.ok (handleLogin host p event))
  | echo (hid : event.packetId = echoReq) :
      Dispatches host p event now (.ok (handleEcho host p event))
  | chat (hid : event.packetId = chatReq) :
      Dispatches host p event now (.ok (handleChat host p event))
  | roomCreate (hid : event.packetId = roomCreateReq) :
      Dispatches host p event now (handleRoomCreate host p event)
  | roomList (hid : event.packetId = roomListReq) :
      Dispatches host p event now (.ok (handleRoomList host p event))
  | roomEnter (hid : event.packetId = roomEnterReq) :
      Dispatches host p event now (.ok (handleRoomEnter host p event))
  | roomLeave (hid : event.packetId = roomLeaveReq) :
      Dispatches host p event now (handleRoomLeave host p event now)
  | roomReady (hid : event.packetId = roomReadyReq) :
      Dispatches host p event now (.ok (handleRoomReady host p event))
  | roomStart (hid : event.packetId = roomStartReq) :
      Dispatches host p event now (.ok (handleRoomStart host p event now))
  | gameMove (hid : event.packetId = gameMoveReq) :
      Dispatches host p event now (handleGameMove host p event now)
  | gameResign (hid : event.packetId = gameResignReq) :
      Dispatches host p event now (handleGameResign host p event now)
  | unknown (hid : handler? event.packetId = none) :
      Dispatches host p event now (.ok (p.disconnect event.session))

/-- The ids with a handler are below the bound on the table. -/
theorem handler?_range {packetId : UInt16} (h : packetId.toNat ≥ handlerCount) :
    handler? packetId = none := by
  have hne : ∀ id : UInt16, id.toNat < handlerCount → packetId ≠ id := by
    rintro id hid rfl
    exact absurd hid (Nat.not_lt.mpr h)
  unfold handler?
  repeat rw [if_neg (hne _ (by decide))]

theorem processPacket_handler
    {handler : Host → PacketProcessor → NetworkEvent → Time → Except LogicError PacketProcessor}
    (hrange : event.packetId.toNat < handlerCount) (h : handler? event.packetId = some handler)
    {now : Time} : processPacket host p event now = handler host p event now := by
  simp only [processPacket, if_neg (Nat.not_le.mpr hrange), h]

/-- One row of the table: it is the one that was found, or the search goes on. -/
theorem table_row {α : Type} {c : Prop} [Decidable c] {a x : α} {rest : Option α}
    (h : (if c then some a else rest) = some x) : (c ∧ a = x) ∨ rest = some x := by
  by_cases hc : c
  · rw [if_pos hc, Option.some.injEq] at h
    exact .inl ⟨hc, h⟩
  · rw [if_neg hc] at h
    exact .inr h

theorem processPacket_dispatches (host : Host) (p : PacketProcessor) (event : NetworkEvent)
    (now : Time) : Dispatches host p event now (processPacket host p event now) := by
  unfold processPacket
  split
  · rename_i hrange
    exact .unknown (handler?_range hrange)
  cases h : handler? event.packetId with
  | none => exact .unknown h
  | some handler =>
    dsimp only
    unfold handler? at h
    -- the rows of the table, in its order
    obtain ⟨hid, rfl⟩ | h := table_row h
    · exact .login hid
    obtain ⟨hid, rfl⟩ | h := table_row h
    · exact .echo hid
    obtain ⟨hid, rfl⟩ | h := table_row h
    · exact .chat hid
    obtain ⟨hid, rfl⟩ | h := table_row h
    · exact .roomCreate hid
    obtain ⟨hid, rfl⟩ | h := table_row h
    · exact .roomList hid
    obtain ⟨hid, rfl⟩ | h := table_row h
    · exact .roomEnter hid
    obtain ⟨hid, rfl⟩ | h := table_row h
    · exact .roomLeave hid
    obtain ⟨hid, rfl⟩ | h := table_row h
    · exact .roomReady hid
    obtain ⟨hid, rfl⟩ | h := table_row h
    · exact .roomStart hid
    obtain ⟨hid, rfl⟩ | h := table_row h
    · exact .gameMove hid
    obtain ⟨hid, rfl⟩ | h := table_row h
    · exact .gameResign hid
    cases h

/-! ## The replies -/

theorem loginRes_plain (response : LoginResponse) :
    (⟨loginRes, response.encode⟩ : ClientPacket).notice = .other := by
  simp only [ClientPacket.notice, LoginResponse.decode_encode]
  rfl

theorem chatRes_plain (response : ChatResponse) :
    (⟨chatRes, response.encode⟩ : ClientPacket).notice = .other := by
  simp only [ClientPacket.notice, ChatResponse.decode_encode]
  rfl

theorem roomListRes_plain {response : RoomListResponse} {body : Bytes}
    (h : response.encode = some body) :
    (⟨roomListRes, body⟩ : ClientPacket).notice = .other := by
  simp only [ClientPacket.notice, RoomListResponse.decode_encode h]
  rfl

theorem gameRes_plain {response : GameMoveResponse} {body : Bytes}
    (h : response.encode = some body) :
    (⟨gameMoveRes, body⟩ : ClientPacket).notice = .other ∧
      (⟨gameResignRes, body⟩ : ClientPacket).notice = .other := by
  simp only [ClientPacket.notice, GameMoveResponse.decode_encode h]
  exact ⟨rfl, rfl⟩

/-- The ids of the responses that `SendRoomActionResult` sends. -/
def roomResponseIds : List UInt16 :=
  [roomCreateRes, roomEnterRes, roomLeaveRes, roomReadyRes, roomStartRes]

theorem sendRoomActionResult_eq (host : Host) (p : PacketProcessor) (s : SessionId) (rid : UInt16)
    (result : RoomResult) (roomId : RoomId) (hrid : rid ∈ roomResponseIds)
    (hroom : result = .success → roomId ≠ 0) :
    ∃ body, (p.sendRoomActionResult host s rid result roomId).2 =
        p.deliver host [⟨s, rid, body⟩] ∧
      (⟨rid, body⟩ : ClientPacket).notice =
        if rid = roomLeaveRes ∧ result = .success then .left else .other := by
  obtain ⟨body, hbody⟩ := RoomActionResponse.encode_some
    { result := result, roomId := if result = .success then roomId else 0 }
  have hdecode := RoomActionResponse.decode_encode hbody (by
    dsimp only
    split
    · rename_i h
      simp [h, hroom h]
    · rename_i h
      simp [h])
  refine ⟨body, ?_, ?_⟩
  · simp only [sendRoomActionResult, hbody]
    exact sendOrDisconnect_eq _ _
  · simp only [roomResponseIds, List.mem_cons, List.not_mem_nil, or_false] at hrid
    rcases hrid with rfl | rfl | rfl | rfl | rfl <;>
      simp only [ClientPacket.notice, hdecode] <;> rfl

theorem sendGameMoveResult_eq (host : Host) (p : PacketProcessor) (s : SessionId)
    (result : GameMoveResult) (gameId : GameId) :
    ∃ body, (p.sendGameMoveResult host s result gameId).2 =
        p.deliver host [⟨s, gameMoveRes, body⟩] ∧
      (⟨gameMoveRes, body⟩ : ClientPacket).notice = .other := by
  obtain ⟨body, hbody⟩ := GameMoveResponse.encode_some { result := result, game := gameId }
  refine ⟨body, ?_, (gameRes_plain hbody).1⟩
  simp only [sendGameMoveResult, hbody]
  exact sendOrDisconnect_eq _ _

/-! ## The handlers -/

theorem other_request {packetId : UInt16} (hid : event.packetId = packetId)
    (hne : packetId ≠ chatReq) : event.packetId = chatReq → ¬ ChatAccepted host p.rooms event :=
  fun h => absurd (hid.symm.trans h) hne

theorem handleLogin_responds (hid : event.packetId = loginReq) :
    Responds host p event (handleLogin host p event) := by
  have hrid : responseId? event.packetId = some loginRes := by rw [hid]; rfl
  have hchat : event.packetId = chatReq → ¬ ChatAccepted host p.rooms event :=
    other_request hid (by decide)
  unfold handleLogin
  split
  · exact .dropped hchat rfl rfl
  rename_i request hdecode
  rcases RoomManager.login_spec p.rooms.users event.session request.nickname with
    ⟨result, hne, e⟩ | ⟨hnew, hname, hfree, e⟩
  · simp only [e, sendOrDisconnect_eq]
    exact .handled hrid hchat (.idle (loginRes_plain _)) rfl
  · simp only [e, sendOrDisconnect_eq]
    exact .handled hrid hchat (.answered (loginRes_plain _) (.loggedIn hnew hname hfree)
      trivial (by rintro s' nickname h; cases h; rfl)) rfl

theorem handleEcho_responds (hid : event.packetId = echoReq) :
    Responds host p event (handleEcho host p event) := by
  unfold handleEcho
  rw [sendOrDisconnect_eq]
  exact .handled (by rw [hid]; rfl) (other_request hid (by decide)) (.idle rfl) rfl

theorem chatMessage_length {message : Bytes} (h : isValidChatMessage host message = true) :
    message ≠ [] ∧ message.length ≤ 256 := by
  simp only [isValidChatMessage, Bool.and_eq_true, Bool.not_eq_true', decide_eq_true_eq,
    List.isEmpty_eq_false_iff] at h
  exact h.1.1.1

theorem chatNotification_encodes {sender : User} (hok : p.rooms.Ok) {s : SessionId}
    (hu : p.rooms.users.users[s]? = some sender) {message : Bytes}
    (hvalid : isValidChatMessage host message = true) :
    ∃ body, ChatNotification.encode ⟨sender.nickname, message⟩ = some body := by
  obtain ⟨hne, hle⟩ := chatMessage_length hvalid
  obtain ⟨hname0, hname16⟩ := nickname_length (hok.wellFormed.user hu).2.2
  have h0 : 0 < sender.nickname.length := List.length_pos_iff.mpr hname0
  have h0' : 0 < message.length := List.length_pos_iff.mpr hne
  simp only [maxNicknameBytes] at hname16
  have hnickname : ¬ (sender.nickname.length = 0 ∨ sender.nickname.length > maxNicknameBytes ∨
      sender.nickname.length > 255) := by
    simp only [maxNicknameBytes]
    omega
  have hmessage : ¬ (message.length = 0 ∨ message.length > maxChatMessageBytes ∨
      message.length > 65535) := by
    simp only [maxChatMessageBytes]
    omega
  have hsize : ¬ 1 + sender.nickname.length + 2 + message.length > maxPacketSize - headerSize := by
    simp only [maxPacketSize, headerSize]
    omega
  simp only [ChatNotification.encode, if_neg hnickname, if_neg hmessage, if_neg hsize]
  exact ⟨_, rfl⟩

/-- What `HandleChat` does. -/
inductive Chatted (host : Host) (p : PacketProcessor) (event : NetworkEvent) : PacketProcessor → Prop
  | dropped (hchat : ¬ ChatAccepted host p.rooms event) :
      Chatted host p event (p.disconnect event.session)
  | refused (hchat : ¬ ChatAccepted host p.rooms event) (result : ChatResult) :
      Chatted host p event
        (p.deliver host [⟨event.session, chatRes, ChatResponse.encode ⟨result⟩⟩])
  /-- The sender did not take the result of its message. -/
  | lost (hchat : ChatAccepted host p.rooms event) (results : List ChatResult)
      (hlost : host.Serves event.session → event.session ∉ p.network.connected) :
      Chatted host p event (p.deliver host
        (results.map fun result => ⟨event.session, chatRes, ChatResponse.encode ⟨result⟩⟩))
  | told (hchat : ChatAccepted host p.rooms event) {sender : User} {room : Room} {body : Bytes}
      (hu : p.rooms.users.users[event.session]? = some sender)
      (hr : p.rooms.rooms[sender.roomId]? = some room) (hmem : event.session ∈ room.members)
      (hbody : ChatNotification.encode ⟨sender.nickname, event.body⟩ = some body) :
      Chatted host p event (p.deliver host
        (⟨event.session, chatRes, ChatResponse.encode ⟨.success⟩⟩ ::
          ⟨event.session, chatRes, ChatResponse.encode ⟨.success⟩⟩ ::
            toAll room.members chatNtf body))

theorem handleChat_outcome (host : Host) (hok : p.rooms.Ok) (event : NetworkEvent) :
    Chatted host p event (handleChat host p event) := by
  have hone : ∀ result, ¬ ChatAccepted host p.rooms event →
      Chatted host p event (p.sendChatResult host event.session result).2 := by
    intro result hchat
    rw [sendChatResult, sendOrDisconnect_eq]
    exact .refused hchat result
  unfold handleChat
  split
  · rename_i hu
    refine hone _ fun h => ?_
    obtain ⟨u, hu', -⟩ := h.1
    rw [UserManager.find, hu'] at hu
    cases hu
  rename_i sender hu
  split
  · rename_i hstate
    refine hone _ fun h => ?_
    obtain ⟨u, hu', hin⟩ := h.1
    rw [UserManager.find, hu'] at hu
    exact hstate (Option.some.inj hu ▸ hin)
  rename_i hstate
  rw [not_not] at hstate
  -- a sender in a room is a member of it
  obtain ⟨room, hseat⟩ : ∃ room, p.rooms.Seated event.session sender room := by
    rcases hok.wellFormed.user_cases hu with hidle | hseat
    · rw [hidle.state] at hstate
      cases hstate
    · exact hseat
  have hfind : p.rooms.find sender.roomId = some room := by
    rw [hseat.roomId]
    exact hseat.here
  simp only [hfind, hseat.contains, Bool.not_true, Bool.false_eq_true, if_false]
  split
  · rename_i hdecode
    refine .dropped fun h => ?_
    have hlength := (chatMessage_length h.2).2
    rw [ChatRequest.decode, if_neg (by simp only [maxPacketSize, headerSize]; omega)] at hdecode
    cases hdecode
  rename_i request hdecode
  have hmessage : request.message = event.body := by
    unfold ChatRequest.decode at hdecode
    split at hdecode <;> cases hdecode
    rfl
  rw [hmessage]
  split
  · rename_i hinvalid
    refine hone _ fun h => ?_
    rw [h.2] at hinvalid
    cases hinvalid
  rename_i hvalid
  have hchat : ChatAccepted host p.rooms event := ⟨⟨sender, hu, hstate⟩, by simpa using hvalid⟩
  obtain ⟨body, hbody⟩ := chatNotification_encodes hok hu hchat.2
  simp only [hbody]
  generalize hreply : (⟨event.session, chatRes, ChatResponse.encode ⟨.success⟩⟩ : SentPacket) = reply
  have hsession : reply.session = event.session := by rw [← hreply]
  have hsend : ∀ q : PacketProcessor, q.sendChatResult host event.session .success =
      ((q.sendOrDisconnect host reply).1, q.deliver host [reply]) := by
    intro q
    rw [← sendOrDisconnect_eq, ← hreply]
    rfl
  have hserved : ∀ q : PacketProcessor, host.Serves event.session →
      event.session ∈ q.network.connected → (q.sendOrDisconnect host reply).1 = true :=
    fun q hs hc => sendOrDisconnect_served (hsession ▸ hs) (hsession ▸ hc)
  simp only [hsend]
  -- the two sends of the result, either of which may be refused
  cases h1 : (p.sendOrDisconnect host reply).1 with
  | false =>
    have hlost := Chatted.lost hchat [.success] fun hs hc => by
      rw [hserved p hs hc] at h1
      cases h1
    rwa [List.map_singleton, hreply] at hlost
  | true =>
    cases h2 : ((p.deliver host [reply]).sendOrDisconnect host reply).1 with
    | false =>
      simp only [Bool.not_true, Bool.false_eq_true, if_false, Bool.not_false, if_true, deliver_deliver]
      have hlost := Chatted.lost hchat [.success, .success] fun hs hc => by
        rw [hserved _ hs (Network.served_deliver hs _ hc)] at h2
        cases h2
      rwa [List.map_cons, List.map_singleton, hreply] at hlost
    | true =>
      simp only [Bool.not_true, Bool.false_eq_true, if_false, broadcast_eq, deliver_deliver]
      have htold := Chatted.told hchat hu (hseat.roomId ▸ hseat.here) hseat.mem hbody
      rwa [hreply] at htold

theorem handleChat_responds (hid : event.packetId = chatReq) (hok : p.rooms.Ok) :
    Responds host p event (handleChat host p event) := by
  have houtcome := handleChat_outcome host hok event
  generalize handleChat host p event = p' at houtcome ⊢
  cases houtcome with
  | dropped hchat => exact .dropped (fun _ => hchat) rfl rfl
  | refused hchat result =>
    exact .handled (by rw [hid]; rfl) (fun _ => hchat) (.idle (chatRes_plain _)) rfl
  | lost hchat results hlost =>
    refine .chatted hid hchat rfl rfl ?_ fun hs hc => absurd hc (hlost hs)
    intro packet hpacket
    obtain ⟨result, -, rfl⟩ := List.mem_map.mp hpacket
    exact chatRes_plain _
  | @told hchat sender room body hu hr hmem hbody =>
    refine .chatted hid hchat rfl rfl ?_ fun _ _ => ⟨room.members, body, rfl⟩
    intro packet hpacket
    rcases List.mem_cons.mp hpacket with rfl | hpacket
    · exact chatRes_plain _
    rcases List.mem_cons.mp hpacket with rfl | hpacket
    · exact chatRes_plain _
    · obtain ⟨target, -, rfl⟩ := List.mem_map.mp hpacket
      simp only [SentPacket.packet, ClientPacket.notice, ChatNotification.decode_encode hbody]
      rfl

theorem processPacket_chat (hid : event.packetId = chatReq) (now : Time) :
    processPacket host p event now = .ok (handleChat host p event) :=
  processPacket_handler (by rw [hid]; decide) (by rw [hid]; rfl)

/-! ## Rooms -/

theorem welcome_refused (host : Host) (p : PacketProcessor) (s : SessionId) (rid : UInt16)
    {result : RoomResult} (roomId : RoomId) (hrid : rid ∈ roomResponseIds)
    (hne : result ≠ .success) :
    ∃ body, welcome host p s rid result roomId = p.deliver host [⟨s, rid, body⟩] ∧
      (⟨rid, body⟩ : ClientPacket).notice = .other := by
  obtain ⟨body, hsend, hnotice⟩ := sendRoomActionResult_eq host p s rid result roomId hrid
    fun h => absurd h hne
  refine ⟨body, ?_, by rw [hnotice, if_neg fun h => hne h.2]⟩
  simp only [welcome, hsend, if_pos hne]

theorem welcome_accepted (host : Host) {p : PacketProcessor} {s : SessionId} (rid : UInt16)
    (hrid : rid ∈ roomResponseIds) (hleave : rid ≠ roomLeaveRes) {roomId : RoomId}
    (hroom : roomId ≠ 0) {user : User} (hu : p.rooms.users.find s = some user) :
    ∃ body, welcome host p s rid .success roomId =
        p.deliver host (⟨s, rid, body⟩ ::
          (memberOuts p.rooms roomId .joined user.nickname ++ stateOuts p.rooms roomId)) ∧
      (⟨rid, body⟩ : ClientPacket).notice = .other := by
  obtain ⟨body, hsend, hnotice⟩ := sendRoomActionResult_eq host p s rid .success roomId hrid
    fun _ => hroom
  refine ⟨body, ?_, by rw [hnotice, if_neg fun h => hleave h.1]⟩
  have hnot : ¬ (RoomResult.success ≠ .success) := not_not.mpr rfl
  simp only [welcome, hsend, if_neg hnot, deliver_rooms, hu, notifyRoomMember_eq,
    notifyRoomState_eq, deliver_deliver]
  rfl

theorem handleRoomCreate_responds (hid : event.packetId = roomCreateReq) (hok : p.rooms.Ok) :
    ∃ p', handleRoomCreate host p event = .ok p' ∧ Responds host p event p' := by
  have hrid : responseId? event.packetId = some roomCreateRes := by rw [hid]; rfl
  have hchat : event.packetId = chatReq → ¬ ChatAccepted host p.rooms event :=
    other_request hid (by decide)
  unfold handleRoomCreate
  split
  · exact ⟨_, rfl, .dropped hchat rfl rfl⟩
  rename_i request hdecode
  rcases RoomManager.createRoom_spec hok.wellFormed host.multiByteToWideChar event.session
    request.title with ⟨result, hne, e⟩ | ⟨u, hidle, htitle, hspace, hlast, e⟩ <;> rw [e]
  · obtain ⟨body, hwelcome, hplain⟩ := welcome_refused host p event.session roomCreateRes
      invalidRoomId (by decide) hne.1
    refine ⟨_, rfl, ?_⟩
    show Responds host p event (welcome host p event.session roomCreateRes result invalidRoomId)
    rw [hwelcome]
    exact .handled hrid hchat (.idle hplain) rfl
  · refine ⟨_, rfl, ?_⟩
    generalize hm : p.rooms.created event.session u (p.rooms.newRoom event.session request.title) = m
    have hu : m.users.find event.session = some (u.enterRoom (p.rooms.lastRoomId + 1)) := by
      rw [← hm]
      simp [RoomManager.created, RoomManager.updateUser, UserManager.update, UserManager.find,
        RoomManager.newRoom]
    obtain ⟨body, hwelcome, hplain⟩ := welcome_accepted host (p := { p with rooms := m })
      roomCreateRes (by decide) (by decide) (by grind : p.rooms.lastRoomId + 1 ≠ 0) hu
    rw [hwelcome]
    have he : Effect host.multiByteToWideChar p.rooms (.createRoom event.session request.title)
        (.created .success (p.rooms.lastRoomId + 1)) m := hm ▸ .created hidle htitle hspace hlast
    exact .handled hrid hchat (.created hplain he) rfl

theorem handleRoomList_responds (hid : event.packetId = roomListReq) :
    Responds host p event (handleRoomList host p event) := by
  have hchat : event.packetId = chatReq → ¬ ChatAccepted host p.rooms event :=
    other_request hid (by decide)
  unfold handleRoomList
  split
  · exact .dropped hchat rfl rfl
  dsimp only
  split
  · exact .dropped hchat rfl rfl
  rename_i body hbody
  rw [sendOrDisconnect_eq]
  exact .handled (by rw [hid]; rfl) hchat (.idle (roomListRes_plain hbody)) rfl

theorem handleRoomEnter_responds (hid : event.packetId = roomEnterReq) (hok : p.rooms.Ok) :
    Responds host p event (handleRoomEnter host p event) := by
  have hrid : responseId? event.packetId = some roomEnterRes := by rw [hid]; rfl
  have hchat : event.packetId = chatReq → ¬ ChatAccepted host p.rooms event :=
    other_request hid (by decide)
  unfold handleRoomEnter
  split
  · exact .dropped hchat rfl rfl
  rename_i request hdecode
  rcases RoomManager.enterRoom_spec hok.wellFormed event.session request.roomId with
    ⟨result, hne, e⟩ | ⟨u, room, hidle, hroom, hr, hwait, hnew, hfree, e⟩ <;> rw [e]
  · obtain ⟨body, hwelcome, hplain⟩ := welcome_refused host p event.session roomEnterRes
      request.roomId (by decide) hne.1
    show Responds host p event (welcome host p event.session roomEnterRes result request.roomId)
    rw [hwelcome]
    exact .handled hrid hchat (.idle hplain) rfl
  · generalize hm : p.rooms.entered event.session u room = m
    have hu : m.users.find event.session = some (u.enterRoom room.id) := by
      rw [← hm]
      simp [RoomManager.entered, RoomManager.updateUser, UserManager.update, UserManager.find]
    have hr0 : request.roomId ≠ 0 := hroom ▸ (hok.wellFormed.stored hr).2.1
    obtain ⟨body, hwelcome, hplain⟩ := welcome_accepted host (p := { p with rooms := m })
      roomEnterRes (by decide) (by decide) hr0 hu
    dsimp only
    rw [hwelcome]
    have he : Effect host.multiByteToWideChar p.rooms (.enterRoom event.session request.roomId)
        (.room .success) m := hm ▸ hroom ▸ .entered hidle hr hwait hnew hfree
    exact .handled hrid hchat (.entered hplain he) rfl

theorem handleRoomLeave_responds (hid : event.packetId = roomLeaveReq) (hok : p.rooms.Ok)
    (now : Time) :
    ∃ p', handleRoomLeave host p event now = .ok p' ∧ Responds host p event p' := by
  have hrid : responseId? event.packetId = some roomLeaveRes := by rw [hid]; rfl
  have hchat : event.packetId = chatReq → ¬ ChatAccepted host p.rooms event :=
    other_request hid (by decide)
  unfold handleRoomLeave
  split
  · exact ⟨_, rfl, .dropped hchat rfl rfl⟩
  split
  · obtain ⟨body, hsend, hnotice⟩ := sendRoomActionResult_eq host p event.session
      roomLeaveRes .userNotFound invalidRoomId (by decide) (by intro h; cases h)
    refine ⟨_, rfl, ?_⟩
    rw [hsend]
    exact .handled hrid hchat (.idle (hnotice.trans (if_neg (by simp)))) rfl
  rename_i user hu
  rcases RoomManager.leaveRoom_spec hok.wellFormed event.session now (Or.inl rfl) with
    ⟨hnone, -⟩ | ⟨u, -, e⟩ | ⟨u, room, m1, room1, hseat, hclosed, e⟩
  · rw [UserManager.find, hnone] at hu
    cases hu
  · obtain ⟨body, hsend, hnotice⟩ := sendRoomActionResult_eq host
      (p.flushFinishedGames host) event.session roomLeaveRes .notInRoom user.roomId (by decide)
      (by intro h; cases h)
    refine ⟨_, by rw [e]; rfl, ?_⟩
    show Responds host p event ((p.flushFinishedGames host).sendRoomActionResult host event.session
      roomLeaveRes .notInRoom user.roomId).2
    rw [hsend, flushFinishedGames_eq p fun f hf => (hok.valid f hf).encodes, deliver_deliver]
    exact .handled hrid hchat (.stayed (hnotice.trans (if_neg (by simp)))) rfl
  · generalize hm : m1.depart event.session u room1 = m at e
    have he : Effect host.multiByteToWideChar p.rooms (.leaveRoom event.session .leftRoom now)
        (.room .success) m := hm ▸ .left hseat (Or.inl rfl) hclosed
    have hok' : m.Ok := he.ok hok (by simp) (by simp) (by simp)
    have hr0 : user.roomId ≠ 0 := by
      rw [UserManager.find, hseat.user] at hu
      rw [← Option.some.inj hu, hseat.roomId]
      exact (hok.wellFormed.stored hseat.here).2.1
    obtain ⟨body, hsend, hnotice⟩ := sendRoomActionResult_eq host
      (({ p with rooms := m } : PacketProcessor).flushFinishedGames host) event.session
      roomLeaveRes .success user.roomId (by decide) fun _ => hr0
    refine ⟨_, by rw [e]; rfl, ?_⟩
    rw [hsend, flushFinishedGames_eq _ fun f hf => (hok'.valid f hf).encodes, notifyRoomMember_eq,
      notifyRoomState_eq, deliver_deliver, deliver_deliver, deliver_deliver]
    exact .handled hrid hchat (.left (hnotice.trans (if_pos ⟨rfl, rfl⟩)) he hu) (by simp; rfl)

/-! ## Readiness and starting -/

theorem answerInRoom_refused (host : Host) (p : PacketProcessor) (s : SessionId) (rid : UInt16)
    (hrid : rid ∈ roomResponseIds) {result : RoomResult} (hne : result ≠ .success) :
    ∃ body, answerInRoom host p s rid result = p.deliver host [⟨s, rid, body⟩] ∧
      (⟨rid, body⟩ : ClientPacket).notice = .other := by
  obtain ⟨body, hsend, hnotice⟩ := sendRoomActionResult_eq host p s rid result
    invalidRoomId hrid fun h => absurd h hne
  refine ⟨body, ?_, by rw [hnotice, if_neg fun h => hne h.2]⟩
  simp only [answerInRoom, if_neg hne, hsend]

theorem answerInRoom_accepted (host : Host) {p : PacketProcessor} {s : SessionId} (rid : UInt16)
    (hrid : rid ∈ roomResponseIds) (hleave : rid ≠ roomLeaveRes) {user : User}
    (hu : p.rooms.users.find s = some user) (hroom : user.roomId ≠ 0) :
    ∃ body, answerInRoom host p s rid .success =
        p.deliver host (⟨s, rid, body⟩ :: stateOuts p.rooms user.roomId) ∧
      (⟨rid, body⟩ : ClientPacket).notice = .other := by
  obtain ⟨body, hsend, hnotice⟩ := sendRoomActionResult_eq host p s rid .success
    user.roomId hrid fun _ => hroom
  refine ⟨body, ?_, by rw [hnotice, if_neg fun h => hleave h.1]⟩
  simp only [answerInRoom, if_true, hu, Option.map_some, Option.getD_some, hsend,
    notifyRoomState_eq, deliver_deliver]
  rfl

theorem handleRoomReady_responds (hid : event.packetId = roomReadyReq) (hok : p.rooms.Ok) :
    Responds host p event (handleRoomReady host p event) := by
  have hrid : responseId? event.packetId = some roomReadyRes := by rw [hid]; rfl
  have hchat : event.packetId = chatReq → ¬ ChatAccepted host p.rooms event :=
    other_request hid (by decide)
  unfold handleRoomReady
  split
  · exact .dropped hchat rfl rfl
  rename_i request hdecode
  rcases RoomManager.setReady_spec hok.wellFormed event.session request.ready with
    ⟨result, hne, e⟩ | ⟨u, room, hseat, hwait, hguest, e⟩ <;> rw [e]
  · obtain ⟨body, hanswer, hplain⟩ := answerInRoom_refused host p event.session
      roomReadyRes (by decide) hne.1
    show Responds host p event (answerInRoom host p event.session roomReadyRes result)
    rw [hanswer]
    exact .handled hrid hchat (.idle hplain) rfl
  · have he : Effect host.multiByteToWideChar p.rooms (.setReady event.session request.ready)
        (.room .success) (p.rooms.store room.id (room.setReady event.session request.ready)) :=
      .readied hseat hwait hguest
    have hr0 : u.roomId ≠ 0 := hseat.roomId ▸ (hok.wellFormed.stored hseat.here).2.1
    obtain ⟨body, hanswer, hplain⟩ := answerInRoom_accepted host
      (p := { p with rooms := p.rooms.store room.id (room.setReady event.session request.ready) })
      roomReadyRes (by decide) (by decide) hseat.user hr0
    dsimp only
    rw [hanswer]
    exact .handled hrid hchat (.readied hid hdecode hplain hseat.user he) rfl

theorem handleRoomStart_responds (hid : event.packetId = roomStartReq) (hok : p.rooms.Ok)
    (now : Time) : Responds host p event (handleRoomStart host p event now) := by
  have hrid : responseId? event.packetId = some roomStartRes := by rw [hid]; rfl
  have hchat : event.packetId = chatReq → ¬ ChatAccepted host p.rooms event :=
    other_request hid (by decide)
  unfold handleRoomStart
  split
  · exact .dropped hchat rfl rfl
  rename_i request hdecode
  rcases RoomManager.startGame_spec hok.wellFormed event.session now with
    ⟨result, hne, e⟩ | ⟨u, room, guest, hseat, hwait, hhost, hpair, hne, hready, hlast, e⟩ <;> rw [e]
  · obtain ⟨body, hanswer, hplain⟩ := answerInRoom_refused host p event.session
      roomStartRes (by decide) hne.1
    show Responds host p event (answerInRoom host p event.session roomStartRes result)
    rw [hanswer]
    exact .handled hrid hchat (.idle hplain) rfl
  · have he : Effect host.multiByteToWideChar p.rooms (.startGame event.session now)
        (.room .success) (p.rooms.started room now) :=
      .started hseat hwait hhost hpair hne hready hlast
    have hr0 : u.roomId ≠ 0 := hseat.roomId ▸ (hok.wellFormed.stored hseat.here).2.1
    obtain ⟨body, hanswer, hplain⟩ := answerInRoom_accepted host
      (p := { p with rooms := p.rooms.started room now })
      roomStartRes (by decide) (by decide) hseat.user hr0
    dsimp only
    rw [hanswer]
    exact .handled hrid hchat (.started hid ⟨_, hdecode⟩ hplain hseat.user he) rfl

/-! ## Games -/

/-- The members of a room are the same before and after a stone. -/
theorem find_moved (m : RoomManager) (room : Room) (g : OmokGame) (now : Time) :
    ∃ room', (m.moved room g now).find room.id = some room' ∧ room'.members = room.members := by
  have hmembers : (room.moved g now).members = room.members := by
    unfold Room.moved
    split <;> rfl
  unfold RoomManager.moved
  split
  · exact ⟨_, by simp [RoomManager.find, RoomManager.store], hmembers⟩
  · exact ⟨(room.moved g now).finishGame,
      by simp [RoomManager.find, RoomManager.store, RoomManager.settle], hmembers⟩

theorem handleGameMove_responds (hid : event.packetId = gameMoveReq) (hok : p.rooms.Ok)
    (now : Time) :
    ∃ p', handleGameMove host p event now = .ok p' ∧ Responds host p event p' := by
  have hrid : responseId? event.packetId = some gameMoveRes := by rw [hid]; rfl
  have hchat : event.packetId = chatReq → ¬ ChatAccepted host p.rooms event :=
    other_request hid (by decide)
  unfold handleGameMove
  split
  · exact ⟨_, rfl, .dropped hchat rfl rfl⟩
  rename_i request hdecode
  rcases RoomManager.placeStone_spec hok.wellFormed event.session request.roomId request.game
    request.x.toNat request.y.toNat {} now with
    ⟨result, hne, e⟩ | ⟨u, room, hseat, hroom, hg, hgame, ⟨hexp, e⟩ | ⟨hlive, hphase, hacc, e⟩⟩
  · obtain ⟨body, hsend, hplain⟩ := sendGameMoveResult_eq host p event.session result
      request.game
    refine ⟨_, by rw [e]; simp only [bind, Except.bind, if_pos hne.1]; rfl, ?_⟩
    show Responds host p event (p.sendGameMoveResult host event.session result request.game).2
    rw [hsend]
    exact .handled hrid hchat (.idle hplain) rfl
  · generalize hm : p.rooms.settle (room.conceded room.game.nextTurn) .turnTimeout = m at e
    obtain ⟨body, hsend, hplain⟩ := sendGameMoveResult_eq host
      ({ p with rooms := m } : PacketProcessor) event.session .gameNotRunning request.game
    have hne : GameMoveResult.gameNotRunning ≠ .success := by decide
    refine ⟨_, by rw [e]; simp only [bind, Except.bind, if_pos hne]; rfl, ?_⟩
    rw [hsend]
    have he : Effect host.multiByteToWideChar p.rooms
        (.placeStone event.session request.roomId request.game request.x.toNat request.y.toNat {} now)
        (.placed .gameNotRunning {}) m := hm ▸ .expired rfl rfl hseat hexp
    exact .handled hrid hchat (.answered hplain he hne (by simp)) rfl
  · generalize hg' : (room.game.tryPlaceStone (room.getPlayerStone event.session) request.x.toNat
      request.y.toNat).2 = g' at e
    obtain ⟨body, hsend, hplain⟩ := sendGameMoveResult_eq host
      ({ p with rooms := p.rooms.moved room g' now } : PacketProcessor) event.session .success
      request.game
    obtain ⟨room', hfind, hmembers⟩ := find_moved p.rooms room g' now
    have hnum : room.gameId ≠ 0 := by rw [← hgame]; exact hg
    have hvalid := gameMove_valid (hok.wellFormed.stored hseat.here).2.1 hnum
      (hok.wellFormed.room hseat.here).sound hacc
    rw [hg'] at hvalid
    generalize hmove : RoomManager.acceptedMove room (room.getPlayerStone event.session)
      request.x.toNat request.y.toNat g' = move at e hvalid
    obtain ⟨moveBody, hbody⟩ := GameMoveNotification.encode_some hvalid
    have hfind' : (p.rooms.moved room g' now).find move.room = some room' := by
      rw [← hmove]
      exact hfind
    have hnot : ¬ (GameMoveResult.success ≠ .success) := not_not.mpr rfl
    have he : Effect host.multiByteToWideChar p.rooms
        (.placeStone event.session request.roomId request.game request.x.toNat request.y.toNat {} now)
        (.placed .success move) (p.rooms.moved room g' now) := by
      rw [← hmove, ← hg', ← hroom, hgame]
      exact .moved hseat hnum hlive hphase hacc
    have houts : moveOuts (p.rooms.moved room g' now) move =
        toAll room'.members gameMoveNtf moveBody := by
      simp only [moveOuts, hfind', hbody]
    refine ⟨_, by rw [e]; simp only [bind, Except.bind, if_neg hnot, hfind', hbody]; rfl, ?_⟩
    rw [hsend, broadcast_eq, deliver_deliver, ← houts]
    exact .handled hrid hchat (.moved hplain he) rfl

theorem handleGameResign_responds (hid : event.packetId = gameResignReq) (hok : p.rooms.Ok)
    (now : Time) :
    ∃ p', handleGameResign host p event now = .ok p' ∧ Responds host p event p' := by
  have hrid : responseId? event.packetId = some gameResignRes := by rw [hid]; rfl
  have hchat : event.packetId = chatReq → ¬ ChatAccepted host p.rooms event :=
    other_request hid (by decide)
  cases hdecode : GameResignRequest.decode event.body with
  | error =>
    unfold handleGameResign
    rw [hdecode]
    exact ⟨_, rfl, .dropped hchat rfl rfl⟩
  | ok request =>
  -- the answer is the same whatever the operation did
  have hanswer : ∀ (result : GameMoveResult) (m : RoomManager),
      p.rooms.resign event.session request.roomId request.game now = .ok (result, m) →
      (m = p.rooms ∨ Effect host.multiByteToWideChar p.rooms
        (.resign event.session request.roomId request.game now) (.resigned result) m) →
      ∃ p', handleGameResign host p event now = .ok p' ∧ Responds host p event p' := by
    intro result m e hm
    obtain ⟨body, hbody⟩ := GameMoveResponse.encode_some { result := result, game := request.game }
    refine
      ⟨_, by unfold handleGameResign; rw [hdecode]; simp only [e, bind, Except.bind, hbody]; rfl, ?_⟩
    rw [sendOrDisconnect_eq]
    rcases hm with rfl | he
    · exact .handled hrid hchat (.idle (gameRes_plain hbody).2) rfl
    · exact .handled hrid hchat (.answered (gameRes_plain hbody).2 he trivial (by simp)) rfl
  rcases RoomManager.resign_spec hok.wellFormed event.session request.roomId request.game now with
    ⟨result, hne, e⟩ | ⟨u, room, hseat, hroom, hg, hgame, ⟨hexp, e⟩ | ⟨hlive, hphase, e⟩⟩
  · exact hanswer _ _ e (Or.inl rfl)
  · exact hanswer _ _ e (Or.inr (.expired rfl rfl hseat hexp))
  · refine hanswer _ _ e (Or.inr ?_)
    rw [← hroom, hgame]
    exact .resigned hseat (hgame ▸ hg) hlive hphase

/-- Every request is handled, in one of the ways of `Handled`, or its session is disconnected. -/
theorem processPacket_responds (hok : p.rooms.Ok) (now : Time) :
    ∃ p', processPacket host p event now = .ok p' ∧ Responds host p event p' := by
  have hdispatches := processPacket_dispatches host p event now
  generalize processPacket host p event now = r at hdispatches ⊢
  cases hdispatches with
  | login hid => exact ⟨_, rfl, handleLogin_responds hid⟩
  | echo hid => exact ⟨_, rfl, handleEcho_responds hid⟩
  | chat hid => exact ⟨_, rfl, handleChat_responds hid hok⟩
  | roomCreate hid => exact handleRoomCreate_responds hid hok
  | roomList hid => exact ⟨_, rfl, handleRoomList_responds hid⟩
  | roomEnter hid => exact ⟨_, rfl, handleRoomEnter_responds hid hok⟩
  | roomLeave hid => exact handleRoomLeave_responds hid hok now
  | roomReady hid => exact ⟨_, rfl, handleRoomReady_responds hid hok⟩
  | roomStart hid => exact ⟨_, rfl, handleRoomStart_responds hid hok now⟩
  | gameMove hid => exact handleGameMove_responds hid hok now
  | gameResign hid => exact handleGameResign_responds hid hok now
  | unknown hid =>
    refine ⟨_, rfl, .dropped (fun hchat => ?_) rfl rfl⟩
    rw [hchat] at hid
    cases hid

end PacketProcessor
end SelectServer
