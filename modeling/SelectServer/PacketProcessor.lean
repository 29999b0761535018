import SelectServer.Codec
import SelectServer.Network
import SelectServer.RoomManager

/- `PacketProcessor.h`, `PacketProcessor.cpp`, `PacketProcessorChat.cpp` and
   `PacketProcessorGame.cpp`. `m_users` is the field `users` of the `RoomManager`
   that refers to it. Each reading of the clock is an argument. `Update` is three
   parts: what comes before the event loop (`beginUpdate`), one turn of the loop
   (`handleEvent`), and what comes after (`endUpdate`). Lines for the console are
   left out. -/
namespace SelectServer
open Wire (Bytes)

structure PacketProcessor where
  network : Network
  rooms : RoomManager
  loginTimeout : { t : Time // 0 < t }
  loginDeadlines : Map SessionId Time := ∅

namespace PacketProcessor

/-- The constructor. -/
def make (network : Network) (loginTimeout : Time) : Except LogicError PacketProcessor := do
  let rooms ← RoomManager.make {} {}
  if h : 0 < loginTimeout then
    pure { network := network, rooms := rooms, loginTimeout := ⟨loginTimeout, h⟩ }
  else throw .invalidLoginTimeout

/-! ## Sending -/

def disconnect (p : PacketProcessor) (sessionId : SessionId) : PacketProcessor :=
  { p with network := p.network.disconnect sessionId }

/-- `if (!m_network.SendPacket(..)) m_network.Disconnect(..)`, and whether the packet went out. -/
def sendOrDisconnect (host : Host) (p : PacketProcessor) (packet : SentPacket) :
    Bool × PacketProcessor :=
  let (queued, network) := p.network.sendPacket host packet
  if queued then (true, { p with network := network })
  else (false, { p with network := network.disconnect packet.session })

/-- The loops that send one body to every target that is still connected. -/
def broadcast (host : Host) (p : PacketProcessor) (targets : List SessionId) (packetId : UInt16)
    (body : Bytes) : PacketProcessor :=
  targets.foldl (fun p target =>
    if !p.network.isConnected target then p
    else (p.sendOrDisconnect host ⟨target, packetId, body⟩).2) p

def sendRoomActionResult (host : Host) (p : PacketProcessor) (sessionId : SessionId)
    (responseId : UInt16) (result : RoomResult) (roomId : RoomId) : Bool × PacketProcessor :=
  let response : RoomActionResponse :=
    { result := result, roomId := if result = .success then roomId else 0 }
  match response.encode with
  | none => (false, p.disconnect sessionId)
  | some body => p.sendOrDisconnect host ⟨sessionId, responseId, body⟩

def sendChatResult (host : Host) (p : PacketProcessor) (sessionId : SessionId)
    (result : ChatResult) : Bool × PacketProcessor :=
  p.sendOrDisconnect host ⟨sessionId, chatRes, ChatResponse.encode ⟨result⟩⟩

def sendGameMoveResult (host : Host) (p : PacketProcessor) (sessionId : SessionId)
    (result : GameMoveResult) (gameId : GameId) : Bool × PacketProcessor :=
  match GameMoveResponse.encode { result := result, game := gameId } with
  | none => (false, p.disconnect sessionId)
  | some body => p.sendOrDisconnect host ⟨sessionId, gameMoveRes, body⟩

/-! ## Notifications -/

def notifyRoomMember (host : Host) (p : PacketProcessor) (roomId : RoomId)
    (change : RoomMemberChange) (nickname : Bytes) : PacketProcessor :=
  match p.rooms.find roomId with
  | none => p
  | some room =>
    let notification : RoomMemberNotification :=
      { roomId := roomId, change := change, nickname := nickname }
    match notification.encode with
    | none => p
    | some body => p.broadcast host room.members roomMemberNtf body

/-- The notification that `NotifyRoomState` builds; none where it finds the host or a member
missing and returns. -/
def roomState (rooms : RoomManager) (roomId : RoomId) (room : Room) :
    Option RoomStateNotification := do
  let host ← rooms.users.find room.hostSession
  let players ← room.members.mapM fun member => do
    let user ← rooms.users.find member
    if user.roomId ≠ roomId then none
    else some ({ nickname := user.nickname, ready := room.isReady member } : RoomPlayerInfo)
  return {
    roomId := roomId
    -- set in the loop over the members, so it stays 0 without any
    game := if room.members.isEmpty then 0 else room.gameId
    phase := room.phase
    capacity := room.capacity.toUInt8
    hostNickname := host.nickname
    players := players }

def notifyRoomState (host : Host) (p : PacketProcessor) (roomId : RoomId) : PacketProcessor :=
  match p.rooms.find roomId with
  | none => p
  | some room =>
    match roomState p.rooms roomId room with
    | none => p
    | some notification =>
      match notification.encode with
      | none => p
      | some body => p.broadcast host room.members roomStateNtf body

/-- `ToPacketStone`: `Stone` and `GameStone` have the same enumerators and are one type here. -/
def toPacketStone : GameStone → GameStone
  | .empty => .empty
  | .black => .black
  | .white => .white

/-- `ToPacketState`, for `GameStatus` and `GameState` in the same way. -/
def toPacketState : GameState → GameState
  | .notStarted => .notStarted
  | .playing => .playing
  | .blackWon => .blackWon
  | .whiteWon => .whiteWon
  | .draw => .draw

def gameEnd (finished : FinishedGame) : GameEndNotification :=
  { roomId := finished.room
    game := finished.game
    state := toPacketState finished.status
    reason := finished.reason
    moveCount := UInt32.ofNat finished.moveCount }

/-- The body of the loop in `FlushFinishedGames`. -/
def announce (host : Host) (p : PacketProcessor) (finished : FinishedGame) : PacketProcessor :=
  match (gameEnd finished).encode with
  | none => finished.targets.foldl disconnect p
  | some body =>
    (p.broadcast host finished.targets gameEndNtf body).notifyRoomState host finished.room

/-- The loop of `FlushFinishedGames`, which pops one record a turn and queues none. -/
def flushLoop (host : Host) : Nat → PacketProcessor → PacketProcessor
  | 0, p => p
  | fuel + 1, p =>
    match p.rooms.tryPopFinishedGame with
    | (none, _) => p
    | (some finished, rooms) =>
      flushLoop host fuel (announce host { p with rooms := rooms } finished)

def flushFinishedGames (host : Host) (p : PacketProcessor) : PacketProcessor :=
  flushLoop host p.rooms.finishedGames.length p

/-! ## Requests without a room -/

def handleLogin (host : Host) (p : PacketProcessor) (event : NetworkEvent) : PacketProcessor :=
  match LoginRequest.decode event.body with
  | .error _ => p.disconnect event.session
  | .ok request =>
    let (result, users) := p.rooms.users.login event.session request.nickname
    let p := { p with
      rooms := { p.rooms with users := users }
      loginDeadlines :=
        if result = LoginResult.success then p.loginDeadlines.erase event.session else p.loginDeadlines }
    (p.sendOrDisconnect host ⟨event.session, loginRes, LoginResponse.encode ⟨result⟩⟩).2

def handleEcho (host : Host) (p : PacketProcessor) (event : NetworkEvent) : PacketProcessor :=
  (p.sendOrDisconnect host ⟨event.session, echoRes, event.body⟩).2

def isValidChatMessage (host : Host) (message : Bytes) : Bool :=
  !message.isEmpty && message.length ≤ maxChatMessageBytes &&
    message.all (fun ch => !(ch < 0x20 || ch == 0x7F)) && message.any (· != 0x20) &&
    host.multiByteToWideChar message > 0

def handleChat (host : Host) (p : PacketProcessor) (event : NetworkEvent) : PacketProcessor :=
  match p.rooms.users.find event.session with
  | none => (p.sendChatResult host event.session .notLoggedIn).2
  | some sender =>
    if sender.state ≠ .inRoom then (p.sendChatResult host event.session .notInRoom).2
    else
      match p.rooms.find sender.roomId with
      | none => (p.sendChatResult host event.session .stateMismatch).2
      | some room =>
        if !room.contains event.session then
          (p.sendChatResult host event.session .stateMismatch).2
        else
          match ChatRequest.decode event.body with
          | .error _ => p.disconnect event.session
          | .ok request =>
            if !isValidChatMessage host request.message then
              (p.sendChatResult host event.session .invalidMessage).2
            else
              match ChatNotification.encode ⟨sender.nickname, request.message⟩ with
              | none => p.disconnect event.session
              | some body =>
                let (sent, p) := p.sendChatResult host event.session .success
                if !sent then p
                else
                  -- the source sends the result a second time
                  let (sent, p) := p.sendChatResult host event.session .success
                  if !sent then p else p.broadcast host room.members chatNtf body

/-! ## Room requests -/

/-- What `HandleRoomCreate` and `HandleRoomEnter` do after the operation. -/
def welcome (host : Host) (p : PacketProcessor) (sessionId : SessionId) (responseId : UInt16)
    (result : RoomResult) (roomId : RoomId) : PacketProcessor :=
  let p := (p.sendRoomActionResult host sessionId responseId result roomId).2
  if result ≠ .success then p
  else
    match p.rooms.users.find sessionId with
    | none => p
    | some user =>
      (p.notifyRoomMember host roomId .joined user.nickname).notifyRoomState host roomId

def handleRoomCreate (host : Host) (p : PacketProcessor) (event : NetworkEvent) :
    Except LogicError PacketProcessor :=
  match RoomCreateRequest.decode event.body with
  | .error _ => .ok (p.disconnect event.session)
  | .ok request => do
    let (result, roomId, rooms) ←
      RoomManager.createRoom host.multiByteToWideChar p.rooms event.session request.title
    pure (welcome host { p with rooms := rooms } event.session roomCreateRes result roomId)

def handleRoomList (host : Host) (p : PacketProcessor) (event : NetworkEvent) : PacketProcessor :=
  match RoomListRequest.decode event.body with
  | .error _ => p.disconnect event.session
  | .ok request =>
    let response : RoomListResponse :=
      match p.rooms.users.find event.session with
      | none => { result := .userNotFound }
      | some user =>
        if user.state ≠ .lobby then { result := .alreadyInRoom }
        else
          let (rooms, hasMore) := p.rooms.getRoomsAfter request.afterRoomId
          { rooms := rooms, hasMore := hasMore }
    match response.encode with
    | none => p.disconnect event.session
    | some body => (p.sendOrDisconnect host ⟨event.session, roomListRes, body⟩).2

def handleRoomEnter (host : Host) (p : PacketProcessor) (event : NetworkEvent) : PacketProcessor :=
  match RoomEnterRequest.decode event.body with
  | .error _ => p.disconnect event.session
  | .ok request =>
    let (result, rooms) := p.rooms.enterRoom event.session request.roomId
    welcome host { p with rooms := rooms } event.session roomEnterRes result request.roomId

def handleRoomLeave (host : Host) (p : PacketProcessor) (event : NetworkEvent) (now : Time) :
    Except LogicError PacketProcessor :=
  match RoomLeaveRequest.decode event.body with
  | .error _ => .ok (p.disconnect event.session)
  | .ok _ =>
    match p.rooms.users.find event.session with
    | none =>
      .ok (p.sendRoomActionResult host event.session roomLeaveRes .userNotFound invalidRoomId).2
    | some user => do
      let (result, rooms) ← p.rooms.leaveRoom event.session .leftRoom now
      let p := flushFinishedGames host { p with rooms := rooms }
      let p := (p.sendRoomActionResult host event.session roomLeaveRes result user.roomId).2
      if result = .success then
        pure ((p.notifyRoomMember host user.roomId .left user.nickname).notifyRoomState host
          user.roomId)
      else pure p

/-- The room that `HandleRoomReady` and `HandleRoomStart` answer with and notify. -/
def answerInRoom (host : Host) (p : PacketProcessor) (sessionId : SessionId) (responseId : UInt16)
    (result : RoomResult) : PacketProcessor :=
  let roomId :=
    if result = .success then ((p.rooms.users.find sessionId).map (·.roomId)).getD invalidRoomId
    else invalidRoomId
  let p := (p.sendRoomActionResult host sessionId responseId result roomId).2
  if result = .success then p.notifyRoomState host roomId else p

def handleRoomReady (host : Host) (p : PacketProcessor) (event : NetworkEvent) : PacketProcessor :=
  match RoomReadyRequest.decode event.body with
  | .error _ => p.disconnect event.session
  | .ok request =>
    let (result, rooms) := p.rooms.setReady event.session request.ready
    answerInRoom host { p with rooms := rooms } event.session roomReadyRes result

def handleRoomStart (host : Host) (p : PacketProcessor) (event : NetworkEvent) (now : Time) :
    PacketProcessor :=
  match RoomStartRequest.decode event.body with
  | .error _ => p.disconnect event.session
  | .ok _ =>
    let (result, rooms) := p.rooms.startGame event.session now
    answerInRoom host { p with rooms := rooms } event.session roomStartRes result

/-! ## Game requests -/

def gameMove (accepted : AcceptedMove) : GameMoveNotification :=
  { roomId := accepted.room
    game := accepted.game
    x := UInt8.ofInt accepted.x
    y := UInt8.ofInt accepted.y
    placedStone := toPacketStone accepted.placedStone
    nextTurn := toPacketStone accepted.nextTurn
    state := toPacketState accepted.status
    moveCount := UInt32.ofNat accepted.moveCount }

def handleGameMove (host : Host) (p : PacketProcessor) (event : NetworkEvent) (now : Time) :
    Except LogicError PacketProcessor :=
  match GameMoveRequest.decode event.body with
  | .error _ => .ok (p.disconnect event.session)
  | .ok request => do
    let (result, accepted, rooms) ← p.rooms.placeStone event.session request.roomId request.game
      request.x.toNat request.y.toNat {} now
    let p := { p with rooms := rooms }
    if result ≠ .success then pure (p.sendGameMoveResult host event.session result request.game).2
    else
      match p.rooms.find accepted.room with
      | none => pure (p.disconnect event.session)
      | some room =>
        match (gameMove accepted).encode with
        | none => pure (room.members.foldl disconnect p)
        | some body =>
          let p := (p.sendGameMoveResult host event.session .success request.game).2
          pure (p.broadcast host room.members gameMoveNtf body)

def handleGameResign (host : Host) (p : PacketProcessor) (event : NetworkEvent) (now : Time) :
    Except LogicError PacketProcessor :=
  match GameResignRequest.decode event.body with
  | .error _ => .ok (p.disconnect event.session)
  | .ok request => do
    let (result, rooms) ← p.rooms.resign event.session request.roomId request.game now
    let p := { p with rooms := rooms }
    match GameMoveResponse.encode { result := result, game := request.game } with
    | none => pure (p.disconnect event.session)
    | some body => pure (p.sendOrDisconnect host ⟨event.session, gameResignRes, body⟩).2

/-! ## Events -/

def handlerCount : Nat := 256

/-- The table that `RegisterHandlers` fills. -/
def handler? (packetId : UInt16) :
    Option (Host → PacketProcessor → NetworkEvent → Time → Except LogicError PacketProcessor) :=
  if packetId = loginReq then some fun host p event _ => .ok (handleLogin host p event)
  else if packetId = echoReq then some fun host p event _ => .ok (handleEcho host p event)
  else if packetId = chatReq then some fun host p event _ => .ok (handleChat host p event)
  else if packetId = roomCreateReq then some fun host p event _ => handleRoomCreate host p event
  else if packetId = roomListReq then some fun host p event _ => .ok (handleRoomList host p event)
  else if packetId = roomEnterReq then some fun host p event _ => .ok (handleRoomEnter host p event)
  else if packetId = roomLeaveReq then some handleRoomLeave
  else if packetId = roomReadyReq then some fun host p event _ => .ok (handleRoomReady host p event)
  else if packetId = roomStartReq then
    some fun host p event now => .ok (handleRoomStart host p event now)
  else if packetId = gameMoveReq then some handleGameMove
  else if packetId = gameResignReq then some handleGameResign
  else none

def processPacket (host : Host) (p : PacketProcessor) (event : NetworkEvent) (now : Time) :
    Except LogicError PacketProcessor :=
  if event.packetId.toNat ≥ handlerCount then .ok (p.disconnect event.session)
  else
    match handler? event.packetId with
    | none => .ok (p.disconnect event.session)
    | some handler => handler host p event now

def handleConnected (p : PacketProcessor) (event : NetworkEvent) : PacketProcessor :=
  if !p.network.isConnected event.session then p
  else
    { p with loginDeadlines :=
        p.loginDeadlines.insert event.session (event.occurredAt + p.loginTimeout.val) }

def handleDisconnected (host : Host) (p : PacketProcessor) (sessionId : SessionId) (now : Time) :
    Except LogicError PacketProcessor :=
  let p := { p with loginDeadlines := p.loginDeadlines.erase sessionId }
  match p.rooms.users.find sessionId with
  | none => .ok p
  | some user => do
    let (result, rooms) ← p.rooms.leaveRoom sessionId .disconnected now
    let rooms := { rooms with users := rooms.users.remove sessionId }
    let p := flushFinishedGames host { p with rooms := rooms }
    if result = .success then
      pure ((p.notifyRoomMember host user.roomId .disconnected user.nickname).notifyRoomState host
        user.roomId)
    else pure p

def isLoginExpired (p : PacketProcessor) (sessionId : SessionId) (now : Time) : Bool :=
  match p.loginDeadlines[sessionId]? with
  | none => false
  | some deadline => now ≥ deadline

/-- One turn of the loop in `CheckLoginTimeouts`. -/
def checkLoginTimeout (now : Time) (p : PacketProcessor) (sessionId : SessionId) :
    PacketProcessor :=
  match p.loginDeadlines[sessionId]? with
  | none => p
  | some deadline =>
    if now < deadline then p
    else { p with loginDeadlines := p.loginDeadlines.erase sessionId }.disconnect sessionId

def checkLoginTimeouts (p : PacketProcessor) (traversal : Traversal SessionId) (now : Time) :
    PacketProcessor :=
  (traversal.order p.loginDeadlines.keys).foldl (checkLoginTimeout now) p

/-! ## `Update` -/

def sweepRooms (host : Host) (p : PacketProcessor) (traversal : Traversal RoomId) (now : Time) :
    Except LogicError PacketProcessor := do
  let rooms ← p.rooms.updateTimeouts traversal now
  pure (flushFinishedGames host { p with rooms := rooms })

/-- `Update` up to its event loop. -/
def beginUpdate (host : Host) (p : PacketProcessor) (traversal : Traversal RoomId) (now : Time) :
    Except LogicError PacketProcessor :=
  sweepRooms host p traversal now

/-- One event of the loop in `Update`. The first reading of the clock is the login check's, the
second the one a game operation takes. -/
def handleEvent (host : Host) (p : PacketProcessor) (event : NetworkEvent)
    (loginNow gameNow : Time) : Except LogicError PacketProcessor :=
  match event.type with
  | .connected => .ok (p.handleConnected event)
  | .packet =>
    if !p.network.isConnected event.session then .ok p
    else if p.isLoginExpired event.session loginNow then
      .ok ({ p with loginDeadlines := p.loginDeadlines.erase event.session }.disconnect
        event.session)
    else processPacket host p event gameNow
  | .disconnected => handleDisconnected host p event.session gameNow

/-- `Update` after its event loop; the source calls `CheckLoginTimeouts` twice. -/
def endUpdate (host : Host) (p : PacketProcessor) (first second : Traversal SessionId × Time)
    (traversal : Traversal RoomId) (now : Time) : Except LogicError PacketProcessor :=
  let p := p.checkLoginTimeouts first.1 first.2
  let p := p.checkLoginTimeouts second.1 second.2
  sweepRooms host p traversal now

end PacketProcessor
end SelectServer
