import SelectServer.Lib.Programs
import SelectServer.PacketProcessor

/- `PacketProcessor` as it is written: against `INetwork`, which is all it knows of
   the network. Each of its functions is a program of calls to that interface, and
   `Logic` are the members it has besides the reference to the network. What these
   programs do depends on the network they run on. -/
namespace SelectServer
open Wire (Bytes)
open Programs

/-- `PacketProcessor` has no `SendPacket` without a `Disconnect` of a session that is refused, so
these two are one call. -/
inductive NetworkCall where
  | tryPopEvent
  | isConnected (sessionId : SessionId)
  | sendOrDisconnect (packet : SentPacket)
  | disconnect (sessionId : SessionId)

abbrev NetworkCall.Answer : NetworkCall → Type
  | .tryPopEvent => Option NetworkEvent
  | .isConnected _ => Bool
  | .sendOrDisconnect _ => Bool
  | .disconnect _ => Unit

abbrev INetwork : Interface := ⟨NetworkCall, NetworkCall.Answer⟩

namespace INetwork

def tryPopEvent : Program INetwork (Option NetworkEvent) :=
  .call NetworkCall.tryPopEvent .done

def isConnected (sessionId : SessionId) : Program INetwork Bool :=
  .call (NetworkCall.isConnected sessionId) .done

def sendOrDisconnect (packet : SentPacket) : Program INetwork Bool :=
  .call (NetworkCall.sendOrDisconnect packet) .done

def disconnect (sessionId : SessionId) : Program INetwork Unit :=
  .call (NetworkCall.disconnect sessionId) .done

/-! ## Sending -/

def broadcast (targets : List SessionId) (packetId : UInt16) (body : Bytes) :
    Program INetwork Unit :=
  targets.forM fun target => do
    let connected ← isConnected target
    if !connected then pure ()
    else
      let _ ← sendOrDisconnect ⟨target, packetId, body⟩
      pure ()

def sendRoomActionResult (sessionId : SessionId) (responseId : UInt16) (result : RoomResult)
    (roomId : RoomId) : Program INetwork Bool :=
  let response : RoomActionResponse :=
    { result := result, roomId := if result = .success then roomId else 0 }
  match response.encode with
  | none => do
    disconnect sessionId
    pure false
  | some body => sendOrDisconnect ⟨sessionId, responseId, body⟩

def sendChatResult (sessionId : SessionId) (result : ChatResult) : Program INetwork Bool :=
  sendOrDisconnect ⟨sessionId, chatRes, ChatResponse.encode ⟨result⟩⟩

def sendGameMoveResult (sessionId : SessionId) (result : GameMoveResult) (gameId : GameId) :
    Program INetwork Bool :=
  match GameMoveResponse.encode { result := result, game := gameId } with
  | none => do
    disconnect sessionId
    pure false
  | some body => sendOrDisconnect ⟨sessionId, gameMoveRes, body⟩

end INetwork

/-- What `PacketProcessor` has besides the reference to its network. -/
structure Logic where
  rooms : RoomManager
  loginTimeout : { t : Time // 0 < t }
  loginDeadlines : Map SessionId Time := ∅

namespace Logic
open INetwork

/-! ## Notifications -/

def notifyRoomMember (l : Logic) (roomId : RoomId) (change : RoomMemberChange) (nickname : Bytes) :
    Program INetwork Unit :=
  match l.rooms.find roomId with
  | none => pure ()
  | some room =>
    match RoomMemberNotification.encode { roomId, change, nickname } with
    | none => pure ()
    | some body => broadcast room.members roomMemberNtf body

def notifyRoomState (l : Logic) (roomId : RoomId) : Program INetwork Unit :=
  match l.rooms.find roomId with
  | none => pure ()
  | some room =>
    match PacketProcessor.roomState l.rooms roomId room with
    | none => pure ()
    | some notification =>
      match notification.encode with
      | none => pure ()
      | some body => broadcast room.members roomStateNtf body

/-- The body of the loop in `FlushFinishedGames`. -/
def announce (l : Logic) (finished : FinishedGame) : Program INetwork Unit :=
  match (PacketProcessor.gameEnd finished).encode with
  | none => finished.targets.forM disconnect
  | some body => do
    broadcast finished.targets gameEndNtf body
    l.notifyRoomState finished.room

def flushLoop : Nat → Logic → Program INetwork Logic
  | 0, l => pure l
  | fuel + 1, l =>
    match l.rooms.tryPopFinishedGame with
    | (none, _) => pure l
    | (some finished, rooms) => do
      announce { l with rooms := rooms } finished
      flushLoop fuel { l with rooms := rooms }

def flushFinishedGames (l : Logic) : Program INetwork Logic :=
  flushLoop l.rooms.finishedGames.length l

/-! ## Requests without a room -/

def handleLogin (l : Logic) (event : NetworkEvent) : Program INetwork Logic :=
  match LoginRequest.decode event.body with
  | .error _ => do
    disconnect event.session
    pure l
  | .ok request => do
    let (result, users) := l.rooms.users.login event.session request.nickname
    let _ ← sendOrDisconnect ⟨event.session, loginRes, LoginResponse.encode ⟨result⟩⟩
    pure { l with
      rooms := { l.rooms with users := users }
      loginDeadlines :=
        if result = LoginResult.success then l.loginDeadlines.erase event.session
        else l.loginDeadlines }

def handleEcho (l : Logic) (event : NetworkEvent) : Program INetwork Logic := do
  let _ ← sendOrDisconnect ⟨event.session, echoRes, event.body⟩
  pure l

def isValidChatMessage (multiByteToWideChar : Bytes → Nat) (message : Bytes) : Bool :=
  !message.isEmpty && message.length ≤ maxChatMessageBytes &&
    message.all (fun ch => !(ch < 0x20 || ch == 0x7F)) && message.any (· != 0x20) &&
    multiByteToWideChar message > 0

def handleChat (multiByteToWideChar : Bytes → Nat) (l : Logic) (event : NetworkEvent) : Program INetwork Logic :=
  match l.rooms.users.find event.session with
  | none => do
    let _ ← sendChatResult event.session .notLoggedIn
    pure l
  | some sender =>
    if sender.state ≠ .inRoom then do
      let _ ← sendChatResult event.session .notInRoom
      pure l
    else
      match l.rooms.find sender.roomId with
      | none => do
        let _ ← sendChatResult event.session .stateMismatch
        pure l
      | some room =>
        if !room.contains event.session then do
          let _ ← sendChatResult event.session .stateMismatch
          pure l
        else
          match ChatRequest.decode event.body with
          | .error _ => do
            disconnect event.session
            pure l
          | .ok request =>
            if !isValidChatMessage multiByteToWideChar request.message then do
              let _ ← sendChatResult event.session .invalidMessage
              pure l
            else
              match ChatNotification.encode ⟨sender.nickname, request.message⟩ with
              | none => do
                disconnect event.session
                pure l
              | some body => do
                let sent ← sendChatResult event.session .success
                if !sent then pure l
                else
                  let sent ← sendChatResult event.session .success
                  if !sent then pure l
                  else
                    broadcast room.members chatNtf body
                    pure l

/-! ## Room requests -/

def welcome (l : Logic) (sessionId : SessionId) (responseId : UInt16) (result : RoomResult)
    (roomId : RoomId) : Program INetwork Unit := do
  let _ ← sendRoomActionResult sessionId responseId result roomId
  if result ≠ .success then pure ()
  else
    match l.rooms.users.find sessionId with
    | none => pure ()
    | some user =>
      l.notifyRoomMember roomId .joined user.nickname
      l.notifyRoomState roomId

def handleRoomCreate (multiByteToWideChar : Bytes → Nat) (l : Logic) (event : NetworkEvent) :
    Program INetwork (Except LogicError Logic) :=
  match RoomCreateRequest.decode event.body with
  | .error _ => do
    disconnect event.session
    pure (.ok l)
  | .ok request =>
    match RoomManager.createRoom multiByteToWideChar l.rooms event.session request.title with
    | .error e => pure (.error e)
    | .ok (result, roomId, rooms) => do
      let l := { l with rooms := rooms }
      l.welcome event.session roomCreateRes result roomId
      pure (.ok l)

def handleRoomList (l : Logic) (event : NetworkEvent) : Program INetwork Logic :=
  match RoomListRequest.decode event.body with
  | .error _ => do
    disconnect event.session
    pure l
  | .ok request =>
    let response : RoomListResponse :=
      match l.rooms.users.find event.session with
      | none => { result := .userNotFound }
      | some user =>
        if user.state ≠ .lobby then { result := .alreadyInRoom }
        else
          let (rooms, hasMore) := l.rooms.getRoomsAfter request.afterRoomId
          { rooms := rooms, hasMore := hasMore }
    match response.encode with
    | none => do
      disconnect event.session
      pure l
    | some body => do
      let _ ← sendOrDisconnect ⟨event.session, roomListRes, body⟩
      pure l

def handleRoomEnter (l : Logic) (event : NetworkEvent) : Program INetwork Logic :=
  match RoomEnterRequest.decode event.body with
  | .error _ => do
    disconnect event.session
    pure l
  | .ok request => do
    let (result, rooms) := l.rooms.enterRoom event.session request.roomId
    let l := { l with rooms := rooms }
    l.welcome event.session roomEnterRes result request.roomId
    pure l

def handleRoomLeave (l : Logic) (event : NetworkEvent) (now : Time) :
    Program INetwork (Except LogicError Logic) :=
  match RoomLeaveRequest.decode event.body with
  | .error _ => do
    disconnect event.session
    pure (.ok l)
  | .ok _ =>
    match l.rooms.users.find event.session with
    | none => do
      let _ ← sendRoomActionResult event.session roomLeaveRes .userNotFound invalidRoomId
      pure (.ok l)
    | some user =>
      match l.rooms.leaveRoom event.session .leftRoom now with
      | .error e => pure (.error e)
      | .ok (result, rooms) => do
        let l ← flushFinishedGames { l with rooms := rooms }
        let _ ← sendRoomActionResult event.session roomLeaveRes result user.roomId
        if result = .success then
          l.notifyRoomMember user.roomId .left user.nickname
          l.notifyRoomState user.roomId
          pure (.ok l)
        else pure (.ok l)

def answerInRoom (l : Logic) (sessionId : SessionId) (responseId : UInt16) (result : RoomResult) :
    Program INetwork Unit := do
  let roomId :=
    if result = .success then ((l.rooms.users.find sessionId).map (·.roomId)).getD invalidRoomId
    else invalidRoomId
  let _ ← sendRoomActionResult sessionId responseId result roomId
  if result = .success then l.notifyRoomState roomId else pure ()

def handleRoomReady (l : Logic) (event : NetworkEvent) : Program INetwork Logic :=
  match RoomReadyRequest.decode event.body with
  | .error _ => do
    disconnect event.session
    pure l
  | .ok request => do
    let (result, rooms) := l.rooms.setReady event.session request.ready
    let l := { l with rooms := rooms }
    l.answerInRoom event.session roomReadyRes result
    pure l

def handleRoomStart (l : Logic) (event : NetworkEvent) (now : Time) : Program INetwork Logic :=
  match RoomStartRequest.decode event.body with
  | .error _ => do
    disconnect event.session
    pure l
  | .ok _ => do
    let (result, rooms) := l.rooms.startGame event.session now
    let l := { l with rooms := rooms }
    l.answerInRoom event.session roomStartRes result
    pure l

/-! ## Game requests -/

def handleGameMove (l : Logic) (event : NetworkEvent) (now : Time) :
    Program INetwork (Except LogicError Logic) :=
  match GameMoveRequest.decode event.body with
  | .error _ => do
    disconnect event.session
    pure (.ok l)
  | .ok request =>
    match l.rooms.placeStone event.session request.roomId request.game request.x.toNat
      request.y.toNat {} now with
    | .error e => pure (.error e)
    | .ok (result, accepted, rooms) =>
      let l := { l with rooms := rooms }
      if result ≠ .success then do
        let _ ← sendGameMoveResult event.session result request.game
        pure (.ok l)
      else
        match l.rooms.find accepted.room with
        | none => do
          disconnect event.session
          pure (.ok l)
        | some room =>
          match (PacketProcessor.gameMove accepted).encode with
          | none => do
            room.members.forM disconnect
            pure (.ok l)
          | some body => do
            let _ ← sendGameMoveResult event.session .success request.game
            broadcast room.members gameMoveNtf body
            pure (.ok l)

def handleGameResign (l : Logic) (event : NetworkEvent) (now : Time) :
    Program INetwork (Except LogicError Logic) :=
  match GameResignRequest.decode event.body with
  | .error _ => do
    disconnect event.session
    pure (.ok l)
  | .ok request =>
    match l.rooms.resign event.session request.roomId request.game now with
    | .error e => pure (.error e)
    | .ok (result, rooms) =>
      let l := { l with rooms := rooms }
      match GameMoveResponse.encode { result := result, game := request.game } with
      | none => do
        disconnect event.session
        pure (.ok l)
      | some body => do
        let _ ← sendOrDisconnect ⟨event.session, gameResignRes, body⟩
        pure (.ok l)

/-! ## Events -/

/-- A handler that cannot throw. -/
def returns (program : Program INetwork Logic) : Program INetwork (Except LogicError Logic) := do
  let l ← program
  pure (.ok l)

def handler? (packetId : UInt16) :
    Option ((Bytes → Nat) → Logic → NetworkEvent → Time →
      Program INetwork (Except LogicError Logic)) :=
  if packetId = loginReq then some fun _ l event _ => returns (l.handleLogin event)
  else if packetId = echoReq then some fun _ l event _ => returns (l.handleEcho event)
  else if packetId = chatReq then some fun utf8 l event _ => returns (handleChat utf8 l event)
  else if packetId = roomCreateReq then some fun utf8 l event _ => handleRoomCreate utf8 l event
  else if packetId = roomListReq then some fun _ l event _ => returns (l.handleRoomList event)
  else if packetId = roomEnterReq then some fun _ l event _ => returns (l.handleRoomEnter event)
  else if packetId = roomLeaveReq then some fun _ l event now => l.handleRoomLeave event now
  else if packetId = roomReadyReq then some fun _ l event _ => returns (l.handleRoomReady event)
  else if packetId = roomStartReq then
    some fun _ l event now => returns (l.handleRoomStart event now)
  else if packetId = gameMoveReq then some fun _ l event now => l.handleGameMove event now
  else if packetId = gameResignReq then some fun _ l event now => l.handleGameResign event now
  else none

def processPacket (multiByteToWideChar : Bytes → Nat) (l : Logic) (event : NetworkEvent)
    (now : Time) : Program INetwork (Except LogicError Logic) :=
  if event.packetId.toNat ≥ PacketProcessor.handlerCount then do
    disconnect event.session
    pure (.ok l)
  else
    match handler? event.packetId with
    | none => do
      disconnect event.session
      pure (.ok l)
    | some handler => handler multiByteToWideChar l event now

def handleConnected (l : Logic) (event : NetworkEvent) : Program INetwork Logic := do
  let connected ← isConnected event.session
  if !connected then pure l
  else
    pure { l with loginDeadlines :=
      l.loginDeadlines.insert event.session (event.occurredAt + l.loginTimeout.val) }

def handleDisconnected (l : Logic) (sessionId : SessionId) (now : Time) :
    Program INetwork (Except LogicError Logic) :=
  let l := { l with loginDeadlines := l.loginDeadlines.erase sessionId }
  match l.rooms.users.find sessionId with
  | none => pure (.ok l)
  | some user =>
    match l.rooms.leaveRoom sessionId .disconnected now with
    | .error e => pure (.error e)
    | .ok (result, rooms) => do
      let rooms := { rooms with users := rooms.users.remove sessionId }
      let l ← flushFinishedGames { l with rooms := rooms }
      if result = .success then
        l.notifyRoomMember user.roomId .disconnected user.nickname
        l.notifyRoomState user.roomId
        pure (.ok l)
      else pure (.ok l)

def isLoginExpired (l : Logic) (sessionId : SessionId) (now : Time) : Bool :=
  match l.loginDeadlines[sessionId]? with
  | none => false
  | some deadline => now ≥ deadline

/-- `CheckLoginTimeouts`, over the sessions in the order of the map. -/
def checkLoginTimeoutsOf (now : Time) : List SessionId → Logic → Program INetwork Logic
  | [], l => pure l
  | sessionId :: sessions, l =>
    match l.loginDeadlines[sessionId]? with
    | none => checkLoginTimeoutsOf now sessions l
    | some deadline =>
      if now < deadline then checkLoginTimeoutsOf now sessions l
      else do
        disconnect sessionId
        checkLoginTimeoutsOf now sessions
          { l with loginDeadlines := l.loginDeadlines.erase sessionId }

def checkLoginTimeouts (l : Logic) (traversal : Traversal SessionId) (now : Time) :
    Program INetwork Logic :=
  checkLoginTimeoutsOf now (traversal.order l.loginDeadlines.keys) l

/-! ## `Update` -/

def sweepRooms (l : Logic) (traversal : Traversal RoomId) (now : Time) :
    Program INetwork (Except LogicError Logic) :=
  match l.rooms.updateTimeouts traversal now with
  | .error e => pure (.error e)
  | .ok rooms => returns (flushFinishedGames { l with rooms := rooms })

def beginUpdate (l : Logic) (traversal : Traversal RoomId) (now : Time) :
    Program INetwork (Except LogicError Logic) :=
  l.sweepRooms traversal now

def handleEvent (multiByteToWideChar : Bytes → Nat) (l : Logic) (event : NetworkEvent)
    (loginNow gameNow : Time) : Program INetwork (Except LogicError Logic) :=
  match event.type with
  | .connected => returns (l.handleConnected event)
  | .packet => do
    let connected ← isConnected event.session
    if !connected then pure (.ok l)
    else if l.isLoginExpired event.session loginNow then
      disconnect event.session
      pure (.ok { l with loginDeadlines := l.loginDeadlines.erase event.session })
    else processPacket multiByteToWideChar l event gameNow
  | .disconnected => l.handleDisconnected event.session gameNow

def endUpdate (l : Logic) (first second : Traversal SessionId × Time)
    (traversal : Traversal RoomId) (now : Time) : Program INetwork (Except LogicError Logic) := do
  let l ← l.checkLoginTimeouts first.1 first.2
  let l ← l.checkLoginTimeouts second.1 second.2
  l.sweepRooms traversal now

end Logic
end SelectServer
