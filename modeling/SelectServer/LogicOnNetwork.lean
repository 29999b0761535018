import SelectServer.NetworkCalls

/- The programs of `Logic` on `Network`, the network that the model of
   `PacketProcessor` has inside it: there they are its functions, one by one. -/
namespace SelectServer
open Wire (Bytes)
open Programs

def Network.device (host : Host) : Device INetwork Network
  | .tryPopEvent, n =>
    match n.tryPopEvent with
    | none => (none, n)
    | some (event, n) => (some event, n)
  | .isConnected sessionId, n => (n.isConnected sessionId, n)
  | .sendOrDisconnect packet, n =>
    let (queued, n) := n.sendPacket host packet
    if queued then (true, n) else (false, n.disconnect packet.session)
  | .disconnect sessionId, n => ((), n.disconnect sessionId)

def PacketProcessor.logic (p : PacketProcessor) : Logic :=
  ⟨p.rooms, p.loginTimeout, p.loginDeadlines⟩

/-- The processor of this logic on `network`. -/
def Logic.on (l : Logic) (network : Network) : PacketProcessor :=
  ⟨network, l.rooms, l.loginTimeout, l.loginDeadlines⟩

namespace Logic
variable {host : Host} {l : Logic} {n : Network} {event : NetworkEvent} {now : Time}

/-- The processor that a program leaves. -/
def settled (r : Logic × Network) : PacketProcessor := r.1.on r.2

@[simp] theorem settled_mk (l : Logic) (n : Network) : settled (l, n) = l.on n := rfl

def settledOr (r : Except LogicError Logic × Network) : Except LogicError PacketProcessor :=
  r.1.map (·.on r.2)

@[simp] theorem on_logic (p : PacketProcessor) : p.logic.on p.network = p := rfl

def onNetwork {α : Type} (host : Host) (program : Program INetwork α) (n : Network) : α × Network :=
  program.run (Network.device host) n

variable {α β : Type}

@[simp] theorem onNetwork_pure (a : α) : onNetwork host (pure a) n = (a, n) := rfl

@[simp] theorem onNetwork_bind (program : Program INetwork α) (f : α → Program INetwork β) :
    onNetwork host (program >>= f) n =
      onNetwork host (f (onNetwork host program n).1) (onNetwork host program n).2 :=
  Program.run_bind program f n

@[simp] theorem onNetwork_isConnected (s : SessionId) :
    onNetwork host (INetwork.isConnected s) n = (n.isConnected s, n) := rfl

/-! ## Sending -/

theorem sendOrDisconnect_on (packet : SentPacket) :
    (l.on n).sendOrDisconnect host packet =
      ((onNetwork host (INetwork.sendOrDisconnect packet) n).1,
        l.on (onNetwork host (INetwork.sendOrDisconnect packet) n).2) := by
  unfold PacketProcessor.sendOrDisconnect
  show (if (n.sendPacket host packet).1 then _ else _) =
    ((if (n.sendPacket host packet).1 then _ else _ : Bool × Network).1,
      l.on (if (n.sendPacket host packet).1 then _ else _ : Bool × Network).2)
  cases (n.sendPacket host packet).1 with
  | true => rfl
  | false => rfl

theorem sent_on (l : Logic) (n : Network) (packet : SentPacket) :
    ((l.on n).sendOrDisconnect host packet).2 =
      l.on (onNetwork host (INetwork.sendOrDisconnect packet) n).2 :=
  congrArg Prod.snd (sendOrDisconnect_on packet)

theorem broadcast_on (targets : List SessionId) (packetId : UInt16) (body : Bytes) :
    (l.on n).broadcast host targets packetId body =
      l.on (onNetwork host (INetwork.broadcast targets packetId body) n).2 := by
  unfold onNetwork INetwork.broadcast PacketProcessor.broadcast
  rw [Program.run_forM]
  induction targets generalizing n with
  | nil => rfl
  | cons target targets ih =>
    rw [List.foldl_cons, List.foldl_cons, ← ih]
    congr 1
    rw [Program.run_bind]
    show (if !n.isConnected target then _ else _) =
      l.on (Program.run _ (if !n.isConnected target then _ else _) n).2
    cases n.isConnected target with
    | false => rfl
    | true =>
      refine (sent_on l n _).trans ?_
      show _ = l.on (Program.run _ (INetwork.sendOrDisconnect _ >>= fun _ => pure ()) n).2
      rw [Program.run_bind]
      rfl

theorem disconnectAll_on (targets : List SessionId) :
    targets.foldl PacketProcessor.disconnect (l.on n) =
      l.on (onNetwork host (targets.forM INetwork.disconnect) n).2 := by
  unfold onNetwork
  rw [Program.run_forM]
  induction targets generalizing n with
  | nil => rfl
  | cons target targets ih =>
    rw [List.foldl_cons, List.foldl_cons, ← ih]
    rfl

theorem sendRoomActionResult_on (s : SessionId) (responseId : UInt16) (result : RoomResult)
    (roomId : RoomId) :
    (l.on n).sendRoomActionResult host s responseId result roomId =
      ((onNetwork host (INetwork.sendRoomActionResult s responseId result roomId) n).1,
        l.on (onNetwork host (INetwork.sendRoomActionResult s responseId result roomId) n).2) := by
  unfold PacketProcessor.sendRoomActionResult INetwork.sendRoomActionResult
  dsimp only
  generalize RoomActionResponse.encode _ = body
  cases body with
  | none => rfl
  | some body => exact sendOrDisconnect_on _

theorem sendChatResult_on (s : SessionId) (result : ChatResult) :
    (l.on n).sendChatResult host s result =
      ((onNetwork host (INetwork.sendChatResult s result) n).1,
        l.on (onNetwork host (INetwork.sendChatResult s result) n).2) :=
  sendOrDisconnect_on _

theorem sendGameMoveResult_on (s : SessionId) (result : GameMoveResult) (gameId : GameId) :
    (l.on n).sendGameMoveResult host s result gameId =
      ((onNetwork host (INetwork.sendGameMoveResult s result gameId) n).1,
        l.on (onNetwork host (INetwork.sendGameMoveResult s result gameId) n).2) := by
  unfold PacketProcessor.sendGameMoveResult INetwork.sendGameMoveResult
  generalize GameMoveResponse.encode _ = body
  cases body with
  | none => rfl
  | some body => exact sendOrDisconnect_on _

/-! ## Notifications -/

theorem notifyRoomMember_on (roomId : RoomId) (change : RoomMemberChange) (nickname : Bytes) :
    (l.on n).notifyRoomMember host roomId change nickname =
      l.on (onNetwork host (l.notifyRoomMember roomId change nickname) n).2 := by
  have hrooms : (l.on n).rooms = l.rooms := rfl
  unfold PacketProcessor.notifyRoomMember notifyRoomMember
  rw [hrooms]
  cases l.rooms.find roomId with
  | none => rfl
  | some room =>
    dsimp only
    generalize RoomMemberNotification.encode _ = body
    cases body with
    | none => rfl
    | some body => exact broadcast_on _ _ _

theorem notifyRoomState_on (roomId : RoomId) :
    (l.on n).notifyRoomState host roomId =
      l.on (onNetwork host (l.notifyRoomState roomId) n).2 := by
  have hrooms : (l.on n).rooms = l.rooms := rfl
  unfold PacketProcessor.notifyRoomState notifyRoomState
  rw [hrooms]
  cases l.rooms.find roomId with
  | none => rfl
  | some room =>
    dsimp only
    cases PacketProcessor.roomState l.rooms roomId room with
    | none => rfl
    | some notification =>
      dsimp only
      cases notification.encode with
      | none => rfl
      | some body => exact broadcast_on _ _ _

theorem announce_on (finished : FinishedGame) :
    PacketProcessor.announce host (l.on n) finished =
      l.on (onNetwork host (l.announce finished) n).2 := by
  unfold PacketProcessor.announce announce
  cases (PacketProcessor.gameEnd finished).encode with
  | none => exact disconnectAll_on _
  | some body =>
    dsimp only
    rw [broadcast_on, notifyRoomState_on, onNetwork_bind]

theorem flushLoop_on (fuel : Nat) : ∀ (l : Logic) (n : Network),
    PacketProcessor.flushLoop host fuel (l.on n) =
      settled (onNetwork host (flushLoop fuel l) n) := by
  induction fuel with
  | zero => exact fun _ _ => rfl
  | succ fuel ih =>
    intro l n
    have hrooms : (l.on n).rooms = l.rooms := rfl
    unfold PacketProcessor.flushLoop flushLoop
    rw [hrooms]
    cases l.rooms.tryPopFinishedGame with
    | mk finished rooms =>
      cases finished with
      | none => rfl
      | some finished =>
        dsimp only
        have hpopped : { l.on n with rooms := rooms } = { l with rooms := rooms }.on n := rfl
        rw [hpopped, announce_on, ih, onNetwork_bind]

theorem flushFinishedGames_on :
    PacketProcessor.flushFinishedGames host (l.on n) =
      settled (onNetwork host l.flushFinishedGames n) :=
  flushLoop_on _ _ _

/-! ## Requests without a room -/

theorem handleLogin_on :
    PacketProcessor.handleLogin host (l.on n) event =
      settled (onNetwork host (l.handleLogin event) n) := by
  unfold PacketProcessor.handleLogin handleLogin
  cases LoginRequest.decode event.body with
  | error fault => rfl
  | ok request =>
    have hrooms : (l.on n).rooms = l.rooms := rfl
    dsimp only
    rw [hrooms]
    rw [onNetwork_bind, onNetwork_pure, settled_mk, ← sent_on]
    rfl

theorem handleEcho_on :
    PacketProcessor.handleEcho host (l.on n) event =
      settled (onNetwork host (l.handleEcho event) n) := by
  unfold PacketProcessor.handleEcho handleEcho
  rw [onNetwork_bind]
  exact sent_on l n _

theorem answered_on (l : Logic) (n : Network) (s : SessionId) (result : ChatResult) :
    ((l.on n).sendChatResult host s result).2 =
      l.on (onNetwork host (INetwork.sendChatResult s result) n).2 :=
  sent_on l n _

theorem handleChat_on :
    PacketProcessor.handleChat host (l.on n) event =
      settled (onNetwork host (l.handleChat host.multiByteToWideChar event) n) := by
  have hrooms : (l.on n).rooms = l.rooms := rfl
  unfold PacketProcessor.handleChat handleChat
  rw [hrooms]
  cases l.rooms.users.find event.session with
  | none =>
    dsimp only
    rw [onNetwork_bind, onNetwork_pure, settled_mk, ← answered_on]
  | some sender =>
    dsimp only
    by_cases hstate : sender.state ≠ .inRoom
    · rw [if_pos hstate, if_pos hstate, onNetwork_bind, onNetwork_pure, settled_mk, ← answered_on]
    rw [if_neg hstate, if_neg hstate]
    cases l.rooms.find sender.roomId with
    | none =>
      dsimp only
      rw [onNetwork_bind, onNetwork_pure, settled_mk, ← answered_on]
    | some room =>
      dsimp only
      by_cases hcontains : (!room.contains event.session) = true
      · rw [if_pos hcontains, if_pos hcontains, onNetwork_bind, onNetwork_pure, settled_mk, ← answered_on]
      rw [if_neg hcontains, if_neg hcontains]
      cases ChatRequest.decode event.body with
      | error fault => rfl
      | ok request =>
        dsimp only
        have hsame : PacketProcessor.isValidChatMessage host request.message =
            isValidChatMessage host.multiByteToWideChar request.message := rfl
        rw [hsame]
        by_cases hvalid : (!isValidChatMessage host.multiByteToWideChar request.message) = true
        · rw [if_pos hvalid, if_pos hvalid, onNetwork_bind, onNetwork_pure, settled_mk, ← answered_on]
        rw [if_neg hvalid, if_neg hvalid]
        cases ChatNotification.encode ⟨sender.nickname, request.message⟩ with
        | none => rfl
        | some body =>
          dsimp only
          rw [sendChatResult_on, onNetwork_bind]
          generalize onNetwork host (INetwork.sendChatResult event.session .success) n = first
          cases first.1 with
          | false => rfl
          | true =>
            dsimp only
            simp only [Bool.not_true, Bool.false_eq_true, if_false]
            rw [sendChatResult_on, onNetwork_bind]
            generalize onNetwork host (INetwork.sendChatResult event.session .success) first.2 =
              second
            cases second.1 with
            | false => rfl
            | true =>
              simp only [Bool.not_true, Bool.false_eq_true, if_false]
              rw [broadcast_on, onNetwork_bind, onNetwork_pure, settled_mk]

/-! ## Room requests -/

theorem acted_on (l : Logic) (n : Network) (s : SessionId) (responseId : UInt16)
    (result : RoomResult) (roomId : RoomId) :
    ((l.on n).sendRoomActionResult host s responseId result roomId).2 =
      l.on (onNetwork host (INetwork.sendRoomActionResult s responseId result roomId) n).2 :=
  congrArg Prod.snd (sendRoomActionResult_on s responseId result roomId)

theorem welcome_on (l : Logic) (n : Network) (s : SessionId) (responseId : UInt16)
    (result : RoomResult) (roomId : RoomId) :
    PacketProcessor.welcome host (l.on n) s responseId result roomId =
      l.on (onNetwork host (l.welcome s responseId result roomId) n).2 := by
  unfold PacketProcessor.welcome welcome
  rw [acted_on, onNetwork_bind]
  dsimp only
  by_cases hresult : result ≠ .success
  · rw [if_pos hresult, if_pos hresult, onNetwork_pure]
  rw [if_neg hresult, if_neg hresult]
  generalize (onNetwork host (INetwork.sendRoomActionResult s responseId result roomId) n).2 = n
  have hrooms : (l.on n).rooms = l.rooms := rfl
  rw [hrooms]
  cases l.rooms.users.find s with
  | none => rfl
  | some user =>
    dsimp only
    rw [notifyRoomMember_on, notifyRoomState_on, onNetwork_bind]

theorem handleRoomCreate_on :
    PacketProcessor.handleRoomCreate host (l.on n) event =
      settledOr (onNetwork host (l.handleRoomCreate host.multiByteToWideChar event) n) := by
  have hrooms : (l.on n).rooms = l.rooms := rfl
  unfold PacketProcessor.handleRoomCreate handleRoomCreate
  rw [hrooms]
  cases RoomCreateRequest.decode event.body with
  | error fault => rfl
  | ok request =>
    dsimp only
    cases RoomManager.createRoom host.multiByteToWideChar l.rooms event.session request.title with
    | error e => rfl
    | ok created =>
      obtain ⟨result, roomId, rooms⟩ := created
      have hcreated : { l.on n with rooms := rooms } = { l with rooms := rooms }.on n := rfl
      dsimp only
      rw [onNetwork_bind, onNetwork_pure]
      show Except.ok (PacketProcessor.welcome host { l.on n with rooms := rooms } _ _ _ _) = _
      rw [hcreated, welcome_on]
      rfl

theorem handleRoomList_on :
    PacketProcessor.handleRoomList host (l.on n) event =
      settled (onNetwork host (l.handleRoomList event) n) := by
  have hrooms : (l.on n).rooms = l.rooms := rfl
  unfold PacketProcessor.handleRoomList handleRoomList
  rw [hrooms]
  cases RoomListRequest.decode event.body with
  | error fault => rfl
  | ok request =>
    dsimp only
    generalize RoomListResponse.encode _ = body
    cases body with
    | none => rfl
    | some body =>
      dsimp only
      rw [onNetwork_bind, onNetwork_pure]
      exact sent_on l n _

theorem handleRoomEnter_on :
    PacketProcessor.handleRoomEnter host (l.on n) event =
      settled (onNetwork host (l.handleRoomEnter event) n) := by
  have hrooms : (l.on n).rooms = l.rooms := rfl
  unfold PacketProcessor.handleRoomEnter handleRoomEnter
  rw [hrooms]
  cases RoomEnterRequest.decode event.body with
  | error fault => rfl
  | ok request =>
    have hentered : ∀ rooms, { l.on n with rooms := rooms } = { l with rooms := rooms }.on n :=
      fun _ => rfl
    dsimp only
    rw [hentered, welcome_on, onNetwork_bind, onNetwork_pure]
    rfl

theorem handleRoomLeave_on :
    PacketProcessor.handleRoomLeave host (l.on n) event now =
      settledOr (onNetwork host (l.handleRoomLeave event now) n) := by
  have hrooms : (l.on n).rooms = l.rooms := rfl
  unfold PacketProcessor.handleRoomLeave handleRoomLeave
  rw [hrooms]
  cases RoomLeaveRequest.decode event.body with
  | error fault => rfl
  | ok request =>
    dsimp only
    cases l.rooms.users.find event.session with
    | none =>
      dsimp only
      rw [onNetwork_bind, onNetwork_pure, acted_on]
      rfl
    | some user =>
      dsimp only
      cases l.rooms.leaveRoom event.session .leftRoom now with
      | error e => rfl
      | ok left =>
        obtain ⟨result, rooms⟩ := left
        have hleft : { l.on n with rooms := rooms } = { l with rooms := rooms }.on n := rfl
        simp only [onNetwork_bind]
        show (if result = .success then _ else _ : Except LogicError PacketProcessor) = _
        rw [hleft, flushFinishedGames_on]
        unfold settled
        rw [acted_on]
        by_cases hresult : result = .success
        · rw [if_pos hresult, if_pos hresult, notifyRoomMember_on, notifyRoomState_on]
          simp only [onNetwork_bind, onNetwork_pure]
          rfl
        · rw [if_neg hresult, if_neg hresult, onNetwork_pure]
          rfl

theorem answerInRoom_on (l : Logic) (n : Network) (s : SessionId) (responseId : UInt16)
    (result : RoomResult) :
    PacketProcessor.answerInRoom host (l.on n) s responseId result =
      l.on (onNetwork host (l.answerInRoom s responseId result) n).2 := by
  have hrooms : (l.on n).rooms = l.rooms := rfl
  unfold PacketProcessor.answerInRoom answerInRoom
  rw [hrooms]
  dsimp only
  rw [acted_on, onNetwork_bind]
  by_cases hresult : result = .success
  · simp only [if_pos hresult]
    rw [notifyRoomState_on]
  · simp only [if_neg hresult]
    rfl

theorem handleRoomReady_on :
    PacketProcessor.handleRoomReady host (l.on n) event =
      settled (onNetwork host (l.handleRoomReady event) n) := by
  have hrooms : (l.on n).rooms = l.rooms := rfl
  unfold PacketProcessor.handleRoomReady handleRoomReady
  rw [hrooms]
  cases RoomReadyRequest.decode event.body with
  | error fault => rfl
  | ok request =>
    have hset : ∀ rooms, { l.on n with rooms := rooms } = { l with rooms := rooms }.on n :=
      fun _ => rfl
    dsimp only
    rw [hset, answerInRoom_on, onNetwork_bind, onNetwork_pure]
    rfl

theorem handleRoomStart_on :
    PacketProcessor.handleRoomStart host (l.on n) event now =
      settled (onNetwork host (l.handleRoomStart event now) n) := by
  have hrooms : (l.on n).rooms = l.rooms := rfl
  unfold PacketProcessor.handleRoomStart handleRoomStart
  rw [hrooms]
  cases RoomStartRequest.decode event.body with
  | error fault => rfl
  | ok request =>
    have hset : ∀ rooms, { l.on n with rooms := rooms } = { l with rooms := rooms }.on n :=
      fun _ => rfl
    dsimp only
    rw [hset, answerInRoom_on, onNetwork_bind, onNetwork_pure]
    rfl

/-! ## Game requests -/

theorem handleGameMove_on :
    PacketProcessor.handleGameMove host (l.on n) event now =
      settledOr (onNetwork host (l.handleGameMove event now) n) := by
  have hrooms : (l.on n).rooms = l.rooms := rfl
  unfold PacketProcessor.handleGameMove handleGameMove
  rw [hrooms]
  cases GameMoveRequest.decode event.body with
  | error fault => rfl
  | ok request =>
    dsimp only
    cases l.rooms.placeStone event.session request.roomId request.game request.x.toNat
      request.y.toNat {} now with
    | error e => rfl
    | ok placed =>
      obtain ⟨result, accepted, rooms⟩ := placed
      have hplaced : { l.on n with rooms := rooms } = { l with rooms := rooms }.on n := rfl
      dsimp only
      show (if result ≠ .success then _ else _ : Except LogicError PacketProcessor) = _
      rw [hplaced]
      generalize { l with rooms := rooms } = l
      by_cases hresult : result ≠ .success
      · rw [if_pos hresult, if_pos hresult, sendGameMoveResult_on, onNetwork_bind, onNetwork_pure]
        rfl
      rw [if_neg hresult, if_neg hresult]
      dsimp only
      cases rooms.find accepted.room with
      | none => rfl
      | some room =>
        dsimp only
        cases (PacketProcessor.gameMove accepted).encode with
        | none =>
          dsimp only
          rw [@disconnectAll_on host, onNetwork_bind, onNetwork_pure]
          rfl
        | some body =>
          dsimp only
          rw [sendGameMoveResult_on]
          simp only [onNetwork_bind, onNetwork_pure]
          rw [broadcast_on]
          rfl

theorem handleGameResign_on :
    PacketProcessor.handleGameResign host (l.on n) event now =
      settledOr (onNetwork host (l.handleGameResign event now) n) := by
  have hrooms : (l.on n).rooms = l.rooms := rfl
  unfold PacketProcessor.handleGameResign handleGameResign
  rw [hrooms]
  cases GameResignRequest.decode event.body with
  | error fault => rfl
  | ok request =>
    dsimp only
    cases l.rooms.resign event.session request.roomId request.game now with
    | error e => rfl
    | ok resigned =>
      obtain ⟨result, rooms⟩ := resigned
      have hresigned : { l.on n with rooms := rooms } = { l with rooms := rooms }.on n := rfl
      dsimp only
      conv_lhs => dsimp only [bind, Except.bind]
      cases GameMoveResponse.encode { result := result, game := request.game } with
      | none => rfl
      | some body =>
        dsimp only
        rw [hresigned, sent_on, onNetwork_bind, onNetwork_pure]
        rfl

/-! ## Events -/

theorem returns_on {p : PacketProcessor} {program : Program INetwork Logic}
    (h : p = settled (onNetwork host program n)) :
    Except.ok p = settledOr (onNetwork host (returns program) n) := by
  unfold returns
  rw [h, onNetwork_bind, onNetwork_pure]
  rfl

theorem processPacket_on :
    PacketProcessor.processPacket host (l.on n) event now =
      settledOr (onNetwork host (l.processPacket host.multiByteToWideChar event now) n) := by
  unfold PacketProcessor.processPacket processPacket
  by_cases hid : event.packetId.toNat ≥ PacketProcessor.handlerCount
  · rw [if_pos hid, if_pos hid]
    rfl
  rw [if_neg hid, if_neg hid]
  unfold PacketProcessor.handler? handler?
  -- the two tables have the same rows
  by_cases h : event.packetId = loginReq
  · rw [if_pos h, if_pos h]
    exact returns_on handleLogin_on
  rw [if_neg h, if_neg h]
  by_cases h : event.packetId = echoReq
  · rw [if_pos h, if_pos h]
    exact returns_on handleEcho_on
  rw [if_neg h, if_neg h]
  by_cases h : event.packetId = chatReq
  · rw [if_pos h, if_pos h]
    exact returns_on handleChat_on
  rw [if_neg h, if_neg h]
  by_cases h : event.packetId = roomCreateReq
  · rw [if_pos h, if_pos h]
    exact handleRoomCreate_on
  rw [if_neg h, if_neg h]
  by_cases h : event.packetId = roomListReq
  · rw [if_pos h, if_pos h]
    exact returns_on handleRoomList_on
  rw [if_neg h, if_neg h]
  by_cases h : event.packetId = roomEnterReq
  · rw [if_pos h, if_pos h]
    exact returns_on handleRoomEnter_on
  rw [if_neg h, if_neg h]
  by_cases h : event.packetId = roomLeaveReq
  · rw [if_pos h, if_pos h]
    exact handleRoomLeave_on
  rw [if_neg h, if_neg h]
  by_cases h : event.packetId = roomReadyReq
  · rw [if_pos h, if_pos h]
    exact returns_on handleRoomReady_on
  rw [if_neg h, if_neg h]
  by_cases h : event.packetId = roomStartReq
  · rw [if_pos h, if_pos h]
    exact returns_on handleRoomStart_on
  rw [if_neg h, if_neg h]
  by_cases h : event.packetId = gameMoveReq
  · rw [if_pos h, if_pos h]
    exact handleGameMove_on
  rw [if_neg h, if_neg h]
  by_cases h : event.packetId = gameResignReq
  · rw [if_pos h, if_pos h]
    exact handleGameResign_on
  rw [if_neg h, if_neg h]
  rfl

theorem handleConnected_on :
    (l.on n).handleConnected event = settled (onNetwork host (l.handleConnected event) n) := by
  have hconnected : (l.on n).network.isConnected event.session = n.isConnected event.session := rfl
  unfold PacketProcessor.handleConnected handleConnected
  rw [onNetwork_bind, onNetwork_isConnected, hconnected]
  cases n.isConnected event.session with
  | false => rfl
  | true => rfl

theorem handleDisconnected_on (s : SessionId) :
    PacketProcessor.handleDisconnected host (l.on n) s now =
      settledOr (onNetwork host (l.handleDisconnected s now) n) := by
  have hrooms : (l.on n).rooms = l.rooms := rfl
  unfold PacketProcessor.handleDisconnected handleDisconnected
  dsimp only
  rw [hrooms]
  cases l.rooms.users.find s with
  | none => rfl
  | some user =>
    dsimp only
    cases l.rooms.leaveRoom s .disconnected now with
    | error e => rfl
    | ok left =>
      obtain ⟨result, rooms⟩ := left
      dsimp only
      generalize hlogic : ({ l with
        rooms := { rooms with users := rooms.users.remove s }
        loginDeadlines := l.loginDeadlines.erase s } : Logic) = l'
      have hleft : ({ l.on n with
          rooms := { rooms with users := rooms.users.remove s }
          loginDeadlines := (l.on n).loginDeadlines.erase s } : PacketProcessor) = l'.on n := by
        rw [← hlogic]
        rfl
      rw [onNetwork_bind]
      show (if result = .success then _ else _ : Except LogicError PacketProcessor) = _
      rw [hleft, flushFinishedGames_on]
      unfold settled
      by_cases hresult : result = .success
      · rw [if_pos hresult, if_pos hresult, notifyRoomMember_on, notifyRoomState_on]
        simp only [onNetwork_bind, onNetwork_pure]
        rfl
      · rw [if_neg hresult, if_neg hresult, onNetwork_pure]
        rfl

theorem checkLoginTimeouts_on (traversal : Traversal SessionId) :
    (l.on n).checkLoginTimeouts traversal now =
      settled (onNetwork host (l.checkLoginTimeouts traversal now) n) := by
  have hfold : ∀ (sessions : List SessionId) (l : Logic) (n : Network),
      sessions.foldl (PacketProcessor.checkLoginTimeout now) (l.on n) =
        settled (onNetwork host (checkLoginTimeoutsOf now sessions l) n) := by
    intro sessions
    induction sessions with
    | nil => exact fun _ _ => rfl
    | cons s sessions ih =>
      intro l n
      have hdeadlines : (l.on n).loginDeadlines = l.loginDeadlines := rfl
      rw [List.foldl_cons]
      unfold PacketProcessor.checkLoginTimeout checkLoginTimeoutsOf
      rw [hdeadlines]
      cases l.loginDeadlines[s]? with
      | none => exact ih l n
      | some deadline =>
        dsimp only
        by_cases hnow : now < deadline
        · rw [if_pos hnow, if_pos hnow]
          exact ih l n
        · rw [if_neg hnow, if_neg hnow, onNetwork_bind]
          exact ih { l with loginDeadlines := l.loginDeadlines.erase s } (n.disconnect s)
  exact hfold _ l n

/-! ## `Update` -/

theorem sweepRooms_on (traversal : Traversal RoomId) :
    PacketProcessor.sweepRooms host (l.on n) traversal now =
      settledOr (onNetwork host (l.sweepRooms traversal now) n) := by
  have hrooms : (l.on n).rooms = l.rooms := rfl
  unfold PacketProcessor.sweepRooms sweepRooms
  rw [hrooms]
  cases l.rooms.updateTimeouts traversal now with
  | error e => rfl
  | ok rooms =>
    have hswept : { l.on n with rooms := rooms } = { l with rooms := rooms }.on n := rfl
    refine returns_on ?_
    show PacketProcessor.flushFinishedGames host { l.on n with rooms := rooms } = _
    rw [hswept]
    exact flushFinishedGames_on

theorem beginUpdate_on (l : Logic) (n : Network) (traversal : Traversal RoomId) (now : Time) :
    PacketProcessor.beginUpdate host (l.on n) traversal now =
      settledOr (onNetwork host (l.beginUpdate traversal now) n) :=
  sweepRooms_on traversal

theorem handleEvent_on (l : Logic) (n : Network) (event : NetworkEvent) (loginNow gameNow : Time) :
    PacketProcessor.handleEvent host (l.on n) event loginNow gameNow =
      settledOr (onNetwork host (l.handleEvent host.multiByteToWideChar event loginNow gameNow) n) := by
  unfold PacketProcessor.handleEvent handleEvent
  cases event.type with
  | connected => exact returns_on handleConnected_on
  | disconnected => exact handleDisconnected_on _
  | packet =>
    have hexpired : (l.on n).isLoginExpired event.session loginNow =
        l.isLoginExpired event.session loginNow := rfl
    have hconnected : (l.on n).network.isConnected event.session = n.isConnected event.session :=
      rfl
    dsimp only
    rw [onNetwork_bind, onNetwork_isConnected, hconnected, hexpired]
    cases n.isConnected event.session with
    | false => rfl
    | true =>
      simp only [Bool.not_true, Bool.false_eq_true, if_false]
      cases l.isLoginExpired event.session loginNow with
      | true => rfl
      | false => exact processPacket_on

theorem endUpdate_on (l : Logic) (n : Network) (first second : Traversal SessionId × Time)
    (traversal : Traversal RoomId) (now : Time) :
    PacketProcessor.endUpdate host (l.on n) first second traversal now =
      settledOr (onNetwork host (l.endUpdate first second traversal now) n) := by
  unfold PacketProcessor.endUpdate endUpdate
  dsimp only
  rw [@checkLoginTimeouts_on host]
  unfold settled
  rw [@checkLoginTimeouts_on host]
  unfold settled
  rw [sweepRooms_on]
  simp only [onNetwork_bind]

end Logic
end SelectServer
