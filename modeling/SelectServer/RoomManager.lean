import SelectServer.Room

/- `RoomManager.h` and `RoomManager.cpp`. The C++ reference `m_users` is a field
   here, and a `Room&` into `m_rooms` is a value that is stored back under its key
   (`store`). A throw is `Except.error`. -/
namespace SelectServer
open Wire (Bytes)

/-- `std::chrono::seconds` in the units of the clock. -/
def seconds (n : Int) : Time := n * 1000000000

structure RoomConfig where
  maxRooms : Nat := 100
  capacity : Nat := 2
  turnTime : Time := seconds 300
  deriving DecidableEq, Repr

/-- What the constructor of `RoomManager` asks of its configuration. -/
def RoomConfig.Accepted (c : RoomConfig) : Prop :=
  c.maxRooms ≠ 0 ∧ c.capacity = roomPlayerCount ∧ 0 < c.turnTime

instance (c : RoomConfig) : Decidable c.Accepted :=
  inferInstanceAs (Decidable (_ ∧ _ ∧ _))

structure AcceptedMove where
  room : RoomId := invalidRoomId
  game : GameId := 0
  x : Int := 0
  y : Int := 0
  placedStone : GameStone := .empty
  nextTurn : GameStone := .empty
  status : GameState := .notStarted
  moveCount : Nat := 0
  deriving DecidableEq, Repr

structure FinishedGame where
  room : RoomId := invalidRoomId
  game : GameId := 0
  status : GameState := .notStarted
  reason : GameEndReason := .fiveInRow
  moveCount : Nat := 0
  targets : List SessionId := []
  deriving DecidableEq, Repr

/-- The order in which one loop over an `unordered_map` meets its entries. -/
structure Traversal (α : Type) where
  order : List α → List α
  perm : ∀ l, (order l).Perm l

/-- The order of the keys. -/
def Traversal.ascending {α : Type} : Traversal α := ⟨id, fun l => List.Perm.refl l⟩

structure RoomManager where
  users : UserManager
  config : { c : RoomConfig // c.Accepted }
  rooms : Map RoomId Room := ∅
  lastRoomId : RoomId := invalidRoomId
  finishedGames : List FinishedGame := []
  lastGameId : GameId := 0

namespace RoomManager

/-- The constructor. -/
def make (users : UserManager) (config : RoomConfig) : Except LogicError RoomManager :=
  if h : config.Accepted then .ok { users := users, config := ⟨config, h⟩ }
  else .error .invalidRoomConfiguration

def find (m : RoomManager) (roomId : RoomId) : Option Room := m.rooms[roomId]?

/-- What a `Room&` into `m_rooms` now holds. -/
def store (m : RoomManager) (key : RoomId) (room : Room) : RoomManager :=
  { m with rooms := m.rooms.insert key room }

/-- A write through the `User*` of a session. -/
def updateUser (m : RoomManager) (sessionId : SessionId) (user : User) : RoomManager :=
  { m with users := m.users.update sessionId user }

/-! ## Ending a game -/

def finishRoom (m : RoomManager) (room : Room) (reason : GameEndReason) :
    Except LogicError (RoomManager × Room) :=
  if room.phase ≠ .playing then .ok (m, room)
  else
    let status := room.game.status
    if status ≠ .blackWon ∧ status ≠ .whiteWon ∧ status ≠ .draw then .error .cannotFinish
    else
      let finished : FinishedGame :=
        { room := room.id
          status := status
          reason := reason
          moveCount := room.game.moveCount
          targets := room.members
          game := room.gameId }
      .ok ({ m with finishedGames := m.finishedGames ++ [finished] }, room.finishGame)

/-- Whether the turn had expired, and the room and the queue after that. -/
def expireRoom (m : RoomManager) (room : Room) (now : Time) :
    Except LogicError (Bool × RoomManager × Room) :=
  if !room.isTurnExpired now then .ok (false, m, room)
  else
    let loser := room.game.nextTurn
    let (forfeited, room) := room.forfeit loser
    if !forfeited then .error .couldNotResolveExpiredTurn
    else do
      let (m, room) ← m.finishRoom room .turnTimeout
      pure (true, m, room)

/-! ## Rooms and their members -/

/-- `IsValidTitle`; `wideChars` is `MultiByteToWideChar` for `CP_UTF8` with
`MB_ERR_INVALID_CHARS`, which returns 0 on bytes that are not UTF-8. -/
def isValidTitle (wideChars : Bytes → Nat) (title : Bytes) : Bool :=
  !title.isEmpty && title.length ≤ maxRoomTitleBytes &&
    title.all (fun ch => !(ch < 0x20 || ch == 0x7F)) && title.any (· != 0x20) &&
    wideChars title > 0

def createRoom (wideChars : Bytes → Nat) (m : RoomManager) (sessionId : SessionId)
    (title : Bytes) : Except LogicError (RoomResult × RoomId × RoomManager) :=
  match m.users.find sessionId with
  | none => .ok (.userNotFound, invalidRoomId, m)
  | some user =>
    if user.state ≠ .lobby then .ok (.alreadyInRoom, invalidRoomId, m)
    else if user.roomId ≠ invalidRoomId then .ok (.stateMismatch, invalidRoomId, m)
    else if !isValidTitle wideChars title then .ok (.invalidTitle, invalidRoomId, m)
    else if m.rooms.size ≥ m.config.val.maxRooms then .ok (.roomLimitReached, invalidRoomId, m)
    else if m.lastRoomId = 0xffffffff then .ok (.roomIdExhausted, invalidRoomId, m)
    else do
      let newRoomId := m.lastRoomId + 1
      let room ← Room.make newRoomId title m.config.val.capacity sessionId m.config.val.turnTime
      if (m.find newRoomId).isSome then
        pure (.stateMismatch, invalidRoomId, m)
      else
        pure (.success, newRoomId,
          { (m.store newRoomId room).updateUser sessionId (user.enterRoom newRoomId) with
            lastRoomId := newRoomId })

/-- The part of `LeaveRoom` that ends the game of the room, if one is on. -/
def closeGame (m : RoomManager) (sessionId : SessionId) (room : Room) (reason : GameEndReason)
    (now : Time) : Except LogicError (Bool × RoomManager × Room) := do
  -- a turn that has run out is settled first
  let (_, m, room) ← m.expireRoom room now
  if room.phase = .playing then
    let (forfeited, room) := room.forfeit (room.getPlayerStone sessionId)
    if !forfeited then pure (false, m, room)
    else do
      let (m, room) ← m.finishRoom room reason
      pure (true, m, room)
  else pure (true, m, room)

/-- The part of `LeaveRoom` that takes the member out of the room. -/
def takeOut (m : RoomManager) (sessionId : SessionId) (user : User) (room : Room) :
    RoomResult × RoomManager :=
  let (removed, room) := room.removeMember sessionId
  if !removed then (.stateMismatch, m.store user.roomId room)
  else
    let m := m.updateUser sessionId user.returnToLobby
    if room.members.isEmpty then (.success, { m with rooms := m.rooms.erase user.roomId })
    else (.success, m.store user.roomId room)

def leaveRoom (m : RoomManager) (sessionId : SessionId) (reason : GameEndReason) (now : Time) :
    Except LogicError (RoomResult × RoomManager) :=
  if reason ≠ .leftRoom ∧ reason ≠ .disconnected then .error .invalidLeaveReason
  else
    match m.users.find sessionId with
    | none => .ok (.userNotFound, m)
    | some user =>
      if user.state = .lobby then
        if user.roomId ≠ invalidRoomId then .ok (.stateMismatch, m) else .ok (.notInRoom, m)
      else
        match m.find user.roomId with
        | none => .ok (.stateMismatch, m)
        | some room =>
          if !room.contains sessionId then .ok (.stateMismatch, m)
          else do
            let (settled, m, room) ← m.closeGame sessionId room reason now
            if !settled then pure (.stateMismatch, m.store user.roomId room)
            else pure (m.takeOut sessionId user room)

def enterRoom (m : RoomManager) (sessionId : SessionId) (roomId : RoomId) :
    RoomResult × RoomManager :=
  match m.users.find sessionId with
  | none => (.userNotFound, m)
  | some user =>
    if user.state ≠ .lobby then (.alreadyInRoom, m)
    else if user.roomId ≠ invalidRoomId then (.stateMismatch, m)
    else
      match m.find roomId with
      | none => (.roomNotFound, m)
      | some room =>
        if room.phase = .playing then (.gameInProgress, m)
        else if room.contains sessionId then (.stateMismatch, m)
        else if room.members.length ≥ room.capacity then (.roomFull, m)
        else
          let (added, room) := room.addMember sessionId
          if !added then (.stateMismatch, m)
          else (.success, (m.store roomId room).updateUser sessionId (user.enterRoom roomId))

/-- One page of the room list, and whether more rooms follow. The sort makes the order of the
map's entries irrelevant. -/
def getRoomsAfter (m : RoomManager) (afterRoomId : RoomId) : List RoomInfo × Bool :=
  let infos := (m.rooms.values.filter fun room => !(room.id ≤ afterRoomId)).map fun room =>
    ({ roomId := room.id
       userCount := room.members.length.toUInt8
       capacity := room.capacity.toUInt8
       title := room.title } : RoomInfo)
  let result := infos.mergeSort fun a b => a.roomId ≤ b.roomId
  let hasMore : Bool := result.length > roomListPageSize
  (if hasMore then result.take roomListPageSize else result, hasMore)

/-! ## Games -/

/-- The room that a session in a room is found in, for `SetReady` and `StartGame`. -/
def roomOf (m : RoomManager) (sessionId : SessionId) : Except RoomResult (RoomId × Room) :=
  match m.users.find sessionId with
  | none => .error .userNotFound
  | some user =>
    if user.state ≠ .inRoom then .error .notInRoom
    else
      match m.find user.roomId with
      | none => .error .stateMismatch
      | some room =>
        if !room.contains sessionId then .error .stateMismatch else .ok (user.roomId, room)

def setReady (m : RoomManager) (sessionId : SessionId) (ready : Bool) :
    RoomResult × RoomManager :=
  match m.roomOf sessionId with
  | .error result => (result, m)
  | .ok (key, room) =>
    if room.phase = .playing then (.gameInProgress, m)
    else if room.hostSession = sessionId then (.hostCannotReady, m)
    else (.success, m.store key (room.setReady sessionId ready))

def startGame (m : RoomManager) (sessionId : SessionId) (now : Time) :
    RoomResult × RoomManager :=
  match m.roomOf sessionId with
  | .error result => (result, m)
  | .ok (key, room) =>
    if room.hostSession ≠ sessionId then (.notHost, m)
    else if room.phase = .playing then (.gameAlreadyStarted, m)
    else if room.members.length ≠ roomPlayerCount then (.notEnoughPlayers, m)
    else if !room.members.all (fun member => member == room.hostSession || room.isReady member) then
      (.notAllReady, m)
    else if m.lastGameId = 0xffffffff then (.gameIdExhausted, m)
    else
      let newGameId := m.lastGameId + 1
      (.success, { m.store key (room.startGame newGameId now) with lastGameId := newGameId })

/-- The room that `PlaceStone` and `Resign` act on: the requested one, if the session is in it
and the requested game is its current one. -/
def gameRoomOf (m : RoomManager) (sessionId : SessionId) (requestedRoomId : RoomId)
    (requestedGameId : GameId) : Except GameMoveResult (RoomId × Room) :=
  match m.users.find sessionId with
  | none => .error .notLoggedIn
  | some user =>
    if user.state ≠ .inRoom then .error .notInRoom
    else if user.roomId ≠ requestedRoomId then .error .wrongRoom
    else
      match m.find user.roomId with
      | none => .error .stateMismatch
      | some room =>
        if !room.contains sessionId then .error .stateMismatch
        else if requestedGameId = 0 ∨ requestedGameId ≠ room.gameId then .error .staleGame
        else .ok (user.roomId, room)

/-- What `PlaceStone` answers for a stone the room did not take. -/
def rejection : MoveResult → Option GameMoveResult
  | .gameNotRunning => some .gameNotRunning
  | .outOfBounds => some .outOfBounds
  | .notYourTurn => some .notYourTurn
  | .occupied => some .occupied
  | .invalidStone => some .stateMismatch
  | .success => none

def placeStone (m : RoomManager) (sessionId : SessionId) (requestedRoomId : RoomId)
    (requestedGameId : GameId) (x y : Int) (out : AcceptedMove) (now : Time) :
    Except LogicError (GameMoveResult × AcceptedMove × RoomManager) :=
  match m.gameRoomOf sessionId requestedRoomId requestedGameId with
  | .error result => .ok (result, out, m)
  | .ok (key, room) => do
    let (expired, m, room) ← m.expireRoom room now
    if expired then pure (.gameNotRunning, out, m.store key room)
    else do
      -- the source asks twice
      let (expired, m, room) ← m.expireRoom room now
      if expired then pure (.gameNotRunning, out, m.store key room)
      else
        let stone := room.getPlayerStone sessionId
        let (result, room) := room.placeStone sessionId x y now
        match rejection result with
        | some result => pure (result, out, m.store key room)
        | none =>
          let accepted : AcceptedMove :=
            { room := room.id
              x := x
              y := y
              placedStone := stone
              nextTurn := room.game.nextTurn
              status := room.game.status
              moveCount := room.game.moveCount
              game := room.gameId }
          if accepted.status = .blackWon ∨ accepted.status = .whiteWon then do
            let (m, room) ← m.finishRoom room .fiveInRow
            pure (.success, accepted, m.store key room)
          else if accepted.status = .draw then do
            let (m, room) ← m.finishRoom room .boardFull
            pure (.success, accepted, m.store key room)
          else pure (.success, accepted, m.store key room)

def resign (m : RoomManager) (sessionId : SessionId) (requestedRoomId : RoomId)
    (requestedGameId : GameId) (now : Time) : Except LogicError (GameMoveResult × RoomManager) :=
  match m.gameRoomOf sessionId requestedRoomId requestedGameId with
  | .error result => .ok (result, m)
  | .ok (key, room) => do
    let (expired, m, room) ← m.expireRoom room now
    if expired then pure (.gameNotRunning, m.store key room)
    else if room.phase ≠ .playing ∨ room.game.status ≠ .playing then
      pure (.gameNotRunning, m.store key room)
    else
      let (forfeited, room) := room.forfeit (room.getPlayerStone sessionId)
      if !forfeited then pure (.stateMismatch, m.store key room)
      else do
        let (m, room) ← m.finishRoom room .resigned
        pure (.success, m.store key room)

/-- One turn of the loop in `UpdateTimeouts`. -/
def expireAt (now : Time) (m : RoomManager) (key : RoomId) : Except LogicError RoomManager :=
  match m.find key with
  | none => pure m
  | some room => do
    let (_, m, room) ← m.expireRoom room now
    pure (m.store key room)

def updateTimeouts (m : RoomManager) (traversal : Traversal RoomId) (now : Time) :
    Except LogicError RoomManager :=
  (traversal.order m.rooms.keys).foldlM (expireAt now) m

def tryPopFinishedGame (m : RoomManager) : Option FinishedGame × RoomManager :=
  match m.finishedGames with
  | [] => (none, m)
  | finished :: rest => (some finished, { m with finishedGames := rest })

end RoomManager
end SelectServer
