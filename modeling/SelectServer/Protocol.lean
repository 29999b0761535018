import SelectServer.Lib.Cursor

/- The wire protocol shared by server and client: the packet ids and limits of
   `PacketID.h`, `PacketProtocol.h`, and the message types of `PacketMessages.h`,
   `RoomPackets.h` and `GamePackets.h`. A `std::string` is its bytes. An
   enumeration is an inductive type with the byte it has on the wire (`code`)
   and the enumerator a byte stands for (`ofCode?`), if any. -/
namespace SelectServer
open Wire (Bytes)

abbrev SessionId := UInt64
abbrev RoomId := UInt32
abbrev GameId := UInt32

/-- A reading of `steady_clock`, in its own units from its own epoch. No sum of them overflows here: the
64 bits of the clock last for centuries. -/
abbrev Time := Int

/-! ## `PacketProtocol.h` -/

def headerSize : Nat := 4
/-- The largest packet, header included. -/
def maxPacketSize : Nat := 4096
def maxNicknameBytes : Nat := 16
def maxChatMessageBytes : Nat := 256

inductive LoginResult where
  | success | invalidNickname | nicknameInUse | alreadyLoggedIn
  deriving DecidableEq, Repr

def LoginResult.code : LoginResult → UInt8
  | success => 0
  | invalidNickname => 1
  | nicknameInUse => 2
  | alreadyLoggedIn => 3

def LoginResult.ofCode? (b : UInt8) : Option LoginResult :=
  match b.toNat with
  | 0 => some success
  | 1 => some invalidNickname
  | 2 => some nicknameInUse
  | 3 => some alreadyLoggedIn
  | _ => none

inductive ChatResult where
  | success | notLoggedIn | invalidMessage | notInRoom | stateMismatch
  deriving DecidableEq, Repr

def ChatResult.code : ChatResult → UInt8
  | success => 0
  | notLoggedIn => 1
  | invalidMessage => 2
  | notInRoom => 3
  | stateMismatch => 4

def ChatResult.ofCode? (b : UInt8) : Option ChatResult :=
  match b.toNat with
  | 0 => some success
  | 1 => some notLoggedIn
  | 2 => some invalidMessage
  | 3 => some notInRoom
  | 4 => some stateMismatch
  | _ => none

/-! ## `PacketID.h` -/

def loginReq : UInt16 := 1
def loginRes : UInt16 := 2
def echoReq : UInt16 := 3
def echoRes : UInt16 := 4
def chatReq : UInt16 := 5
def chatRes : UInt16 := 6
def chatNtf : UInt16 := 7
def roomCreateReq : UInt16 := 20
def roomCreateRes : UInt16 := 21
def roomListReq : UInt16 := 22
def roomListRes : UInt16 := 23
def roomEnterReq : UInt16 := 24
def roomEnterRes : UInt16 := 25
def roomLeaveReq : UInt16 := 26
def roomLeaveRes : UInt16 := 27
def roomMemberNtf : UInt16 := 28
def roomReadyReq : UInt16 := 29
def roomReadyRes : UInt16 := 30
def roomStartReq : UInt16 := 31
def roomStartRes : UInt16 := 32
def roomStateNtf : UInt16 := 33
def gameMoveReq : UInt16 := 40
def gameMoveRes : UInt16 := 41
def gameMoveNtf : UInt16 := 42
def gameResignReq : UInt16 := 43
def gameResignRes : UInt16 := 44
def gameEndNtf : UInt16 := 45

/-! ## `PacketMessages.h` -/

structure LoginRequest where
  nickname : Bytes
  deriving DecidableEq, Repr

structure LoginResponse where
  result : LoginResult
  deriving DecidableEq, Repr

structure ChatRequest where
  message : Bytes
  deriving DecidableEq, Repr

structure ChatResponse where
  result : ChatResult
  deriving DecidableEq, Repr

structure ChatNotification where
  nickname : Bytes
  message : Bytes
  deriving DecidableEq, Repr

/-! ## `RoomPackets.h` -/

def maxRoomTitleBytes : Nat := 48
def roomListPageSize : Nat := 20
def roomPlayerCount : Nat := 2

inductive RoomResult where
  | success | userNotFound | alreadyInRoom | notInRoom | invalidTitle | roomLimitReached
  | roomIdExhausted | stateMismatch | roomNotFound | roomFull | invalidRequest | notHost
  | hostCannotReady | notEnoughPlayers | notAllReady | gameAlreadyStarted | gameInProgress
  | gameIdExhausted
  deriving DecidableEq, Repr

def RoomResult.code : RoomResult → UInt8
  | success => 0
  | userNotFound => 1
  | alreadyInRoom => 2
  | notInRoom => 3
  | invalidTitle => 4
  | roomLimitReached => 5
  | roomIdExhausted => 6
  | stateMismatch => 7
  | roomNotFound => 8
  | roomFull => 9
  | invalidRequest => 10
  | notHost => 11
  | hostCannotReady => 12
  | notEnoughPlayers => 13
  | notAllReady => 14
  | gameAlreadyStarted => 15
  | gameInProgress => 16
  | gameIdExhausted => 17

def RoomResult.ofCode? (b : UInt8) : Option RoomResult :=
  match b.toNat with
  | 0 => some success
  | 1 => some userNotFound
  | 2 => some alreadyInRoom
  | 3 => some notInRoom
  | 4 => some invalidTitle
  | 5 => some roomLimitReached
  | 6 => some roomIdExhausted
  | 7 => some stateMismatch
  | 8 => some roomNotFound
  | 9 => some roomFull
  | 10 => some invalidRequest
  | 11 => some notHost
  | 12 => some hostCannotReady
  | 13 => some notEnoughPlayers
  | 14 => some notAllReady
  | 15 => some gameAlreadyStarted
  | 16 => some gameInProgress
  | 17 => some gameIdExhausted
  | _ => none

structure RoomCreateRequest where
  title : Bytes
  deriving DecidableEq, Repr

/-- The answer to every room request but the list: all share one body. -/
structure RoomActionResponse where
  result : RoomResult := .success
  roomId : RoomId := 0
  deriving DecidableEq, Repr

structure RoomListRequest where
  afterRoomId : RoomId
  deriving DecidableEq, Repr

structure RoomInfo where
  roomId : RoomId
  userCount : UInt8
  capacity : UInt8
  title : Bytes
  deriving DecidableEq, Repr

structure RoomListResponse where
  result : RoomResult := .success
  hasMore : Bool := false
  rooms : List RoomInfo := []
  deriving DecidableEq, Repr

structure RoomEnterRequest where
  roomId : RoomId
  deriving DecidableEq, Repr

structure RoomLeaveRequest where
  deriving DecidableEq, Repr

inductive RoomMemberChange where
  | joined | left | disconnected
  deriving DecidableEq, Repr

def RoomMemberChange.code : RoomMemberChange → UInt8
  | joined => 1
  | left => 2
  | disconnected => 3

def RoomMemberChange.ofCode? (b : UInt8) : Option RoomMemberChange :=
  match b.toNat with
  | 1 => some joined
  | 2 => some left
  | 3 => some disconnected
  | _ => none

structure RoomMemberNotification where
  roomId : RoomId
  change : RoomMemberChange
  nickname : Bytes
  deriving DecidableEq, Repr

inductive RoomPhase where
  | waiting | playing
  deriving DecidableEq, Repr

def RoomPhase.code : RoomPhase → UInt8
  | waiting => 0
  | playing => 1

def RoomPhase.ofCode? (b : UInt8) : Option RoomPhase :=
  match b.toNat with
  | 0 => some waiting
  | 1 => some playing
  | _ => none

structure RoomReadyRequest where
  ready : Bool
  deriving DecidableEq, Repr

structure RoomStartRequest where
  deriving DecidableEq, Repr

structure RoomPlayerInfo where
  nickname : Bytes
  ready : Bool
  deriving DecidableEq, Repr

structure RoomStateNotification where
  roomId : RoomId
  game : GameId
  phase : RoomPhase
  capacity : UInt8
  hostNickname : Bytes
  players : List RoomPlayerInfo
  deriving DecidableEq, Repr

/-! ## `GamePackets.h` -/

abbrev gameBoardSize : Nat := 15

inductive GameStone where
  | empty | black | white
  deriving DecidableEq, Repr

def GameStone.code : GameStone → UInt8
  | empty => 0
  | black => 1
  | white => 2

def GameStone.ofCode? (b : UInt8) : Option GameStone :=
  match b.toNat with
  | 0 => some empty
  | 1 => some black
  | 2 => some white
  | _ => none

/-- The stone that moves after a black or a white one. -/
def GameStone.other : GameStone → GameStone
  | black => white
  | _ => black

inductive GameState where
  | notStarted | playing | blackWon | whiteWon | draw
  deriving DecidableEq, Repr

def GameState.code : GameState → UInt8
  | notStarted => 0
  | playing => 1
  | blackWon => 2
  | whiteWon => 3
  | draw => 4

def GameState.ofCode? (b : UInt8) : Option GameState :=
  match b.toNat with
  | 0 => some notStarted
  | 1 => some playing
  | 2 => some blackWon
  | 3 => some whiteWon
  | 4 => some draw
  | _ => none

inductive GameMoveResult where
  | success | notLoggedIn | notInRoom | wrongRoom | gameNotRunning | outOfBounds | notYourTurn
  | occupied | stateMismatch | staleGame
  deriving DecidableEq, Repr

def GameMoveResult.code : GameMoveResult → UInt8
  | success => 0
  | notLoggedIn => 1
  | notInRoom => 2
  | wrongRoom => 3
  | gameNotRunning => 4
  | outOfBounds => 5
  | notYourTurn => 6
  | occupied => 7
  | stateMismatch => 8
  | staleGame => 9

def GameMoveResult.ofCode? (b : UInt8) : Option GameMoveResult :=
  match b.toNat with
  | 0 => some success
  | 1 => some notLoggedIn
  | 2 => some notInRoom
  | 3 => some wrongRoom
  | 4 => some gameNotRunning
  | 5 => some outOfBounds
  | 6 => some notYourTurn
  | 7 => some occupied
  | 8 => some stateMismatch
  | 9 => some staleGame
  | _ => none

structure GameMoveRequest where
  roomId : RoomId
  game : GameId
  x : UInt8
  y : UInt8
  deriving DecidableEq, Repr

/-- `GameResignResponse` is an alias of this type in the source. -/
structure GameMoveResponse where
  result : GameMoveResult
  game : GameId
  deriving DecidableEq, Repr

structure GameMoveNotification where
  roomId : RoomId
  game : GameId
  x : UInt8
  y : UInt8
  placedStone : GameStone
  nextTurn : GameStone
  state : GameState
  moveCount : UInt32
  deriving DecidableEq, Repr

inductive GameEndReason where
  | fiveInRow | boardFull | resigned | turnTimeout | leftRoom | disconnected
  deriving DecidableEq, Repr

def GameEndReason.code : GameEndReason → UInt8
  | fiveInRow => 1
  | boardFull => 2
  | resigned => 3
  | turnTimeout => 4
  | leftRoom => 5
  | disconnected => 6

def GameEndReason.ofCode? (b : UInt8) : Option GameEndReason :=
  match b.toNat with
  | 1 => some fiveInRow
  | 2 => some boardFull
  | 3 => some resigned
  | 4 => some turnTimeout
  | 5 => some leftRoom
  | 6 => some disconnected
  | _ => none

structure GameResignRequest where
  roomId : RoomId
  game : GameId
  deriving DecidableEq, Repr

structure GameEndNotification where
  roomId : RoomId
  game : GameId
  state : GameState
  reason : GameEndReason
  moveCount : UInt32
  deriving DecidableEq, Repr

/-! ## A code names one enumerator -/

@[simp] theorem LoginResult.ofCode_code (r : LoginResult) : ofCode? r.code = some r := by
  cases r <;> rfl
@[simp] theorem ChatResult.ofCode_code (r : ChatResult) : ofCode? r.code = some r := by
  cases r <;> rfl
@[simp] theorem RoomResult.ofCode_code (r : RoomResult) : ofCode? r.code = some r := by
  cases r <;> rfl
@[simp] theorem RoomMemberChange.ofCode_code (c : RoomMemberChange) :
    ofCode? c.code = some c := by
  cases c <;> rfl
@[simp] theorem RoomPhase.ofCode_code (p : RoomPhase) : ofCode? p.code = some p := by
  cases p <;> rfl
@[simp] theorem GameStone.ofCode_code (s : GameStone) : ofCode? s.code = some s := by
  cases s <;> rfl
@[simp] theorem GameState.ofCode_code (s : GameState) : ofCode? s.code = some s := by
  cases s <;> rfl
@[simp] theorem GameMoveResult.ofCode_code (r : GameMoveResult) : ofCode? r.code = some r := by
  cases r <;> rfl
@[simp] theorem GameEndReason.ofCode_code (r : GameEndReason) : ofCode? r.code = some r := by
  cases r <;> rfl

end SelectServer
