import SelectServer.Protocol

/- The codecs of `PacketUtils.h`, `PacketCode.h`, `RoomPacketCodec.h` and
   `GamePacketCodec.h`. `encode` is none where the source's `Encode` returns
   false, and `decode` is `.error .reject` where `Decode` returns false; the
   other two faults are an index outside the body and an unsigned subtraction
   that wraps, which the source leaves to its checks to exclude.

   A byte is cast to an enumeration by `cast`. The source casts any byte and
   then rejects, in the validity check that follows, every value that is no
   enumerator; a byte without an enumerator is rejected here at the cast. -/
namespace SelectServer
open Wire

/-! ## `PacketUtils.h` -/

def readUInt16 (high low : UInt8) : UInt16 := (high.toUInt16 <<< 8) ||| low.toUInt16

def writeUInt16 (value : UInt16) : Bytes :=
  [((value >>> 8) &&& 0xFF).toUInt8, (value &&& 0xFF).toUInt8]

/-! ## `RoomCodecDetail` -/

structure Writer where
  body : Bytes := []

namespace Writer

def u8 (w : Writer) (value : UInt8) : Writer := ⟨w.body ++ [value]⟩

def u32 (w : Writer) (value : UInt32) : Writer :=
  ([24, 16, 8, 0] : List UInt32).foldl (fun w shift => w.u8 ((value >>> shift) &&& 0xFF).toUInt8) w

def text8 (w : Writer) (text : Bytes) : Option Writer :=
  if text.length > 255 then none
  else some ⟨(w.u8 (UInt8.ofNat text.length)).body ++ text⟩

def finish (w : Writer) : Option Bytes :=
  if w.body.length > maxPacketSize - headerSize then none else some w.body

end Writer

namespace Reader
open Decoder

def u8 : Decoder UInt8 := do
  require ((← position) < (← size))
  next

def u32 : Decoder UInt32 := do
  require (4 ≤ (← remaining))
  let bytes ← take 4
  return bytes.foldl (fun value b => (value <<< 8) ||| b.toUInt32) 0

def text8 : Decoder Bytes := do
  let size ← u8
  require (size.toNat ≤ (← remaining))
  take size.toNat

def done : Decoder Unit := do
  require ((← position) == (← size))

/-- `static_cast` to an enumeration; see the head of this file. -/
def cast {α : Type} : Option α → Decoder α
  | some a => return a
  | none => reject

def readResult : Decoder RoomResult := do
  let value ← u8
  require (value ≤ RoomResult.gameIdExhausted.code)
  cast (RoomResult.ofCode? value)

end Reader

open Decoder Reader

/-! ## `PacketCode.h` -/

def LoginRequest.encode (p : LoginRequest) : Bytes := p.nickname

def LoginRequest.decode (body : Bytes) : Except Fault LoginRequest :=
  if body.length > maxPacketSize - headerSize then .error .reject else .ok ⟨body⟩

def LoginResponse.encode (p : LoginResponse) : Bytes := [p.result.code]

def LoginResponse.decode (body : Bytes) : Except Fault LoginResponse :=
  Decoder.run (do
    require ((← size) == 1)
    let value ← next
    return ⟨← cast (LoginResult.ofCode? value)⟩) body

def ChatRequest.encode (p : ChatRequest) : Bytes := p.message

def ChatRequest.decode (body : Bytes) : Except Fault ChatRequest :=
  if body.length > maxPacketSize - headerSize then .error .reject else .ok ⟨body⟩

def ChatResponse.encode (p : ChatResponse) : Bytes := [p.result.code]

def ChatResponse.decode (body : Bytes) : Except Fault ChatResponse :=
  Decoder.run (do
    require ((← size) == 1)
    let value ← next
    return ⟨← cast (ChatResult.ofCode? value)⟩) body

def ChatNotification.encode (p : ChatNotification) : Option Bytes :=
  let nicknameSize := p.nickname.length
  let messageSize := p.message.length
  if nicknameSize = 0 ∨ nicknameSize > maxNicknameBytes ∨ nicknameSize > 255 then none
  else if messageSize = 0 ∨ messageSize > maxChatMessageBytes ∨ messageSize > 65535 then none
  else if 1 + nicknameSize + 2 + messageSize > maxPacketSize - headerSize then none
  else some (UInt8.ofNat nicknameSize :: p.nickname ++
    (writeUInt16 (UInt16.ofNat messageSize) ++ p.message))

def ChatNotification.decode (body : Bytes) : Except Fault ChatNotification :=
  Decoder.run (do
    require (3 ≤ (← size) && (← size) ≤ maxPacketSize - headerSize)
    let nicknameSize ← next
    require (nicknameSize != 0 && nicknameSize.toNat ≤ maxNicknameBytes)
    require (nicknameSize.toNat + 2 ≤ (← remaining))
    let nickname ← take nicknameSize.toNat
    let messageSize := readUInt16 (← next) (← next)
    require (messageSize != 0 && messageSize.toNat ≤ maxChatMessageBytes)
    require ((← remaining) == messageSize.toNat)
    let message ← take messageSize.toNat
    return ⟨nickname, message⟩) body

/-! ## `RoomPacketCodec.h` -/

def RoomCreateRequest.encode (p : RoomCreateRequest) : Option Bytes := do
  let writer ← ({} : Writer).text8 p.title
  writer.finish

def RoomCreateRequest.decode (body : Bytes) : Except Fault RoomCreateRequest :=
  Decoder.run (do
    let title ← text8
    done
    return ⟨title⟩) body

def RoomActionResponse.encode (p : RoomActionResponse) : Option Bytes :=
  ((({} : Writer).u8 p.result.code).u32 p.roomId).finish

def RoomActionResponse.decode (body : Bytes) : Except Fault RoomActionResponse :=
  Decoder.run (do
    let result ← readResult
    let roomId ← u32
    done
    let success := result == .success
    require !((success && roomId == 0) || (!success && roomId != 0))
    return ⟨result, roomId⟩) body

def RoomListRequest.encode (p : RoomListRequest) : Option Bytes :=
  (({} : Writer).u32 p.afterRoomId).finish

def RoomListRequest.decode (body : Bytes) : Except Fault RoomListRequest :=
  Decoder.run (do
    let afterRoomId ← u32
    done
    return ⟨afterRoomId⟩) body

def RoomEnterRequest.encode (p : RoomEnterRequest) : Option Bytes :=
  (({} : Writer).u32 p.roomId).finish

def RoomEnterRequest.decode (body : Bytes) : Except Fault RoomEnterRequest :=
  Decoder.run (do
    let roomId ← u32
    done
    return ⟨roomId⟩) body

/-- The check both `Encode` and `Decode` of the list make on each room. -/
def RoomInfo.rejected (room : RoomInfo) (previousId : RoomId) : Bool :=
  room.roomId ≤ previousId || room.capacity == 0 || room.userCount > room.capacity ||
    room.title.isEmpty || room.title.length > maxRoomTitleBytes

def RoomListResponse.encodeRooms : List RoomInfo → RoomId → Writer → Option Writer
  | [], _, writer => some writer
  | room :: rooms, previousId, writer =>
    if room.rejected previousId then none
    else do
      let writer ← (((writer.u32 room.roomId).u8 room.userCount).u8 room.capacity).text8 room.title
      encodeRooms rooms room.roomId writer

def RoomListResponse.encode (p : RoomListResponse) : Option Bytes :=
  if p.rooms.length > roomListPageSize then none
  else if p.result ≠ .success ∧ (p.rooms ≠ [] ∨ p.hasMore) then none
  else if p.hasMore ∧ p.rooms = [] then none
  else do
    let writer := (({} : Writer).u8 p.result.code).u8 (if p.hasMore then 1 else 0)
    let writer ← encodeRooms p.rooms 0 (writer.u8 (UInt8.ofNat p.rooms.length))
    writer.finish

def RoomListResponse.decodeRooms : Nat → RoomId → Decoder (List RoomInfo)
  | 0, _ => return []
  | count + 1, previousId => do
    let roomId ← u32
    let userCount ← u8
    let capacity ← u8
    let title ← text8
    let room : RoomInfo := ⟨roomId, userCount, capacity, title⟩
    require !(room.rejected previousId)
    return room :: (← decodeRooms count roomId)

def RoomListResponse.decode (body : Bytes) : Except Fault RoomListResponse :=
  Decoder.run (do
    let result ← readResult
    let hasMore ← u8
    let count ← u8
    require (hasMore ≤ 1 && count.toNat ≤ roomListPageSize)
    require !(result != .success && (count != 0 || hasMore != 0))
    require !(hasMore != 0 && count == 0)
    let rooms ← decodeRooms count.toNat 0
    done
    return ⟨result, hasMore != 0, rooms⟩) body

def RoomLeaveRequest.encode (_ : RoomLeaveRequest) : Option Bytes := some []

def RoomLeaveRequest.decode (body : Bytes) : Except Fault RoomLeaveRequest :=
  if body.isEmpty then .ok {} else .error .reject

def RoomMemberNotification.encode (p : RoomMemberNotification) : Option Bytes :=
  if p.roomId = 0 ∨ p.nickname = [] ∨ p.nickname.length > maxNicknameBytes then none
  else do
    let writer ← ((({} : Writer).u32 p.roomId).u8 p.change.code).text8 p.nickname
    writer.finish

def RoomMemberNotification.decode (body : Bytes) : Except Fault RoomMemberNotification :=
  Decoder.run (do
    let roomId ← u32
    let change ← u8
    let nickname ← text8
    done
    require !(roomId == 0 || nickname.isEmpty || nickname.length > maxNicknameBytes)
    let change ← cast (RoomMemberChange.ofCode? change)
    return ⟨roomId, change, nickname⟩) body

def RoomReadyRequest.encode (p : RoomReadyRequest) : Option Bytes :=
  (({} : Writer).u8 (if p.ready then 1 else 0)).finish

def RoomReadyRequest.decode (body : Bytes) : Except Fault RoomReadyRequest :=
  Decoder.run (do
    let ready ← u8
    require (ready ≤ 1)
    done
    return ⟨ready != 0⟩) body

def RoomStartRequest.encode (_ : RoomStartRequest) : Option Bytes := some []

def RoomStartRequest.decode (body : Bytes) : Except Fault RoomStartRequest :=
  if body.isEmpty then .ok {} else .error .reject

/-- The loop of `IsValidRoomState` over the players, with its `names` and `hostFound`. -/
def RoomStateNotification.checkPlayers (p : RoomStateNotification) :
    List RoomPlayerInfo → List Bytes → Bool → Bool
  | [], _, hostFound => hostFound
  | player :: players, names, hostFound =>
    if player.nickname.isEmpty || player.nickname.length > maxNicknameBytes ||
        names.contains player.nickname then false
    else if player.nickname == p.hostNickname && player.ready then false
    else if p.phase == .playing && player.ready then false
    else checkPlayers p players (player.nickname :: names)
      (hostFound || player.nickname == p.hostNickname)

def isValidRoomState (p : RoomStateNotification) : Bool :=
  if p.roomId = 0 ∨ p.capacity.toNat ≠ roomPlayerCount ∨ p.players = [] ∨
      p.players.length > roomPlayerCount ∨ p.hostNickname = [] ∨
      p.hostNickname.length > maxNicknameBytes then false
  else if p.phase = .playing ∧ p.players.length ≠ roomPlayerCount then false
  else if p.phase = .playing ∧ p.game = 0 then false
  else p.checkPlayers p.players [] false

def RoomStateNotification.encodePlayers : List RoomPlayerInfo → Writer → Option Writer
  | [], writer => some writer
  | player :: players, writer => do
    let writer ← writer.text8 player.nickname
    encodePlayers players (writer.u8 (if player.ready then 1 else 0))

def RoomStateNotification.encode (p : RoomStateNotification) : Option Bytes :=
  if !isValidRoomState p then none
  else do
    let writer := (((({} : Writer).u32 p.roomId).u32 p.game).u8 p.phase.code).u8 p.capacity
    let writer ← writer.text8 p.hostNickname
    let writer ← encodePlayers p.players (writer.u8 (UInt8.ofNat p.players.length))
    writer.finish

def RoomStateNotification.decodePlayers : Nat → Decoder (List RoomPlayerInfo)
  | 0 => return []
  | count + 1 => do
    let nickname ← text8
    let ready ← u8
    require (ready ≤ 1)
    return ⟨nickname, ready != 0⟩ :: (← decodePlayers count)

def RoomStateNotification.decode (body : Bytes) : Except Fault RoomStateNotification :=
  Decoder.run (do
    let roomId ← u32
    let game ← u32
    let phase ← u8
    let capacity ← u8
    let hostNickname ← text8
    let count ← u8
    require !(count == 0 || count.toNat > roomPlayerCount)
    let players ← decodePlayers count.toNat
    done
    let phase ← cast (RoomPhase.ofCode? phase)
    let decoded : RoomStateNotification := ⟨roomId, game, phase, capacity, hostNickname, players⟩
    require (isValidRoomState decoded)
    return decoded) body

/-! ## `GamePacketCodec.h` -/

def GameMoveRequest.encode (p : GameMoveRequest) : Option Bytes :=
  ((((({} : Writer).u32 p.roomId).u32 p.game).u8 p.x).u8 p.y).finish

def GameMoveRequest.decode (body : Bytes) : Except Fault GameMoveRequest :=
  Decoder.run (do
    let roomId ← u32
    let game ← u32
    let x ← u8
    let y ← u8
    done
    return ⟨roomId, game, x, y⟩) body

def GameMoveResponse.encode (p : GameMoveResponse) : Option Bytes :=
  ((({} : Writer).u8 p.result.code).u32 p.game).finish

def GameMoveResponse.decode (body : Bytes) : Except Fault GameMoveResponse :=
  Decoder.run (do
    let result ← u8
    require (result ≤ GameMoveResult.staleGame.code)
    let game ← u32
    done
    let result ← cast (GameMoveResult.ofCode? result)
    return ⟨result, game⟩) body

def isValidGameMove (p : GameMoveNotification) : Bool :=
  if p.roomId = 0 ∨ p.game = 0 ∨ p.x.toNat ≥ gameBoardSize ∨ p.y.toNat ≥ gameBoardSize ∨
      p.moveCount = 0 ∨ p.moveCount.toNat > gameBoardSize * gameBoardSize then false
  else if p.placedStone ≠ .black ∧ p.placedStone ≠ .white then false
  else match p.state with
    | .playing => p.moveCount.toNat < gameBoardSize * gameBoardSize &&
        p.nextTurn == (if p.placedStone = .black then .white else .black)
    | .blackWon => p.placedStone == .black && p.nextTurn == .empty
    | .whiteWon => p.placedStone == .white && p.nextTurn == .empty
    | .draw => p.nextTurn == .empty && p.moveCount.toNat == gameBoardSize * gameBoardSize
    | .notStarted => false

def GameMoveNotification.encode (p : GameMoveNotification) : Option Bytes :=
  if !isValidGameMove p then none
  else ((((((((({} : Writer).u32 p.roomId).u32 p.game).u8 p.x).u8 p.y).u8 p.placedStone.code).u8
    p.nextTurn.code).u8 p.state.code).u32 p.moveCount).finish

def GameMoveNotification.decode (body : Bytes) : Except Fault GameMoveNotification :=
  Decoder.run (do
    let roomId ← u32
    let game ← u32
    let x ← u8
    let y ← u8
    let placed ← u8
    let next ← u8
    let state ← u8
    let moveCount ← u32
    done
    let placed ← cast (GameStone.ofCode? placed)
    let next ← cast (GameStone.ofCode? next)
    let state ← cast (GameState.ofCode? state)
    let decoded : GameMoveNotification := ⟨roomId, game, x, y, placed, next, state, moveCount⟩
    require (isValidGameMove decoded)
    return decoded) body

def GameResignRequest.encode (p : GameResignRequest) : Option Bytes :=
  ((({} : Writer).u32 p.roomId).u32 p.game).finish

def GameResignRequest.decode (body : Bytes) : Except Fault GameResignRequest :=
  Decoder.run (do
    let roomId ← u32
    let game ← u32
    done
    return ⟨roomId, game⟩) body

def isValidGameEnd (p : GameEndNotification) : Bool :=
  if p.roomId = 0 ∨ p.game = 0 ∨ p.moveCount.toNat > gameBoardSize * gameBoardSize then false
  else
    let hasWinner := p.state == .blackWon || p.state == .whiteWon
    match p.reason with
    | .fiveInRow => hasWinner
    | .boardFull => p.state == .draw && p.moveCount.toNat == gameBoardSize * gameBoardSize
    | .resigned | .turnTimeout | .leftRoom | .disconnected => hasWinner

def GameEndNotification.encode (p : GameEndNotification) : Option Bytes :=
  if !isValidGameEnd p then none
  else (((((({} : Writer).u32 p.roomId).u32 p.game).u8 p.state.code).u8 p.reason.code).u32
    p.moveCount).finish

def GameEndNotification.decode (body : Bytes) : Except Fault GameEndNotification :=
  Decoder.run (do
    let roomId ← u32
    let game ← u32
    let state ← u8
    let reason ← u8
    let moveCount ← u32
    done
    let state ← cast (GameState.ofCode? state)
    let reason ← cast (GameEndReason.ofCode? reason)
    let decoded : GameEndNotification := ⟨roomId, game, state, reason, moveCount⟩
    require (isValidGameEnd decoded)
    return decoded) body

end SelectServer
