import Mathlib.Data.Finset.Basic
import SelectServer.OmokGame

/- `User.h`, `UserManager.cpp`, `RoomTypes.h` and `Room.cpp`: the logged-in users
   under both of their indices, and one room with its members, ready set, colours
   and game. An `unordered_map` is an ordered map here: nothing reads the order of
   its entries, except the sweeps that take a `Traversal`. -/
namespace SelectServer
open Wire (Bytes)

abbrev Map (K V : Type) [Ord K] := Std.ExtTreeMap K V compare

/-- What the code can throw. -/
inductive LogicError where
  | invalidRoomConfiguration
  | invalidRoomConstruction
  | invalidLeaveReason
  | cannotFinish
  | couldNotResolveExpiredTurn
  | invalidLoginTimeout
  deriving DecidableEq, Repr

/-! ## Users -/

abbrev invalidRoomId : RoomId := 0

inductive UserState where
  | lobby | inRoom
  deriving DecidableEq, Repr

structure User where
  session : SessionId := 0
  nickname : Bytes
  state : UserState := .lobby
  roomId : RoomId := invalidRoomId
  deriving DecidableEq, Repr

namespace User

def enterRoom (u : User) (roomId : RoomId) : User := { u with roomId := roomId, state := .inRoom }

def returnToLobby (u : User) : User := { u with roomId := invalidRoomId, state := .lobby }

end User

structure UserManager where
  users : Map SessionId User := ∅
  sessionByNickname : Map Bytes SessionId := ∅

namespace UserManager

def isAllowed (ch : UInt8) : Bool :=
  (65 ≤ ch && ch ≤ 90) || (97 ≤ ch && ch ≤ 122) || (48 ≤ ch && ch ≤ 57) || ch == 95

def isValidNickname (nickname : Bytes) : Bool :=
  !nickname.isEmpty && nickname.length ≤ maxNicknameBytes && nickname.all isAllowed

def find (m : UserManager) (sessionId : SessionId) : Option User := m.users[sessionId]?

/-- The two `emplace` calls at the end of `Login`. -/
def add (m : UserManager) (sessionId : SessionId) (nickname : Bytes) : UserManager :=
  { users := m.users.insertIfNew sessionId { session := sessionId, nickname := nickname }
    sessionByNickname := m.sessionByNickname.insertIfNew nickname sessionId }

def login (m : UserManager) (sessionId : SessionId) (nickname : Bytes) :
    LoginResult × UserManager :=
  if (m.find sessionId).isSome then (.alreadyLoggedIn, m)
  else if !isValidNickname nickname then (.invalidNickname, m)
  else if (m.sessionByNickname[nickname]?).isSome then (.nicknameInUse, m)
  else (.success, m.add sessionId nickname)

def remove (m : UserManager) (sessionId : SessionId) : UserManager :=
  match m.find sessionId with
  | none => m
  | some user =>
    { users := m.users.erase sessionId
      sessionByNickname := m.sessionByNickname.erase user.nickname }

/-- A write through the pointer that `FindMutable` returns. -/
def update (m : UserManager) (sessionId : SessionId) (user : User) : UserManager :=
  { m with users := m.users.insert sessionId user }

end UserManager

/-! ## One room -/

structure Room where
  id : RoomId
  title : Bytes
  capacity : Nat
  members : List SessionId
  hostSession : SessionId := 0
  phase : RoomPhase := .waiting
  readyMembers : Finset SessionId := ∅
  game : OmokGame := {}
  blackPlayer : SessionId := 0
  whitePlayer : SessionId := 0
  turnTime : Time
  turnDeadline : Time := 0
  gameId : GameId := 0

namespace Room

/-- The constructor. -/
def make (id : RoomId) (title : Bytes) (capacity : Nat) (creator : SessionId) (turnTime : Time) :
    Except LogicError Room :=
  if id = invalidRoomId ∨ capacity = 0 ∨ creator = 0 ∨ turnTime ≤ 0 then
    .error .invalidRoomConstruction
  else
    .ok { id := id, title := title, capacity := capacity, members := [creator],
          hostSession := creator, turnTime := turnTime }

def contains (r : Room) (sessionId : SessionId) : Bool := r.members.contains sessionId

def isReady (r : Room) (sessionId : SessionId) : Bool := decide (sessionId ∈ r.readyMembers)

def getPlayerStone (r : Room) (sessionId : SessionId) : GameStone :=
  if sessionId = 0 then .empty
  else if sessionId = r.blackPlayer then .black
  else if sessionId = r.whitePlayer then .white
  else .empty

def isTurnExpired (r : Room) (now : Time) : Bool :=
  r.phase = .playing && r.game.status = .playing && now ≥ r.turnDeadline

def removeMember (r : Room) (sessionId : SessionId) : Bool × Room :=
  if !r.contains sessionId then (false, r)
  else
    let members := r.members.erase sessionId
    (true, { r with
      members := members
      -- whoever leaves stops the game
      phase := .waiting
      readyMembers := ∅
      game := r.game.reset
      blackPlayer := 0
      whitePlayer := 0
      turnDeadline := 0
      hostSession :=
        match members with
        | [] => 0
        | front :: _ => if r.hostSession = sessionId then front else r.hostSession })

def addMember (r : Room) (sessionId : SessionId) : Bool × Room :=
  if r.phase ≠ .waiting ∨ sessionId = 0 ∨ r.contains sessionId ∨ r.members.length ≥ r.capacity then
    (false, r)
  else (true, { r with members := r.members ++ [sessionId], readyMembers := ∅ })

def setReady (r : Room) (sessionId : SessionId) (ready : Bool) : Room :=
  { r with readyMembers :=
      if ready then insert sessionId r.readyMembers else r.readyMembers.erase sessionId }

def forfeit (r : Room) (loser : GameStone) : Bool × Room :=
  ((r.game.forfeit loser).1, { r with game := (r.game.forfeit loser).2 })

def finishGame (r : Room) : Room :=
  { r with phase := .waiting, readyMembers := ∅, turnDeadline := 0 }

def startGame (r : Room) (gameId : GameId) (now : Time) : Room :=
  { r with
    gameId := gameId
    blackPlayer := r.hostSession
    whitePlayer := (r.members.find? (· ≠ r.hostSession)).getD 0
    game := r.game.start
    phase := .playing
    readyMembers := ∅
    turnDeadline := now + r.turnTime }

def placeStone (r : Room) (sessionId : SessionId) (x y : Int) (now : Time) : MoveResult × Room :=
  if r.phase ≠ .playing then (.gameNotRunning, r)
  else
    let stone := r.getPlayerStone sessionId
    if stone = .empty then (.invalidStone, r)
    else
      let (result, game) := r.game.tryPlaceStone stone x y
      let r := { r with game := game }
      if result = .success ∧ game.status = .playing then
        (result, { r with turnDeadline := now + r.turnTime })
      else (result, r)

end Room
end SelectServer
